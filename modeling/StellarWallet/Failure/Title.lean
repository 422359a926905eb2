import StellarWallet.Failure.Fault

/-!
The titles under which logs show faults, and the text of a fault in a log.
-/

namespace StellarWallet

/-- A kind of failed exchange. -/
def exchangeTitle (name : String) : String := "requests.exceptions." ++ name

def FaultKind.title : FaultKind → String
  | .general => "Exception"
  | .runtime => "RuntimeError"
  | .invalidValue => "ValueError"
  | .wrongType => "TypeError"
  | .missingKey => "KeyError"
  | .missingAttribute => "AttributeError"
  | .overflow => "OverflowError"
  | .zeroDivision => "ZeroDivisionError"
  | .system => "OSError"
  | .isDirectory => "IsADirectoryError"
  | .notDirectory => "NotADirectoryError"
  | .missingFile => "FileNotFoundError"
  | .existingFile => "FileExistsError"
  | .brokenConnection => "ConnectionError"
  | .expired => "TimeoutError"
  | .recursion => "RecursionError"
  | .transaction => "arena_wallet.features.transactions.errors.TransactionError"
  | .confirmation => "arena_wallet.features.transactions.errors.ConfirmationError"
  | .configuration => "arena_wallet.config.ConfigurationError"
  | .balanceQuery => "arena_wallet.features.balances.service.BalanceQueryError"
  | .network .. => "arena_wallet.shared.network.NetworkError"
  | .timeout => exchangeTitle "Timeout"
  | .readTimeout => exchangeTitle "ReadTimeout"
  | .connectTimeout => exchangeTitle "ConnectTimeout"
  | .connection => exchangeTitle "ConnectionError"
  | .tls => exchangeTitle "SSLError"
  | .proxy => exchangeTitle "ProxyError"
  | .http _ => exchangeTitle "HTTPError"
  | .invalidUrl => exchangeTitle "InvalidURL"
  | .missingScheme => exchangeTitle "MissingSchema"
  | .invalidScheme => exchangeTitle "InvalidSchema"
  | .invalidHeader => exchangeTitle "InvalidHeader"
  | .undecodableBody => exchangeTitle "JSONDecodeError"
  | .tooManyRedirects => exchangeTitle "TooManyRedirects"
  | .chunkedEncoding => exchangeTitle "ChunkedEncodingError"
  | .contentDecoding => exchangeTitle "ContentDecodingError"
  | .request => exchangeTitle "RequestException"
  | .urlRequired => exchangeTitle "URLRequired"
  | .retries => exchangeTitle "RetryError"
  | .streamConsumed => exchangeTitle "StreamConsumedError"
  | .unrewindableBody => exchangeTitle "UnrewindableBodyError"

/-- A fault as logs show it: the title, and the message if there is one. -/
def Fault.logText (f : Fault) : String :=
  if f.message = "" then f.kind.title else f.kind.title ++ ": " ++ f.message

end StellarWallet
