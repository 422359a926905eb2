import StellarWallet.Account.Base32
import StellarWallet.Account.Checksum
import StellarWallet.Text.Blank
import StellarWallet.Text.Case

/-!
Addresses: the text form of an account key.

An address is the base32 text of a version byte, the 32 bytes of the key and their checksum, the
low byte first. `Address.ofText` reads one as people type it: blanks around it and small letters
are allowed.
-/

namespace StellarWallet

/-- The version byte of an account key. -/
def Address.version : UInt8 := 0x30

/-- Why a text is no address. -/
inductive AddressFault where
  | missing
  | length
  | initial
  | characters
  | version
  | checksum
  deriving DecidableEq, Repr

def AddressFault.message : AddressFault → String
  | .missing => "Address is required"
  | .length => "Address must be 56 characters"
  | .initial => "Address must start with 'G'"
  | .characters => "Address contains invalid characters"
  | .version => "Address is not an account public key"
  | .checksum => "Address checksum is invalid"

namespace Address

/-- The count of characters of an address. -/
def length : Nat := 56

/-- The 33 bytes that the checksum covers. -/
def payload (key : List UInt8) : List UInt8 := version :: key

/-- The address of a key. -/
def ofKey (key : List UInt8) : List Char :=
  Base32.encode (payload key ++ Checksum.littleEndian (Checksum.ofBytes (payload key)))

/-- The form in which an address is compared and kept. -/
def normalize (s : String) : List Char := Text.upper (Text.strip s.toList)

/-- Checks the bytes of an address. -/
def checkBytes (bs : List UInt8) : Except AddressFault Unit :=
  let body := bs.take (bs.length - 2)
  let sum := bs.drop (bs.length - 2)
  if bs.head? ≠ some version then .error .version
  else if (Checksum.ofBytes body).toNat ≠ Checksum.ofLittleEndian sum then .error .checksum
  else .ok ()

/-- Checks a normalized text. -/
def checkText (cs : List Char) : Except AddressFault Unit :=
  if cs.length ≠ length then .error .length
  else if cs.head? ≠ some 'G' then .error .initial
  else match Base32.decode cs with
    | none => .error .characters
    | some bs => checkBytes bs

/-- Reads an address; the result is its normalized text. -/
def ofText (s : String) : Except AddressFault String :=
  if Text.isAllBlank s.toList then .error .missing
  else
    let cs := normalize s
    (checkText cs).map fun _ => String.ofList cs

end Address

end StellarWallet
