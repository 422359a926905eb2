import StellarWallet.Text.Word

/-!
Keys that stand as words.

A word is a longest run of word characters. A secret seed is a word of 56 characters that starts
with `S` and goes on in the characters of base32; an account key starts with `G`.
-/

namespace StellarWallet.Redaction

def isKeyChar (c : Char) : Bool := ('A' ≤ c && c ≤ 'Z') || ('2' ≤ c && c ≤ '7')

/-- A word of 56 characters with the given first one. -/
def isKeyWord (initial : Char) : List Char → Bool
  | [] => false
  | c :: r => c = initial && r.length = 55 && r.all isKeyChar

/-- A finished word, masked if `p` holds of it. -/
def maskWord (p : List Char → Bool) (mask w : List Char) : List Char := if p w then mask else w

/-- The text with the words of `p` masked; `w` holds the word under way, last character first. -/
def maskWordsFrom (p : List Char → Bool) (mask : List Char) : (w : List Char) → List Char → List Char
  | w, [] => maskWord p mask w.reverse
  | w, c :: r =>
    if Text.isWordChar c then maskWordsFrom p mask (c :: w) r
    else maskWord p mask w.reverse ++ c :: maskWordsFrom p mask [] r

/-- The text with the words of `p` masked. -/
def maskWords (p : List Char → Bool) (mask cs : List Char) : List Char := maskWordsFrom p mask [] cs

def seedMask : List Char := "[SEED_REDACTED]".toList

def addressMask : List Char := "[ADDRESS_REDACTED]".toList

end StellarWallet.Redaction
