/-!
Looking for one text inside another.
-/

namespace StellarWallet.Text

/-- `w` occurs in the text. -/
def hasInfix (w : List Char) : List Char → Bool
  | [] => w.isEmpty
  | c :: r => w.isPrefixOf (c :: r) || hasInfix w r

/-- `a` occurs, and after it, before the line feed that ends its line, `b`. -/
def hasInfixesOnLine (a b : List Char) : List Char → Bool
  | [] => false
  | c :: r =>
    (match a.isPrefixOf? (c :: r) with
      | some rest => hasInfix b (rest.takeWhile (· ≠ '\n'))
      | none => false) || hasInfixesOnLine a b r

theorem hasInfix_iff {w cs : List Char} : hasInfix w cs = true ↔ w <:+: cs := by
  induction cs with
  | nil => simp [hasInfix]
  | cons c r ih => simp [hasInfix, ih, List.infix_cons_iff]

/-- A word without `x` that starts before an `x` ends before it. -/
theorem prefix_of_append_cons {w bs : List Char} {x : Char} (hx : x ∉ w) (as : List Char)
    (h : w <+: as ++ x :: bs) : w <+: as := by
  have hborder : as ++ [x] <+: as ++ x :: bs := ⟨bs, by rw [List.append_assoc]; rfl⟩
  obtain hshort | hlong := List.prefix_or_prefix_of_prefix h hborder
  · obtain rfl | hw := List.prefix_concat_iff.1 hshort
    · exact absurd (List.mem_append_right as (List.mem_singleton_self x)) hx
    · exact hw
  · exact absurd (hlong.subset (List.mem_append_right as (List.mem_singleton_self x))) hx

/-- A word without `x` does not lie across an `x`. -/
theorem infix_append_cons_iff {w as bs : List Char} {x : Char} (hx : x ∉ w) :
    w <:+: as ++ x :: bs ↔ w <:+: as ∨ w <:+: bs := by
  constructor
  · intro h
    induction as with
    | nil =>
      obtain h | h := List.infix_cons_iff.1 h
      · exact Or.inl (prefix_of_append_cons hx [] h).isInfix
      · exact Or.inr h
    | cons a as ih =>
      obtain h | h := List.infix_cons_iff.1 h
      · exact Or.inl (prefix_of_append_cons hx (a :: as) h).isInfix
      · exact (ih h).imp_left fun h => List.infix_cons_iff.2 (Or.inr h)
  · rintro (h | h)
    · exact h.trans (List.prefix_append as (x :: bs)).isInfix
    · exact h.trans ⟨as ++ [x], [], by simp⟩

/-- The text before the first `c`, and the text after it. -/
def cut (c : Char) (cs : List Char) : List Char × Option (List Char) :=
  match cs.dropWhile (· ≠ c) with
  | [] => (cs, none)
  | _ :: r => (cs.takeWhile (· ≠ c), some r)

/-- The pieces between the occurrences of `c`. -/
def pieces (c : Char) (cs : List Char) : List (List Char) := cs.splitOn c

end StellarWallet.Text
