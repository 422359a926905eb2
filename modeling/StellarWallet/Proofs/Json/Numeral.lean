import Mathlib.Data.Bool.AllAny
import Mathlib.Data.List.TakeWhile
import Mathlib.Tactic.Common
import StellarWallet.Json.Printer
import StellarWallet.Json.Reader

/-!
Numbers read back.

What ends a number does not matter to how it is read, so that it is enough to read its text alone.
Whole numbers read back when they are short enough; binary64 numbers do when their text does.
-/

namespace StellarWallet

/-- The text goes on with nothing that could belong to a number. -/
def EndsNumber (rest : List Char) : Prop :=
  ∀ c r, rest = c :: r → c.isDigit = false ∧ c ∉ ['.', 'e', 'E', '+', '-']

lemma endsNumber_nil : EndsNumber [] := by
  intro c r h
  cases h

variable {reader : Json.Reader} {rest : List Char}

namespace Numeral

lemma takeWhile_isDigit_append (h : EndsNumber rest) (cs : List Char) :
    (cs ++ rest).takeWhile Char.isDigit = cs.takeWhile Char.isDigit ∧
      (cs ++ rest).dropWhile Char.isDigit = cs.dropWhile Char.isDigit ++ rest := by
  induction cs with
  | nil =>
    cases rest with
    | nil => exact ⟨rfl, rfl⟩
    | cons c r =>
      have hc := (h c r rfl).1
      exact ⟨by simp [hc], by simp [hc]⟩
  | cons c cs ih =>
    cases hc : c.isDigit with
    | true => simp [hc, ih]
    | false => simp [hc]

lemma takeDigits_append (h : EndsNumber rest) (cs : List Char) :
    takeDigits (cs ++ rest)
      = ((takeDigits cs).1, (takeDigits cs).2.1, (takeDigits cs).2.2 ++ rest) := by
  obtain ⟨ht, hd⟩ := takeWhile_isDigit_append h cs
  simp only [takeDigits, ht, hd]

lemma takeSign_append (h : EndsNumber rest) (cs : List Char) :
    takeSign (cs ++ rest) = ((takeSign cs).1, (takeSign cs).2 ++ rest) := by
  cases cs with
  | nil =>
    cases rest with
    | nil => rfl
    | cons c r =>
      have hc := (h c r rfl).2
      unfold takeSign
      split <;> simp_all
  | cons c cs =>
    unfold takeSign
    split <;> simp_all

lemma takePlaces_append (h : EndsNumber rest) (cs : List Char) :
    takePlaces (cs ++ rest) = (takePlaces cs).map fun p => (p.1, p.2.1, p.2.2 ++ rest) := by
  cases cs with
  | nil =>
    cases rest with
    | nil => rfl
    | cons c r =>
      have hc := (h c r rfl).2
      unfold takePlaces
      split <;> simp_all
  | cons c cs =>
    by_cases hc : c = '.'
    · subst hc
      simp only [List.cons_append, takePlaces, takeDigits_append h, Option.map_some]
    · unfold takePlaces
      split <;> simp_all

lemma takeExponent_append (h : EndsNumber rest) (cs : List Char) :
    takeExponent (cs ++ rest) = ((takeExponent cs).1, (takeExponent cs).2 ++ rest) := by
  cases cs with
  | nil =>
    cases rest with
    | nil => rfl
    | cons c r =>
      have hc := (h c r rfl).2
      have he : (c = 'e' || c = 'E') = false := by simp_all
      simp [takeExponent, he]
  | cons e cs =>
    simp only [List.cons_append, takeExponent]
    by_cases he : e = 'e' || e = 'E'
    · simp only [he, if_true, takeSign_append h, takeDigits_append h]
      rcases takeDigits (takeSign cs).2 with ⟨n, k, r⟩
      cases k <;> rfl
    · simp [he]

end Numeral

namespace Json

lemma readWhole_append (h : EndsNumber rest) (cs : List Char) :
    readWhole (cs ++ rest) = (readWhole cs).map fun p => (p.1, p.2.1, p.2.2 ++ rest) := by
  cases cs with
  | nil =>
    cases rest with
    | nil => rfl
    | cons c r =>
      have hc := (h c r rfl).1
      have hz : c ≠ '0' := by
        rintro rfl
        cases hc
      unfold readWhole
      split <;> simp_all
  | cons c cs =>
    by_cases hz : c = '0'
    · subst hz
      rfl
    · have hr : ∀ r : List Char, readWhole (c :: r)
          = if c.isDigit then some (Numeral.takeDigits (c :: r)) else none := by
        intro r
        rw [readWhole]
        exact hz
      rw [List.cons_append, hr, hr, ← List.cons_append, Numeral.takeDigits_append h]
      split <;> rfl

/-- A leading minus. -/
def takeMinus : List Char → Bool × List Char
  | '-' :: r => (true, r)
  | r => (false, r)

/-- The places after a point, if there are some. -/
def readPlaces (cs : List Char) : Nat × Nat × List Char :=
  match Numeral.takePlaces cs with
  | some (n, k + 1, r) => (n, k + 1, r)
  | _ => (0, 0, cs)

/-- The number of a whole part and what follows it. -/
def finishNumber (negative : Bool) (whole count : Nat) (cs : List Char) :
    Option (Number × List Char) :=
  let (part, places, rest) := readPlaces cs
  let (e, rest') := Numeral.takeExponent rest
  if places = 0 ∧ rest'.length = rest.length then
    if count ≤ Numeral.maxWholeDigits then
      some (.whole (if negative then -(whole : Int) else whole), rest)
    else none
  else
    let n : Numeral := ⟨negative, whole * tenTo places + part, count + places, e - places⟩
    some (.real n.toBinary64, rest')

lemma readNumber_eq (cs : List Char) :
    readNumber cs = (readWhole (takeMinus cs).2).bind fun p =>
      finishNumber (takeMinus cs).1 p.1 p.2.1 p.2.2 := rfl

lemma takeMinus_append (h : EndsNumber rest) (cs : List Char) :
    takeMinus (cs ++ rest) = ((takeMinus cs).1, (takeMinus cs).2 ++ rest) := by
  cases cs with
  | nil =>
    cases rest with
    | nil => rfl
    | cons c r =>
      have hc := (h c r rfl).2
      unfold takeMinus
      split <;> simp_all
  | cons c cs =>
    unfold takeMinus
    split <;> simp_all

lemma readPlaces_append (h : EndsNumber rest) (cs : List Char) :
    readPlaces (cs ++ rest)
      = ((readPlaces cs).1, (readPlaces cs).2.1, (readPlaces cs).2.2 ++ rest) := by
  rw [readPlaces, Numeral.takePlaces_append h, readPlaces]
  rcases Numeral.takePlaces cs with _ | ⟨n, k, r⟩
  · rfl
  · cases k <;> rfl

lemma finishNumber_append (h : EndsNumber rest) (negative : Bool) (whole count : Nat)
    (cs : List Char) : finishNumber negative whole count (cs ++ rest)
      = (finishNumber negative whole count cs).map fun p => (p.1, p.2 ++ rest) := by
  unfold finishNumber
  rw [readPlaces_append h]
  obtain ⟨part, places, r⟩ := readPlaces cs
  dsimp only
  rw [Numeral.takeExponent_append h]
  obtain ⟨e, r'⟩ := Numeral.takeExponent r
  simp only [List.length_append, Nat.add_right_cancel_iff]
  split
  · split <;> rfl
  · rfl

/-- What ends a number does not matter to how it is read. -/
lemma readNumber_append (h : EndsNumber rest) (cs : List Char) :
    readNumber (cs ++ rest) = (readNumber cs).map fun p => (p.1, p.2 ++ rest) := by
  rw [readNumber_eq, readNumber_eq, takeMinus_append h, readWhole_append h]
  rcases readWhole (takeMinus cs).2 with _ | ⟨whole, count, r⟩
  · rfl
  · exact finishNumber_append h _ _ _ _

/-! ### What is left of a text -/

lemma takeDigits_suffix (cs : List Char) : (Numeral.takeDigits cs).2.2 <:+ cs :=
  List.dropWhile_suffix _

lemma takeMinus_suffix (cs : List Char) : (takeMinus cs).2 <:+ cs := by
  unfold takeMinus
  split
  · exact List.suffix_cons _ _
  · exact List.suffix_refl _

lemma takeSign_suffix (cs : List Char) : (Numeral.takeSign cs).2 <:+ cs := by
  unfold Numeral.takeSign
  split
  · exact List.suffix_cons _ _
  · exact List.suffix_cons _ _
  · exact List.suffix_refl _

lemma readWhole_suffix {cs : List Char} {p : Nat × Nat × List Char}
    (h : readWhole cs = some p) : p.2.2 <:+ cs := by
  unfold readWhole at h
  split at h
  · cases h
    exact List.suffix_cons _ _
  · split at h
    · cases h
      exact takeDigits_suffix _
    · cases h
  · cases h

lemma readPlaces_suffix (cs : List Char) : (readPlaces cs).2.2 <:+ cs := by
  unfold readPlaces
  split
  · next n k r h =>
    unfold Numeral.takePlaces at h
    split at h
    · next d =>
      have hd := takeDigits_suffix d
      rw [Option.some.inj h] at hd
      exact hd.trans (List.suffix_cons _ _)
    · cases h
  · exact List.suffix_refl _

lemma takeExponent_suffix (cs : List Char) : (Numeral.takeExponent cs).2 <:+ cs := by
  unfold Numeral.takeExponent
  split
  · next e r =>
    split
    · have hd := (takeDigits_suffix (Numeral.takeSign r).2).trans (takeSign_suffix r)
      dsimp only
      split
      · exact List.suffix_refl _
      · next h =>
        rw [h] at hd
        exact hd.trans (List.suffix_cons _ _)
    · exact List.suffix_refl _
  · exact List.suffix_refl _

lemma finishNumber_suffix {negative : Bool} {whole count : Nat} {cs : List Char}
    {p : Number × List Char} (h : finishNumber negative whole count cs = some p) :
    p.2 <:+ cs := by
  have hplaces := readPlaces_suffix cs
  have hexponent := takeExponent_suffix (readPlaces cs).2.2
  unfold finishNumber at h
  dsimp only at h
  split at h
  · split at h
    · cases h
      exact hplaces
    · cases h
  · cases h
    exact hexponent.trans hplaces

/-- What is left when a number is read was behind it. -/
lemma readNumber_suffix {cs : List Char} {p : Number × List Char} (h : readNumber cs = some p) :
    p.2 <:+ cs := by
  rw [readNumber_eq] at h
  obtain ⟨q, hq, hp⟩ := Option.bind_eq_some_iff.1 h
  exact ((finishNumber_suffix hp).trans (readWhole_suffix hq)).trans (takeMinus_suffix cs)

/-! ### Whole numbers -/

/-- A whole number that the reader takes. -/
def IsShort (n : Int) : Prop := (Nat.toDigits 10 n.natAbs).length ≤ Numeral.maxWholeDigits

lemma takeDigits_toDigits (n : Nat) :
    Numeral.takeDigits (Nat.toDigits 10 n) = (n, (Nat.toDigits 10 n).length, []) := by
  have hall : ∀ c ∈ Nat.toDigits 10 n, c.isDigit = true := fun c hc =>
    Nat.isDigit_of_mem_toDigits (by decide) (by decide) hc
  rw [Numeral.takeDigits, List.takeWhile_eq_self_iff.2 hall, List.dropWhile_eq_nil_iff.2 hall,
    Nat.ofDigitChars_ten_toDigits]

/-- A decimal starts with a zero only if it is zero. -/
lemma head_toDigits {n : Nat} (hn : n ≠ 0) (c : Char) (cs : List Char)
    (h : Nat.toDigits 10 n = c :: cs) : c ≠ '0' := by
  induction n using Nat.strongRecOn generalizing cs with
  | ind n ih =>
    rw [Nat.toDigits_eq_if (by decide)] at h
    split at h
    · obtain ⟨rfl, -⟩ := List.cons.inj h
      rw [Ne, Nat.digitChar_eq_zero]
      exact hn
    · cases hd : Nat.toDigits 10 (n / 10) with
      | nil => exact absurd hd Nat.toDigits_ne_nil
      | cons d ds =>
        rw [hd, List.cons_append] at h
        obtain ⟨rfl, -⟩ := List.cons.inj h
        exact ih (n / 10) (by omega) (by omega) ds hd

lemma readWhole_toDigits (n : Nat) :
    readWhole (Nat.toDigits 10 n) = some (n, (Nat.toDigits 10 n).length, []) := by
  rcases Nat.eq_zero_or_pos n with rfl | hn
  · rfl
  · have hall : ∀ c ∈ Nat.toDigits 10 n, c.isDigit = true := fun c hc =>
      Nat.isDigit_of_mem_toDigits (by decide) (by decide) hc
    cases hd : Nat.toDigits 10 n with
    | nil => exact absurd hd Nat.toDigits_ne_nil
    | cons c cs =>
      have hz : c ≠ '0' := head_toDigits (by omega) c cs hd
      have hc : c.isDigit = true := hall c (by rw [hd]; simp)
      rw [readWhole, if_pos hc, ← hd, takeDigits_toDigits]
      exact hz

lemma numberText_whole (n : Int) : numberText (.whole n)
    = if 0 ≤ n then Nat.toDigits 10 n.natAbs else '-' :: Nat.toDigits 10 n.natAbs := by
  rw [numberText, Int.toString_eq_repr, Int.repr_eq_if]
  split
  · rw [Nat.toList_repr, show n.toNat = n.natAbs by omega]
  · rw [String.toList_append, Nat.toList_repr, show (-n).toNat = n.natAbs by omega]
    rfl

lemma takeMinus_of_isDigit {c : Char} (hc : c.isDigit = true) (cs : List Char) :
    takeMinus (c :: cs) = (false, c :: cs) := by
  unfold takeMinus
  split
  · next h =>
    obtain ⟨rfl, -⟩ := List.cons.inj h
    cases hc
  · rfl

lemma takeMinus_toDigits (n : Nat) :
    takeMinus (Nat.toDigits 10 n) = (false, Nat.toDigits 10 n) := by
  cases hd : Nat.toDigits 10 n with
  | nil => rfl
  | cons c cs =>
    have hc : c ∈ Nat.toDigits 10 n := by simp [hd]
    exact takeMinus_of_isDigit (Nat.isDigit_of_mem_toDigits (by decide) (by decide) hc) cs

lemma finishNumber_nil {count : Nat} (h : count ≤ Numeral.maxWholeDigits) (negative : Bool)
    (whole : Nat) : finishNumber negative whole count []
      = some (.whole (if negative then -(whole : Int) else whole), []) := by
  have he : finishNumber negative whole count [] = if count ≤ Numeral.maxWholeDigits then
      some (.whole (if negative then -(whole : Int) else whole), []) else none := rfl
  rw [he, if_pos h]

/-- A whole number that is short enough reads back. -/
lemma readNumber_whole {n : Int} (h : IsShort n) :
    readNumber (numberText (.whole n)) = some (.whole n, []) := by
  rw [readNumber_eq, numberText_whole]
  split
  · rw [takeMinus_toDigits, readWhole_toDigits, Option.bind_some, finishNumber_nil h]
    simp only [Bool.false_eq_true, if_false, Option.some.injEq, Prod.mk.injEq, and_true,
      Number.whole.injEq]
    omega
  · rw [takeMinus, readWhole_toDigits, Option.bind_some, finishNumber_nil h]
    simp only [if_true, Option.some.injEq, Prod.mk.injEq, and_true, Number.whole.injEq]
    omega

/-! ### Numbers as values -/

lemma isDigit_of_readWhole {cs : List Char} {p : Nat × Nat × List Char}
    (h : readWhole cs = some p) : ∃ c r, cs = c :: r ∧ c.isDigit = true := by
  unfold readWhole at h
  split at h
  · exact ⟨'0', _, rfl, rfl⟩
  · next c r _ =>
    split at h
    · next hc => exact ⟨c, r, rfl, hc⟩
    · cases h
  · cases h

/-- A number starts with a digit, or with a minus and a digit. -/
lemma isDigit_of_readNumber {cs : List Char} {p : Number × List Char}
    (h : readNumber cs = some p) :
    ∃ c r, c.isDigit = true ∧ (cs = c :: r ∨ cs = '-' :: c :: r) := by
  rw [readNumber_eq] at h
  obtain ⟨q, hq, -⟩ := Option.bind_eq_some_iff.1 h
  obtain ⟨c, r, hcs, hc⟩ := isDigit_of_readWhole hq
  refine ⟨c, r, hc, ?_⟩
  unfold takeMinus at hcs
  split at hcs
  · exact Or.inr (by rw [← hcs])
  · exact Or.inl hcs

lemma ne_of_isDigit {c d : Char} (hc : c.isDigit = true) (hd : d.isDigit = false) : c ≠ d := by
  rintro rfl
  rw [hc] at hd
  cases hd

/-- A digit opens neither a string nor a list nor an object. -/
lemma not_opening_of_isDigit {c : Char} (hc : c.isDigit = true) : c ∉ ['"', '[', '{'] := by
  simp only [List.mem_cons, List.not_mem_nil, or_false, not_or]
  exact ⟨ne_of_isDigit hc rfl, ne_of_isDigit hc rfl, ne_of_isDigit hc rfl⟩

lemma isPrefixOf?_of_ne {c d : Char} (h : d ≠ c) (w r : List Char) :
    (d :: w).isPrefixOf? (c :: r) = none := by
  change (if d == c then w.isPrefixOf? r else none) = none
  rw [beq_false_of_ne h]
  rfl

lemma readWord_of_isDigit {c : Char} (hc : c.isDigit = true) (r : List Char) :
    readWord (c :: r) = none ∧ readWord ('-' :: c :: r) = none := by
  have hne : ∀ d w, d.isDigit = false → (d :: w).isPrefixOf? (c :: r) = none := fun d w hd =>
    isPrefixOf?_of_ne (ne_of_isDigit hc hd).symm w r
  have hsign : ∀ w, ('-' :: 'I' :: w).isPrefixOf? ('-' :: c :: r) = none := fun w => hne 'I' w rfl
  constructor
  · simp [readWord, words, hne 'n' _ rfl, hne 't' _ rfl, hne 'f' _ rfl, hne 'N' _ rfl,
      hne 'I' _ rfl, hne '-' _ rfl]
  · simp [readWord, words, isPrefixOf?_of_ne, hsign]

/-- A text that opens neither a string nor a list nor an object. -/
lemma readValue_scalar {cs : List Char} (h : ∀ c r, cs = c :: r → c ∉ ['"', '[', '{'])
    (fuel room : Nat) : reader.readValue (fuel + 1) room cs = readScalar cs := by
  have hne : ∀ c r, cs = c :: r → c ≠ '"' ∧ c ≠ '[' ∧ c ≠ '{' := by
    intro c r hcs
    have := h c r hcs
    simpa using this
  unfold Reader.readValue
  split
  · exact absurd rfl (hne _ _ rfl).1
  · exact absurd rfl (hne _ _ rfl).2.1
  · exact absurd rfl (hne _ _ rfl).2.2
  · rfl

lemma readValue_of_isDigit {c : Char} (hc : c.isDigit = true) {cs r rest : List Char} {n : Number}
    (h : cs = c :: r ∨ cs = '-' :: c :: r) (hn : readNumber cs = some (n, rest))
    (fuel room : Nat) : reader.readValue (fuel + 1) room cs = .ok (.number n, rest) := by
  have hopen : ∀ d r', cs = d :: r' → d ∉ ['"', '[', '{'] := by
    intro d r' hd
    rcases h with rfl | rfl
    · obtain ⟨rfl, -⟩ := List.cons.inj hd
      exact not_opening_of_isDigit hc
    · obtain ⟨rfl, -⟩ := List.cons.inj hd
      decide
  have hword : readWord cs = none := by
    rcases h with rfl | rfl
    · exact (readWord_of_isDigit hc r).1
    · exact (readWord_of_isDigit hc r).2
  rw [readValue_scalar hopen, readScalar, hword, hn]

/-- A number in front of what ends it. -/
lemma readValue_number {cs : List Char} {n : Number} (h : readNumber cs = some (n, []))
    (hr : EndsNumber rest) (fuel room : Nat) :
    reader.readValue (fuel + 1) room (cs ++ rest) = .ok (.number n, rest) := by
  have happ : readNumber (cs ++ rest) = some (n, rest) := by
    rw [readNumber_append hr, h]
    rfl
  obtain ⟨c, r, hc, hcs⟩ := isDigit_of_readNumber happ
  exact readValue_of_isDigit hc hcs happ fuel room

/-! ### Binary64 numbers -/

/-- A character of a finite number. -/
def IsNumeralChar (c : Char) : Prop := c.isDigit = true ∨ c ∈ ['.', 'e', '+', '-']

instance (c : Char) : Decidable (IsNumeralChar c) := inferInstanceAs (Decidable (_ ∨ _))

/-- A text of a finite number, or a part of one. -/
def IsNumeralText (s : String) : Prop := ∀ c ∈ s.toList, IsNumeralChar c

instance (s : String) : Decidable (IsNumeralText s) := List.decidableBAll _ _

lemma IsNumeralText.append {s t : String} (hs : IsNumeralText s) (ht : IsNumeralText t) :
    IsNumeralText (s ++ t) := by
  intro c hc
  rw [String.toList_append] at hc
  rcases List.mem_append.1 hc with h | h
  · exact hs c h
  · exact ht c h

lemma IsNumeralText.of_subset {s : String} (hs : IsNumeralText s) {cs : List Char}
    (h : ∀ c ∈ cs, c ∈ s.toList) : IsNumeralText (String.ofList cs) := by
  intro c hc
  rw [String.toList_ofList] at hc
  exact hs c (h c hc)

lemma isNumeralText_toString (n : Nat) : IsNumeralText (toString n) := by
  intro c hc
  rw [Nat.toString_eq_ofList_toDigits, String.toList_ofList] at hc
  exact Or.inl (Nat.isDigit_of_mem_toDigits (by decide) (by decide) hc)

lemma isNumeralText_zerosText (n : Nat) : IsNumeralText (Binary64.zerosText n) := by
  intro c hc
  rw [Binary64.zerosText, String.toList_ofList] at hc
  rw [(List.mem_replicate.1 hc).2]
  exact Or.inl rfl

lemma isNumeralText_exponentText (e : Int) : IsNumeralText (Binary64.exponentText e) := by
  have hzero : IsNumeralText "0" := by decide
  have hminus : IsNumeralText "e-" := by decide
  have hplus : IsNumeralText "e+" := by decide
  have hn := isNumeralText_toString e.natAbs
  unfold Binary64.exponentText
  refine IsNumeralText.append ?_ ?_
  · split
    · exact hminus
    · exact hplus
  · split
    · exact hzero.append hn
    · exact hn

lemma isNumeralText_digits (l : Binary64.Layout) (c : Nat) (u : Int) :
    IsNumeralText (l.digits c u) := by
  have hc := isNumeralText_toString c
  have hpoint : IsNumeralText "." := by decide
  have hend : IsNumeralText ".0" := by decide
  have hstart : IsNumeralText "0." := by decide
  have hempty : IsNumeralText "" := by decide
  have htake : ∀ n, IsNumeralText (String.ofList ((toString c).toList.take n)) := fun n =>
    hc.of_subset fun x hx => List.mem_of_mem_take hx
  have hdrop : ∀ n, IsNumeralText (String.ofList ((toString c).toList.drop n)) := fun n =>
    hc.of_subset fun x hx => List.mem_of_mem_drop hx
  unfold Binary64.Layout.digits
  dsimp only
  split
  · split
    · exact (hc.append (isNumeralText_zerosText _)).append hend
    · split
      · exact ((htake _).append hpoint).append (hdrop _)
      · exact (hstart.append (isNumeralText_zerosText _)).append hc
  · refine ((htake 1).append ?_).append (isNumeralText_exponentText _)
    split
    · exact hempty
    · exact hpoint.append (hdrop 1)

/-- The text of a finite number. -/
lemma isNumeralChar_finite (negative : Bool) (m : Nat) (q : Int)
    (canonical : Binary64.IsCanonical m q) :
    ∀ c ∈ numberText (.real (.finite negative m q canonical)), IsNumeralChar c := by
  have hminus : IsNumeralText "-" := by decide
  have hempty : IsNumeralText "" := by decide
  have hzero : IsNumeralText "0.0" := by decide
  have ht : IsNumeralText (layout.render (.finite negative m q canonical)) := by
    unfold Binary64.Layout.render
    refine IsNumeralText.append ?_ ?_
    · split
      · exact hminus
      · exact hempty
    · split
      · exact hzero
      · exact isNumeralText_digits _ _ _
  exact ht

/-- Reading the text of a binary64 number gives it back. -/
def ReadsBack (x : Binary64) : Prop :=
  Reader.standard.read (String.ofList (numberText (.real x))) = .ok (.number (.real x))

lemma isJsonBlank_of_isNumeralChar {c : Char} (h : IsNumeralChar c) : isJsonBlank c = false := by
  rcases h with h | h
  · have hne := fun (d : Char) (hd : d.isDigit = false) => ne_of_isDigit h hd
    simp [isJsonBlank, hne ' ' rfl, hne '\t' rfl, hne '\n' rfl, hne '\r' rfl]
  · have hall : ∀ d ∈ ['.', 'e', '+', '-'], isJsonBlank d = false :=
      List.all_iff_forall_prop.1 (by decide)
    exact hall c h

lemma not_opening_of_isNumeralChar {c : Char} (h : IsNumeralChar c) : c ∉ ['"', '[', '{'] := by
  rcases h with h | h
  · exact not_opening_of_isDigit h
  · have hall : ∀ d ∈ ['.', 'e', '+', '-'], d ∉ ['"', '[', '{'] :=
      List.all_iff_forall_prop.1 (by decide)
    exact hall c h

lemma readWord_isWord {cs r : List Char} {v : Value} (h : readWord cs = some (v, r)) :
    v ∈ words.map Prod.snd := by
  obtain ⟨w, hw, hv⟩ := List.exists_of_findSome?_eq_some h
  obtain ⟨r', -, hp⟩ := Option.map_eq_some_iff.1 hv
  obtain ⟨rfl, -⟩ := Prod.mk.inj hp
  exact List.mem_map_of_mem hw

lemma skipBlanks_eq_self {cs : List Char} (h : ∀ c ∈ cs, isJsonBlank c = false) :
    skipBlanks cs = cs := by
  cases cs with
  | nil => rfl
  | cons c r => simp [skipBlanks, h c (by simp)]

/-- A finite number whose text reads back is read as a number, and nothing is left. -/
lemma readNumber_finite {negative : Bool} {m : Nat} {q : Int}
    {canonical : Binary64.IsCanonical m q} (h : ReadsBack (.finite negative m q canonical)) :
    readNumber (numberText (.real (.finite negative m q canonical)))
      = some (.real (.finite negative m q canonical), []) := by
  have hchars := isNumeralChar_finite negative m q canonical
  obtain ⟨x, hx⟩ : ∃ x, x = Binary64.finite negative m q canonical := ⟨_, rfl⟩
  rw [← hx] at h hchars ⊢
  have hblank : ∀ c ∈ numberText (.real x), isJsonBlank c = false := fun c hc =>
    isJsonBlank_of_isNumeralChar (hchars c hc)
  have hopen : ∀ c r, numberText (.real x) = c :: r → c ∉ ['"', '[', '{'] := fun c r hcr =>
    not_opening_of_isNumeralChar (hchars c (by rw [hcr]; simp))
  rw [ReadsBack, Reader.read, String.toList_ofList, Reader.decode, skipBlanks_eq_self hblank,
    readValue_scalar hopen, readScalar] at h
  cases hw : readWord (numberText (.real x)) with
  | some found =>
    obtain ⟨v, r⟩ := found
    have hv := readWord_isWord hw
    rw [hw] at h
    dsimp only at h
    split at h
    · cases h
      simp [words, hx] at hv
    · cases h
  | none =>
    rw [hw] at h
    dsimp only at h
    cases hn : readNumber (numberText (.real x)) with
    | none => rw [hn] at h; cases h
    | some p =>
      obtain ⟨n, r⟩ := p
      have hsuffix : r <:+ numberText (.real x) := readNumber_suffix hn
      have hr : skipBlanks r = r := skipBlanks_eq_self fun c hc => hblank c (hsuffix.subset hc)
      rw [hn] at h
      simp only [hr] at h
      split at h
      · next hempty =>
        cases h
        rw [List.isEmpty_iff.1 hempty]
      · cases h

/-! ### Any number -/

/-- A number that reads back. -/
def IsReadable : Number → Prop
  | .whole n => IsShort n
  | .real x => ReadsBack x

/-- A readable number in front of what ends it. -/
lemma readValue_numberText {n : Number} (h : IsReadable n) (hr : EndsNumber rest)
    (fuel room : Nat) :
    reader.readValue (fuel + 1) room (numberText n ++ rest) = .ok (.number n, rest) := by
  cases n with
  | whole n => exact readValue_number (readNumber_whole h) hr fuel room
  | real x =>
    cases x with
    | nan => rfl
    | infinite negative => cases negative <;> rfl
    | finite negative m q canonical => exact readValue_number (readNumber_finite h) hr fuel room

end Json

end StellarWallet
