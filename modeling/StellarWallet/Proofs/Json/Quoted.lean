import Mathlib.Tactic.Common
import StellarWallet.Json.Printer
import StellarWallet.Json.Reader

/-!
Strings in quotes read back.

A character is written as itself, as a short escape, or as one or two units of sixteen bits; the
reader takes the units up to the closing quote and joins those that are two halves of a character.
-/

namespace StellarWallet.Json

/-- The units of a character. -/
def units (c : Char) : List Nat :=
  if c.toNat < 0x10000 then [c.toNat]
  else [0xD800 + (c.toNat - 0x10000) / 1024, 0xDC00 + (c.toNat - 0x10000) % 1024]

lemma isValidChar_toNat (c : Char) : c.toNat.isValidChar := c.valid

lemma hexValue?_hexDigit (n : Nat) : hexValue? (hexDigit n) = some (n % 16) := by
  have h : ∀ m < 16, hexValue? (Nat.digitChar m) = some m := by decide
  exact h (n % 16) (Nat.mod_lt n (by decide))

lemma unitValue?_hexDigits {n : Nat} (h : n < 0x10000) :
    unitValue? (hexDigit (n / 4096)) (hexDigit (n / 256)) (hexDigit (n / 16)) (hexDigit n)
      = some n := by
  simp only [unitValue?, hexValue?_hexDigit, Option.bind_eq_bind, Option.bind_some,
    Option.pure_def, Option.some.injEq]
  omega

lemma readUnits_unitEscape {n : Nat} (h : n < 0x10000) (cs : List Char) :
    readUnits (unitEscape n ++ cs) = (readUnits cs).map fun p => (n :: p.1, p.2) := by
  simp only [unitEscape, List.cons_append, List.nil_append]
  rw [readUnits, unitValue?_hexDigits h]
  cases readUnits cs <;> rfl

lemma readUnits_escape {e : Char} {n : Nat} (he : e ≠ 'u') (hn : escaped? e = some n)
    (cs : List Char) :
    readUnits ('\\' :: e :: cs) = (readUnits cs).map fun p => (n :: p.1, p.2) := by
  rw [readUnits, hn]
  · cases readUnits cs <;> rfl
  · intro a b c d r h
    exact absurd h he

lemma readUnits_plain {c : Char} (hq : c ≠ '"') (hb : c ≠ '\\') (h : 32 ≤ c.toNat)
    (cs : List Char) :
    readUnits (c :: cs) = (readUnits cs).map fun p => (c.toNat :: p.1, p.2) := by
  rw [readUnits, if_neg (by omega)]
  · cases readUnits cs <;> rfl
  · exact hq
  · intro a b c' d r h
    exact absurd h hb
  · intro e r h
    exact absurd h hb

/-- One character reads back as its units. -/
lemma readUnits_escapeChar (c : Char) (cs : List Char) :
    readUnits (escapeChar c ++ cs) = (readUnits cs).map fun p => (units c ++ p.1, p.2) := by
  have hshort : ∀ {e : Char} {n : Nat}, e ≠ 'u' → escaped? e = some n → c.toNat = n →
      n < 0x10000 →
      readUnits (['\\', e] ++ cs) = (readUnits cs).map fun p => (units c ++ p.1, p.2) := by
    rintro e n he hn rfl hlt
    rw [units, if_pos hlt]
    exact readUnits_escape he hn cs
  unfold escapeChar
  split
  · next h => subst h; exact hshort (by decide) rfl rfl (by decide)
  split
  · next h => subst h; exact hshort (by decide) rfl rfl (by decide)
  split
  · next h => subst h; exact hshort (by decide) rfl rfl (by decide)
  split
  · next h => subst h; exact hshort (by decide) rfl rfl (by decide)
  split
  · next h => subst h; exact hshort (by decide) rfl rfl (by decide)
  split
  · next h => subst h; exact hshort (by decide) rfl rfl (by decide)
  split
  · next h => subst h; exact hshort (by decide) rfl rfl (by decide)
  split
  · next hq hb _ _ _ _ _ h =>
    rw [units, if_pos (by omega)]
    exact readUnits_plain hq hb h.1 cs
  split
  · next h =>
    rw [units, if_pos h]
    exact readUnits_unitEscape h cs
  · next h =>
    have hlt : c.toNat < 0x110000 := by
      rcases isValidChar_toNat c with hc | hc
      · omega
      · exact hc.2
    rw [units, if_neg h]
    dsimp only
    rw [List.append_assoc, readUnits_unitEscape (by omega), readUnits_unitEscape (by omega)]
    cases readUnits cs <;> rfl

lemma readUnits_quoted (cs rest : List Char) :
    readUnits (cs.flatMap escapeChar ++ '"' :: rest) = some (cs.flatMap units, rest) := by
  induction cs with
  | nil => rfl
  | cons c cs ih =>
    rw [List.flatMap_cons, List.append_assoc, readUnits_escapeChar, ih, List.flatMap_cons]
    rfl

namespace Reader

variable (reader : Reader)

lemma charOf_toNat (c : Char) : reader.charOf c.toNat = c := by
  rw [charOf, if_pos (isValidChar_toNat c), Char.ofNat_toNat]

lemma joinUnits_cons_of_low {n : Nat} (h : isHighUnit n = false) (ns : List Nat) :
    reader.joinUnits (n :: ns) = reader.charOf n :: reader.joinUnits ns := by
  cases ns with
  | nil => rfl
  | cons m r => rw [joinUnits, h, Bool.false_and, if_neg (by decide)]

/-- The units of a character join to it. -/
lemma joinUnits_units (c : Char) (ns : List Nat) :
    reader.joinUnits (units c ++ ns) = c :: reader.joinUnits ns := by
  have hvalid := isValidChar_toNat c
  unfold units
  split
  · next h =>
    have hlow : isHighUnit c.toNat = false := by
      simp only [isHighUnit, Bool.and_eq_false_iff, decide_eq_false_iff_not]
      rcases hvalid with hc | hc <;> omega
    rw [List.singleton_append, reader.joinUnits_cons_of_low hlow, charOf_toNat]
  · next h =>
    have hc : 0x10000 ≤ c.toNat ∧ c.toNat < 0x110000 := by
      rcases hvalid with hc | hc <;> omega
    have hhigh : isHighUnit (0xD800 + (c.toNat - 0x10000) / 1024) = true := by
      simp only [isHighUnit, Bool.and_eq_true, decide_eq_true_eq]
      omega
    have hlow : isLowUnit (0xDC00 + (c.toNat - 0x10000) % 1024) = true := by
      simp only [isLowUnit, Bool.and_eq_true, decide_eq_true_eq]
      omega
    have hn : 0x10000 + (0xD800 + (c.toNat - 0x10000) / 1024 - 0xD800) * 1024
        + (0xDC00 + (c.toNat - 0x10000) % 1024 - 0xDC00) = c.toNat := by
      omega
    rw [List.cons_append, List.singleton_append, joinUnits, hhigh, hlow, Bool.and_self, if_pos rfl,
      hn, charOf_toNat]

lemma joinUnits_flatMap_units (cs : List Char) : reader.joinUnits (cs.flatMap units) = cs := by
  induction cs with
  | nil => rfl
  | cons c cs ih => rw [List.flatMap_cons, joinUnits_units, ih]

/-- A string in quotes reads back, after its opening quote. -/
lemma readString_quoted (s : String) (rest : List Char) :
    reader.readString (s.toList.flatMap escapeChar ++ '"' :: rest) = .ok (s, rest) := by
  rw [readString, readUnits_quoted]
  simp only [joinUnits_flatMap_units, String.ofList_toList]

end Reader

end StellarWallet.Json
