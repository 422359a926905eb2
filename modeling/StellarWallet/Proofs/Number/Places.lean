import StellarWallet.Number.Places
import StellarWallet.Proofs.Json.Numeral
import StellarWallet.Proofs.Text.Cuts

/-!
Decimal texts: the integer part in groups of three digits, the places without zeros at the end.

Rounded units of a decimal place are written with all their places. Dropping the zeros at the end
takes them from the places only, and reading the text again without its commas gives the units back.
-/

namespace StellarWallet

variable {cs ds whole part : List Char} {p n : Nat}

def AreDigits (cs : List Char) : Prop := ∀ c ∈ cs, c.isDigit = true

/-- The digits of a whole number, without superfluous zeros in front. -/
structure IsWhole (ds : List Char) : Prop where
  ne_nil : ds ≠ []
  areDigits : AreDigits ds
  head?_zero : ds.head? = some '0' → ds = ['0']

/-- Digits in groups of three with commas between them; the first group may be shorter. -/
def IsGrouped (ds cs : List Char) : Prop :=
  ∃ first groups, ds = first ++ groups.flatten ∧ cs = [','].intercalate (first :: groups) ∧
    first ≠ [] ∧ first.length ≤ 3 ∧ ∀ g ∈ groups, g.length = 3

/-- At most `p` places, the last of them no zero. -/
structure ArePlaces (p : Nat) (ds : List Char) : Prop where
  areDigits : AreDigits ds
  length_le : ds.length ≤ p
  getLast?_ne : ds.getLast? ≠ some '0'

/-- Places after their point, which is not there without them. -/
def pointed (part : List Char) : List Char := if part = [] then [] else '.' :: part

/-- A decimal text with up to `p` places: perhaps a minus sign, a whole number in groups of three
digits, and perhaps places. -/
def IsDecimalText (p : Nat) (cs : List Char) : Prop :=
  ∃ (negative : Bool) (ds whole part : List Char),
    cs = (if negative then ['-'] else []) ++ whole ++ pointed part ∧
      IsWhole ds ∧ IsGrouped ds whole ∧ ArePlaces p part

lemma areDigits_toDigits (n : Nat) : AreDigits (Nat.toDigits 10 n) :=
  fun _ hc => Nat.isDigit_of_mem_toDigits (by decide) (by decide) hc

lemma isWhole_toDigits (n : Nat) : IsWhole (Nat.toDigits 10 n) where
  ne_nil := Nat.toDigits_ne_nil
  areDigits := areDigits_toDigits n
  head?_zero := by
    intro hzero
    obtain ⟨r, hr⟩ := List.head?_eq_some_iff.1 hzero
    by_cases hn : n = 0
    · rw [hn]
      rfl
    · exact absurd rfl (Json.head_toDigits hn '0' r hr)

namespace Binary64

/-! ### Groups -/

/-- The first group has what is left over by groups of three. -/
lemma exists_grouped (hds : ds ≠ []) : ∃ first groups, ds = first ++ groups.flatten ∧
    grouped ds = [','].intercalate (first :: groups) ∧
    first.length = (ds.length - 1) % 3 + 1 ∧ ∀ g ∈ groups, g.length = 3 := by
  induction ds with
  | nil => exact absurd rfl hds
  | cons d r ih =>
    by_cases hr : r = []
    · subst hr
      exact ⟨[d], [], rfl, rfl, rfl, nofun⟩
    · obtain ⟨first, groups, hflat, hgroups, hlength, hthree⟩ := ih hr
      have hpos : 0 < r.length := List.length_pos_of_ne_nil hr
      by_cases hfull : r.length % 3 = 0
      · refine ⟨[d], first :: groups, ?_, ?_, ?_, ?_⟩
        · rw [hflat]
          rfl
        · rw [grouped, if_pos ⟨hfull, hr⟩, hgroups, List.intercalate_cons_cons]
          rfl
        · simp [hfull]
        · have hfirst : first.length = 3 := by omega
          simpa [hfirst] using hthree
      · refine ⟨d :: first, groups, ?_, ?_, ?_, hthree⟩
        · rw [hflat]
          rfl
        · rw [grouped, if_neg fun h => hfull h.1, hgroups]
          cases groups with
          | nil => simp
          | cons g groups => simp [List.intercalate_cons_cons]
        · rw [List.length_cons, List.length_cons]
          omega

lemma isGrouped_grouped (hds : ds ≠ []) : IsGrouped ds (grouped ds) := by
  obtain ⟨first, groups, hflat, hgroups, hlength, hthree⟩ := exists_grouped hds
  refine ⟨first, groups, hflat, hgroups, ?_, by omega, hthree⟩
  rintro rfl
  simp at hlength

end Binary64

lemma AreDigits.filter_eq (h : AreDigits cs) : cs.filter (· ≠ ',') = cs := by
  rw [List.filter_eq_self]
  intro c hc
  have hne : c ≠ ',' := Json.ne_of_isDigit (h c hc) (by decide)
  simpa using hne

/-- Without the commas the digits are left. -/
lemma IsGrouped.filter_eq (h : IsGrouped ds whole) (hds : AreDigits ds) :
    whole.filter (· ≠ ',') = ds := by
  obtain ⟨first, groups, rfl, rfl, -⟩ := h
  have hfirst : AreDigits first := fun c hc => hds c (List.mem_append_left _ hc)
  have hgroups : AreDigits groups.flatten := fun c hc => hds c (List.mem_append_right _ hc)
  clear hds
  induction groups generalizing first with
  | nil => rw [List.intercalate_singleton, hfirst.filter_eq, List.flatten_nil, List.append_nil]
  | cons g groups ih =>
    rw [List.flatten_cons] at hgroups ⊢
    have hg : AreDigits g := fun c hc => hgroups c (List.mem_append_left _ hc)
    have hrest : AreDigits groups.flatten := fun c hc => hgroups c (List.mem_append_right _ hc)
    rw [List.intercalate_cons_cons, List.filter_append, List.filter_append, hfirst.filter_eq,
      ih g hg hrest]
    simp

/-- Only the groups have commas. -/
lemma filter_decimalText (negative : Bool) (hgrouped : IsGrouped ds whole) (hds : AreDigits ds)
    (hpart : AreDigits part) :
    ((if negative then ['-'] else []) ++ whole ++ pointed part).filter (· ≠ ',')
      = (if negative then ['-'] else []) ++ ds ++ pointed part := by
  have hsign : ((if negative then ['-'] else []) : List Char).filter (· ≠ ',')
      = if negative then ['-'] else [] := by
    cases negative <;> rfl
  have hpoint : (pointed part).filter (· ≠ ',') = pointed part := by
    rw [pointed]
    split
    · rfl
    · rw [List.filter_cons_of_pos (by decide), hpart.filter_eq]
  rw [List.filter_append, List.filter_append, hsign, hgrouped.filter_eq hds, hpoint]

lemma IsGrouped.point_notMem (h : IsGrouped ds whole) (hds : AreDigits ds) : '.' ∉ whole := by
  intro hmem
  have hdigit : '.' ∈ whole.filter (· ≠ ',') := List.mem_filter.2 ⟨hmem, by decide⟩
  rw [h.filter_eq hds] at hdigit
  exact absurd (hds _ hdigit) (by decide)

namespace Binary64

/-! ### Places -/

lemma areDigits_replicate_zero (k : Nat) : AreDigits (List.replicate k '0') := by
  intro c hc
  rw [List.eq_of_mem_replicate hc]
  decide

lemma areDigits_padded (p n : Nat) : AreDigits (padded p n) := by
  intro c hc
  rcases List.mem_append.1 hc with hc | hc
  · exact areDigits_replicate_zero _ c hc
  · exact areDigits_toDigits n c hc

lemma length_padded (hp : 0 < p) (hn : n < tenTo p) : (padded p n).length = p := by
  have hlength : (Nat.toDigits 10 n).length ≤ p :=
    (Nat.length_toDigits_le_iff (by decide) hp).2 hn
  rw [padded, List.length_append, List.length_replicate]
  omega

lemma ofDigitChars_padded (p n : Nat) : Nat.ofDigitChars 10 (padded p n) 0 = n := by
  rw [padded, Nat.ofDigitChars_append, Nat.ofDigitChars_replicate_zero, Nat.mul_zero,
    Nat.ofDigitChars_ten_toDigits]

lemma arePlaces_dropEndWhile (h : AreDigits cs) (hlength : cs.length ≤ p) :
    ArePlaces p (Text.dropEndWhile (· = '0') cs) where
  areDigits := fun c hc => h c ((Text.dropEndWhile_prefix _ cs).subset hc)
  length_le := (Text.dropEndWhile_prefix _ cs).length_le.trans hlength
  getLast?_ne := fun hlast => absurd (Text.getLast?_dropEndWhile hlast) (by decide)

lemma dropEndWhile_point (cs part : List Char) : Text.dropEndWhile (· = '0') (cs ++ '.' :: part)
    = cs ++ '.' :: Text.dropEndWhile (· = '0') part := by
  induction part using List.reverseRecOn with
  | nil => exact Text.dropEndWhile_concat _ _ _
  | append_singleton r c ih =>
    rw [← List.cons_append, ← List.append_assoc, Text.dropEndWhile_concat,
      Text.dropEndWhile_concat, ih]
    split
    · rfl
    · rw [List.append_assoc, List.cons_append]

/-- Dropping the zeros at the end takes them from the places only. -/
lemma dropPlaces_append (hcs : '.' ∉ cs) (hpart : AreDigits part) :
    dropPlaces (cs ++ '.' :: part) = cs ++ pointed (Text.dropEndWhile (· = '0') part) := by
  have hkept := (arePlaces_dropEndWhile hpart le_rfl).areDigits
  rw [dropPlaces, if_pos (by simp), dropEndWhile_point]
  rcases List.eq_nil_or_concat (Text.dropEndWhile (· = '0') part) with hnil | ⟨r, c, hconcat⟩
  · have hself : Text.dropEndWhile (· = '.') cs = cs := by
      refine List.rdropWhile_eq_self_iff.2 fun hne hlast => hcs ?_
      exact of_decide_eq_true hlast ▸ List.getLast_mem hne
    rw [hnil, Text.dropEndWhile_concat, if_pos (by decide), hself, pointed, if_pos rfl,
      List.append_nil]
  · rw [List.concat_eq_append] at hconcat
    rw [hconcat] at hkept ⊢
    have hc : c ≠ '.' := Json.ne_of_isDigit (hkept c (by simp)) (by decide)
    rw [← List.cons_append, ← List.append_assoc, Text.dropEndWhile_concat,
      if_neg (by simpa using hc), pointed, if_neg (by simp), List.append_assoc, List.cons_append]

/-- The places of a number, without the zeros at the end, stand for its units. -/
lemma exists_dropPlaces (negative : Bool) (hp : 0 < p) (units : Nat) : ∃ ds whole part,
    dropPlaces ((if negative then ['-'] else []) ++ placesText p units grouped)
        = (if negative then ['-'] else []) ++ whole ++ pointed part ∧
      IsWhole ds ∧ IsGrouped ds whole ∧ ArePlaces p part ∧
      Nat.ofDigitChars 10 ds 0 = units / tenTo p ∧
      Nat.ofDigitChars 10 part 0 * tenTo (p - part.length) = units % tenTo p := by
  have hunits : units % tenTo p < tenTo p := Nat.mod_lt _ (tenTo_pos p)
  have hdigits := areDigits_padded p (units % tenTo p)
  have hlength := length_padded hp hunits
  have hgrouped := isGrouped_grouped (Nat.toDigits_ne_nil (b := 10) (n := units / tenTo p))
  obtain ⟨zeros, hkept, hall⟩ := Text.exists_dropped (· = '0') (padded p (units % tenTo p))
  refine ⟨_, _, _, ?_, isWhole_toDigits _, hgrouped, arePlaces_dropEndWhile hdigits hlength.le,
    Nat.ofDigitChars_ten_toDigits, ?_⟩
  · have hpoint : '.' ∉ (if negative then ['-'] else []) ++
        grouped (Nat.toDigits 10 (units / tenTo p)) := by
      have := hgrouped.point_notMem (areDigits_toDigits _)
      cases negative <;> simpa using this
    rw [placesText, if_neg hp.ne', ← List.append_assoc, dropPlaces_append hpoint hdigits]
  · have hvalue := ofDigitChars_padded p (units % tenTo p)
    have hzeros : zeros = List.replicate zeros.length '0' :=
      List.eq_replicate_of_mem fun c hc => of_decide_eq_true (hall c hc)
    have hcount := congrArg List.length hkept
    rw [hlength, List.length_append] at hcount
    rw [hkept, Nat.ofDigitChars_append, hzeros, Nat.ofDigitChars_replicate_zero] at hvalue
    have hleft : p - (Text.dropEndWhile (fun c => decide (c = '0'))
        (padded p (units % tenTo p))).length = zeros.length := by omega
    rw [hleft, Nat.mul_comm]
    exact hvalue

end Binary64

/-! ### Reading the text -/

namespace Numeral

lemma takeSign_eq (negative : Bool) (hds : IsWhole ds) (cs : List Char) :
    takeSign ((if negative then ['-'] else []) ++ ds ++ cs) = (negative, ds ++ cs) := by
  cases negative with
  | true => rfl
  | false =>
    obtain ⟨c, r, rfl⟩ := List.exists_cons_of_ne_nil hds.ne_nil
    have hc : c.isDigit = true := hds.areDigits c List.mem_cons_self
    have hminus : c ≠ '-' := Json.ne_of_isDigit hc (by decide)
    have hplus : c ≠ '+' := Json.ne_of_isDigit hc (by decide)
    change takeSign (c :: (r ++ cs)) = (false, c :: (r ++ cs))
    unfold takeSign
    split
    · next h => exact absurd (List.cons.inj h).1 hminus
    · next h => exact absurd (List.cons.inj h).1 hplus
    · rfl

/-- Digits are taken up to the first character that is none. -/
lemma takeDigits_eq (hds : AreDigits ds) {cs : List Char}
    (hcs : ∀ c ∈ cs.head?, c.isDigit = false) :
    takeDigits (ds ++ cs) = (Nat.ofDigitChars 10 ds 0, ds.length, cs) := by
  have hend : cs.takeWhile Char.isDigit = [] ∧ cs.dropWhile Char.isDigit = cs := by
    cases cs with
    | nil => exact ⟨rfl, rfl⟩
    | cons c r =>
      have hc : ¬ c.isDigit = true := by simpa using hcs c rfl
      exact ⟨List.takeWhile_cons_of_neg hc, List.dropWhile_cons_of_neg hc⟩
  rw [takeDigits, List.takeWhile_append_of_pos hds, List.dropWhile_append_of_pos hds, hend.1,
    hend.2, List.append_nil]

/-- A text of a sign, digits and places is read for what it says. -/
lemma ofDecimal?_eq (negative : Bool) (hds : IsWhole ds) (hpart : AreDigits part) :
    ofDecimal? ((if negative then ['-'] else []) ++ ds ++ pointed part)
      = some ⟨negative, Nat.ofDigitChars 10 ds 0 * tenTo part.length + Nat.ofDigitChars 10 part 0,
        ds.length + part.length, -part.length⟩ := by
  have hcount : ds.length + part.length ≠ 0 := by
    have hpos : 0 < ds.length := List.length_pos_of_ne_nil hds.ne_nil
    omega
  have hplaces : (takePlaces (pointed part)).getD (0, 0, pointed part)
      = (Nat.ofDigitChars 10 part 0, part.length, []) := by
    rw [pointed]
    split
    · next h =>
      subst h
      rfl
    · have hread : takeDigits (part ++ []) = (Nat.ofDigitChars 10 part 0, part.length, []) :=
        takeDigits_eq hpart (by simp)
      rw [List.append_nil] at hread
      exact hread
  have hpoint : ∀ c ∈ (pointed part).head?, c.isDigit = false := by
    rw [pointed]
    split
    · simp
    · rintro c ⟨⟩
      decide
  unfold ofDecimal?
  rw [takeSign_eq negative hds]
  dsimp only
  rw [takeDigits_eq hds.areDigits hpoint]
  dsimp only
  rw [hplaces]
  dsimp only
  rw [if_neg hcount]
  simp [takeExponent]

end Numeral

end StellarWallet
