import StellarWallet.Proofs.Json.Reading
import StellarWallet.Proofs.Number.Places
import StellarWallet.Proofs.Number.Rounding

/-!
How numerals are spelled.

A numeral is perhaps a sign, then digits with perhaps a point among or around them, and perhaps an
exponent. A text that people type is one as soon as the blanks around it are gone, its digits are
ASCII and its underscores, each alone between two digits, are left out. Such a text is read as the
numeral that it spells, and no other is read as a finite number.
-/

namespace StellarWallet

namespace Numeral

/-! ### The spelling -/

/-- A sign, or nothing. -/
inductive IsSign : List Char → Bool → Prop where
  | none : IsSign [] false
  | plus : IsSign ['+'] false
  | minus : IsSign ['-'] true

/-- A point and the digits after it, or nothing. -/
inductive IsFraction : List Char → List Char → Prop where
  | none : IsFraction [] []
  | point {ps : List Char} (h : AreDigits ps) : IsFraction ('.' :: ps) ps

/-- A letter, perhaps a sign, and a whole number, or nothing. -/
inductive IsExponent : List Char → Int → Prop where
  | none : IsExponent [] 0
  | letter {c : Char} {sign ds : List Char} {negative : Bool} (hc : c = 'e' ∨ c = 'E')
      (hsign : IsSign sign negative) (hds : AreDigits ds) (hne : ds ≠ []) :
    IsExponent (c :: (sign ++ ds)) (signed negative (Nat.ofDigitChars 10 ds 0 : Int))

/-- The text spells a numeral: its digits without the point, moved by the exponent. -/
inductive Spells : List Char → Numeral → Prop where
  | mk {sign ds fraction ps exponent : List Char} {negative : Bool} {e : Int}
      (hsign : IsSign sign negative) (hds : AreDigits ds) (hfraction : IsFraction fraction ps)
      (hne : ds ++ ps ≠ []) (hexponent : IsExponent exponent e) :
    Spells (sign ++ (ds ++ (fraction ++ exponent)))
      ⟨negative, Nat.ofDigitChars 10 (ds ++ ps) 0, (ds ++ ps).length, e - ps.length⟩

variable {cs ds ps rest sign fraction exponent : List Char} {negative : Bool} {value count : Nat}
  {e : Int} {n : Numeral}

lemma IsFraction.areDigits (h : IsFraction fraction ps) : AreDigits ps := by
  cases h with
  | none => exact fun c hc => by cases hc
  | point h => exact h

lemma IsExponent.not_isDigit (h : IsExponent exponent e) :
    ∀ c ∈ exponent.head?, c.isDigit = false ∧ c ≠ '.' := by
  cases h with
  | none => exact fun c hc => by cases hc
  | letter hc =>
    rintro _ ⟨⟩
    rcases hc with rfl | rfl <;> decide

/-! ### The parts of a text -/

lemma isSign_of_takeSign (h : takeSign cs = (negative, rest)) :
    ∃ sign, IsSign sign negative ∧ cs = sign ++ rest := by
  unfold takeSign at h
  split at h
  · cases h
    exact ⟨_, .minus, rfl⟩
  · cases h
    exact ⟨_, .plus, rfl⟩
  · cases h
    exact ⟨_, .none, rfl⟩

lemma takeSign_of_isSign (h : IsSign sign negative)
    (hcs : ∀ c ∈ cs.head?, c ≠ '-' ∧ c ≠ '+') : takeSign (sign ++ cs) = (negative, cs) := by
  cases h with
  | plus => rfl
  | minus => rfl
  | none =>
    rw [List.nil_append]
    unfold takeSign
    split
    · exact absurd rfl (hcs _ rfl).1
    · exact absurd rfl (hcs _ rfl).2
    · rfl

lemma areDigits_of_takeDigits (h : takeDigits cs = (value, count, rest)) : ∃ ds, AreDigits ds ∧
    cs = ds ++ rest ∧ value = Nat.ofDigitChars 10 ds 0 ∧ count = ds.length := by
  cases h
  exact ⟨cs.takeWhile Char.isDigit, fun _ hc => List.mem_takeWhile_imp hc,
    List.takeWhile_append_dropWhile.symm, rfl, rfl⟩

lemma isFraction_of_takePlaces (h : (takePlaces cs).getD (0, 0, cs) = (value, count, rest)) :
    ∃ fraction ps, IsFraction fraction ps ∧ cs = fraction ++ rest ∧
      value = Nat.ofDigitChars 10 ps 0 ∧ count = ps.length := by
  unfold takePlaces at h
  split at h
  · next r =>
    obtain ⟨ps, hps, hr, hvalue, hcount⟩ := areDigits_of_takeDigits h
    exact ⟨_, ps, .point hps, congrArg _ hr, hvalue, hcount⟩
  · cases h
    exact ⟨_, _, .none, rfl, rfl, rfl⟩

lemma takePlaces_of_isFraction (h : IsFraction fraction ps)
    (hexponent : ∀ c ∈ exponent.head?, c.isDigit = false ∧ c ≠ '.') :
    (takePlaces (fraction ++ exponent)).getD (0, 0, fraction ++ exponent)
      = (Nat.ofDigitChars 10 ps 0, ps.length, exponent) := by
  cases h with
  | point hps => exact takeDigits_eq hps fun c hc => (hexponent c hc).1
  | none =>
    rw [List.nil_append]
    unfold takePlaces
    split
    · exact absurd rfl (hexponent _ rfl).2
    · rfl

lemma isExponent_of_takeExponent (h : takeExponent cs = (e, [])) : IsExponent cs e := by
  unfold takeExponent at h
  split at h
  · next c r =>
    split at h
    · next hc =>
      rcases hr : takeSign r with ⟨negative, r'⟩
      rw [hr] at h
      dsimp only at h
      obtain ⟨sign, hsign, rfl⟩ := isSign_of_takeSign hr
      split at h
      · cases h
      · next m k rest hk hread =>
        obtain ⟨ds, hds, rfl, rfl, rfl⟩ := areDigits_of_takeDigits hread
        cases h
        rw [List.append_nil]
        refine .letter (by simpa using hc) hsign hds ?_
        rintro rfl
        exact hk rfl
    · cases h
  · cases h
    exact .none

lemma takeExponent_of_isExponent (h : IsExponent exponent e) : takeExponent exponent = (e, []) := by
  cases h with
  | none => rfl
  | @letter c sign ds negative hc hsign hds hne =>
    obtain ⟨d, r, rfl⟩ := List.exists_cons_of_ne_nil hne
    have hd : d.isDigit = true := hds d List.mem_cons_self
    have hsigned : takeSign (sign ++ (d :: r)) = (negative, d :: r) := by
      refine takeSign_of_isSign hsign ?_
      rintro _ ⟨⟩
      exact ⟨Json.ne_of_isDigit hd (by decide), Json.ne_of_isDigit hd (by decide)⟩
    have hread : takeDigits (d :: r ++ []) = _ := takeDigits_eq hds fun c hc => by cases hc
    rw [List.append_nil] at hread
    have hletter : (decide (c = 'e') || decide (c = 'E')) = true := by simpa using hc
    rw [takeExponent, if_pos hletter]
    dsimp only
    rw [hsigned, hread]
    rfl

/-! ### Reading a text -/

lemma coefficient_append (ds ps : List Char) :
    Nat.ofDigitChars 10 ds 0 * tenTo ps.length + Nat.ofDigitChars 10 ps 0
      = Nat.ofDigitChars 10 (ds ++ ps) 0 := by
  rw [Nat.ofDigitChars_append,
    @Nat.ofDigitChars_eq_ofDigitChars_zero ps (Nat.ofDigitChars 10 ds 0), Nat.mul_comm]
  rfl

lemma spells_of_ofDecimal? (h : ofDecimal? cs = some n) : Spells cs n := by
  unfold ofDecimal? at h
  rcases hs : takeSign cs with ⟨negative, r₁⟩
  rcases hw : takeDigits r₁ with ⟨whole, wholeCount, r₂⟩
  rcases hp : (takePlaces r₂).getD (0, 0, r₂) with ⟨part, partCount, r₃⟩
  rcases he : takeExponent r₃ with ⟨e, r₄⟩
  simp only [hs, hw, hp, he] at h
  obtain ⟨sign, hsign, rfl⟩ := isSign_of_takeSign hs
  obtain ⟨ds, hds, rfl, rfl, rfl⟩ := areDigits_of_takeDigits hw
  obtain ⟨fraction, ps, hfraction, rfl, rfl, rfl⟩ := isFraction_of_takePlaces hp
  split at h
  · cases h
  · next hcount =>
    split at h
    · next hend =>
      cases h
      rw [List.isEmpty_iff.1 hend] at he
      rw [coefficient_append, ← List.length_append]
      refine .mk hsign hds hfraction ?_ (isExponent_of_takeExponent he)
      rw [← List.length_append, List.length_eq_zero_iff] at hcount
      exact hcount
    · cases h

lemma IsFraction.head_append (h : IsFraction fraction ps) (hexponent : IsExponent exponent e) :
    ∀ c ∈ (fraction ++ exponent).head?, c.isDigit = false := by
  cases h with
  | none => exact fun c hc => (hexponent.not_isDigit c hc).1
  | point h =>
    rintro _ ⟨⟩
    decide

lemma head_of_digits (hds : AreDigits ds) (hfraction : IsFraction fraction ps)
    (hne : ds ++ ps ≠ []) (rest : List Char) :
    ∀ c ∈ (ds ++ (fraction ++ rest)).head?, c ≠ '-' ∧ c ≠ '+' := by
  cases ds with
  | cons d r =>
    rintro _ ⟨⟩
    have hd : d.isDigit = true := hds d List.mem_cons_self
    exact ⟨Json.ne_of_isDigit hd (by decide), Json.ne_of_isDigit hd (by decide)⟩
  | nil =>
    cases hfraction with
    | none => exact absurd rfl hne
    | point _ =>
      rintro _ ⟨⟩
      decide

lemma ofDecimal?_of_spells (h : Spells cs n) : ofDecimal? cs = some n := by
  cases h with
  | @mk sign ds fraction ps exponent negative e hsign hds hfraction hne hexponent =>
    have hcount : ds.length + ps.length ≠ 0 := by
      rw [← List.length_append]
      exact fun hzero => hne (List.length_eq_zero_iff.1 hzero)
    unfold ofDecimal?
    rw [takeSign_of_isSign hsign (head_of_digits hds hfraction hne exponent)]
    dsimp only
    rw [takeDigits_eq hds (hfraction.head_append hexponent)]
    dsimp only
    rw [takePlaces_of_isFraction hfraction hexponent.not_isDigit]
    dsimp only
    rw [if_neg hcount, takeExponent_of_isExponent hexponent, coefficient_append,
      List.length_append]
    rfl

lemma Spells.coefficient_lt (h : Spells cs n) : n.coefficient < 10 ^ n.written := by
  cases h with
  | mk hsign hds hfraction hne hexponent =>
    refine Json.ofDigitChars_lt fun c hc => ?_
    rcases List.mem_append.1 hc with hc | hc
    · exact hds c hc
    · exact hfraction.areDigits c hc

/-! ### Underscores -/

/-- Underscores stand alone, each between two digits; what comes before the text may be a digit. -/
def AreBetweenDigits (afterDigit : Bool) (cs : List Char) : Prop :=
  ∀ before after, cs = before ++ '_' :: after →
    (before.getLast?.map Char.isDigit).getD afterDigit = true ∧
      ∃ c ∈ after.head?, c.isDigit = true

lemma areBetweenDigits_cons (afterDigit : Bool) (c : Char) (cs : List Char) :
    AreBetweenDigits afterDigit (c :: cs) ↔
      (c = '_' → afterDigit = true ∧ ∃ d ∈ cs.head?, d.isDigit = true) ∧
        AreBetweenDigits c.isDigit cs := by
  have hlast (before : List Char) : (((c :: before).getLast?).map Char.isDigit).getD afterDigit
      = (before.getLast?.map Char.isDigit).getD c.isDigit := by
    rw [List.getLast?_cons]
    cases before.getLast? <;> rfl
  constructor
  · intro h
    refine ⟨?_, fun before after hcs => ?_⟩
    · rintro rfl
      exact h [] cs rfl
    · rw [← hlast]
      exact h (c :: before) after (congrArg (c :: ·) hcs)
  · rintro ⟨hfirst, hrest⟩ before after hcs
    cases before with
    | nil =>
      cases hcs
      exact hfirst rfl
    | cons b before =>
      obtain ⟨rfl, hrest'⟩ := List.cons.inj hcs
      rw [hlast]
      exact hrest before after hrest'

lemma map_cons_eq_some_iff {r? : Option (List Char)} {P : Prop} (c : Char)
    (h : ∀ ds, r? = some ds ↔ P ∧ ds = cs) : r?.map (c :: ·) = some ds ↔ P ∧ ds = c :: cs := by
  rw [Option.map_eq_some_iff]
  constructor
  · rintro ⟨a, ha, rfl⟩
    obtain ⟨hP, rfl⟩ := (h a).1 ha
    exact ⟨hP, rfl⟩
  · rintro ⟨hP, rfl⟩
    exact ⟨cs, (h cs).2 ⟨hP, rfl⟩, rfl⟩

/-- Just the texts whose underscores stand between digits are read on, without them. -/
lemma dropUnderscores_eq_some_iff (afterDigit : Bool) (cs ds : List Char) :
    dropUnderscores afterDigit cs = some ds ↔
      AreBetweenDigits afterDigit cs ∧ ds = cs.filter (· ≠ '_') := by
  induction afterDigit, cs using dropUnderscores.induct generalizing ds with
  | case1 afterDigit =>
    have hnone : AreBetweenDigits afterDigit [] := fun before after h => by
      cases before <;> cases h
    rw [dropUnderscores, Option.some_inj, eq_comm]
    exact (and_iff_right hnone).symm
  | case2 afterDigit =>
    rw [dropUnderscores, areBetweenDigits_cons]
    refine iff_of_false nofun ?_
    rintro ⟨⟨hlast, -⟩, -⟩
    obtain ⟨-, d, hd, -⟩ := hlast rfl
    cases hd
  | case3 afterDigit d r h ih =>
    obtain ⟨hafter, hd⟩ := Bool.and_eq_true_iff.1 h
    have hne : d ≠ '_' := Json.ne_of_isDigit hd (by decide)
    have hbetween : AreBetweenDigits afterDigit ('_' :: d :: r) ↔ AreBetweenDigits true r := by
      rw [areBetweenDigits_cons, areBetweenDigits_cons, hd]
      exact ⟨fun h => h.2.2, fun h => ⟨fun _ => ⟨hafter, d, rfl, hd⟩, fun hc => absurd hc hne, h⟩⟩
    rw [dropUnderscores, if_pos h, hbetween, List.filter_cons_of_neg (by decide),
      List.filter_cons_of_pos (by simpa using hne)]
    exact map_cons_eq_some_iff d ih
  | case4 afterDigit d r h =>
    rw [dropUnderscores, if_neg h, areBetweenDigits_cons]
    refine iff_of_false nofun ?_
    rintro ⟨⟨hfirst, -⟩, -⟩
    obtain ⟨hafter, _, ⟨⟩, hd⟩ := hfirst rfl
    exact h (Bool.and_eq_true_iff.2 ⟨hafter, hd⟩)
  | case5 afterDigit c r hlone hpair ih =>
    have hne : c ≠ '_' := by
      rintro rfl
      cases r with
      | nil => exact hlone rfl rfl
      | cons d r => exact hpair d r rfl rfl
    have hread : dropUnderscores afterDigit (c :: r)
        = (dropUnderscores c.isDigit r).map (c :: ·) := by
      rw [dropUnderscores]
      · exact hlone
      · exact hpair
    have hbetween : AreBetweenDigits afterDigit (c :: r) ↔ AreBetweenDigits c.isDigit r := by
      rw [areBetweenDigits_cons]
      exact and_iff_right fun hc => absurd hc hne
    rw [hread, hbetween, List.filter_cons_of_pos (by simpa using hne)]
    exact map_cons_eq_some_iff c ih

/-! ### What people type -/

/-- The text, as people type it, spells a numeral. -/
def IsTyped (cs : List Char) (n : Numeral) : Prop :=
  AreBetweenDigits false (normalize cs) ∧ Spells ((normalize cs).filter (· ≠ '_')) n

lemma Spells.exists_isDigit (h : Spells cs n) : ∃ d ∈ cs, d.isDigit = true := by
  cases h with
  | @mk sign ds fraction ps exponent negative e hsign hds hfraction hne hexponent =>
    obtain ⟨d, r, hd⟩ := List.exists_cons_of_ne_nil hne
    have hmem : d ∈ ds ++ ps := hd ▸ List.mem_cons_self
    rcases List.mem_append.1 hmem with hmem | hmem
    · exact ⟨d, by simp [hmem], hds d hmem⟩
    · refine ⟨d, ?_, hfraction.areDigits d hmem⟩
      cases hfraction with
      | none => cases hmem
      | point _ => simp [hmem]

lemma toLower_of_isDigit {d : Char} (h : d.isDigit = true) : d.toLower = d := by
  have hhigh : d.toNat ≤ 57 := (Char.isDigit_iff_toNat.1 h).2
  refine dif_neg fun hupper => ?_
  have hlow : 65 ≤ d.toNat := hupper.1
  omega

/-- A word for what is not finite has no digit. -/
lemma ofWord?_of_isDigit {d : Char} (hmem : d ∈ cs) (hd : d.isDigit = true) :
    ofWord? cs = none := by
  rcases hs : takeSign cs with ⟨negative, r⟩
  obtain ⟨sign, hsign, rfl⟩ := isSign_of_takeSign hs
  have hr : d ∈ r.map Char.toLower := by
    refine List.mem_map.2 ⟨d, ?_, toLower_of_isDigit hd⟩
    rcases List.mem_append.1 hmem with hmem | hmem
    · cases hsign with
      | none => cases hmem
      | plus => cases List.mem_singleton.1 hmem; cases hd
      | minus => cases List.mem_singleton.1 hmem; cases hd
    · exact hmem
  have hword : ∀ word : List Char, word.any Char.isDigit = false → r.map Char.toLower ≠ word := by
    rintro word hletters rfl
    exact List.any_eq_false.1 hletters d hr hd
  simp only [ofWord?, hs]
  have hinf := hword "inf".toList rfl
  have hinfinity := hword "infinity".toList rfl
  have hnan := hword "nan".toList rfl
  rw [if_neg, if_neg hnan]
  rw [Bool.or_eq_true_iff, decide_eq_true_iff, decide_eq_true_iff]
  exact not_or.2 ⟨hinf, hinfinity⟩

lemma isFinite_of_ofWord? {x : Binary64} (h : ofWord? cs = some x) : x.isFinite = false := by
  unfold ofWord? at h
  dsimp only at h
  split at h
  · cases h
    rfl
  · split at h
    · cases h
      rfl
    · cases h

lemma read?_of_isTyped (h : IsTyped cs n) : read? cs = some n.toBinary64 := by
  obtain ⟨hbetween, hspells⟩ := h
  obtain ⟨d, hmem, hd⟩ := hspells.exists_isDigit
  have hword : ofWord? (normalize cs) = none :=
    ofWord?_of_isDigit (List.mem_of_mem_filter hmem) hd
  have hdrop := (dropUnderscores_eq_some_iff false (normalize cs) _).2 ⟨hbetween, rfl⟩
  simp only [read?, hword, hdrop, Option.bind_some, ofDecimal?_of_spells hspells, Option.map_some]

lemma isTyped_of_read? {x : Binary64} (h : read? cs = some x) (hfinite : x.isFinite = true) :
    ∃ n, IsTyped cs n ∧ x = n.toBinary64 := by
  unfold read? at h
  dsimp only at h
  split at h
  · next y hy =>
    cases h
    cases hfinite.symm.trans (isFinite_of_ofWord? hy)
  · obtain ⟨ds, hdrop, hread⟩ := Option.bind_eq_some_iff.1 h
    obtain ⟨n, hn, rfl⟩ := Option.map_eq_some_iff.1 hread
    obtain ⟨hbetween, rfl⟩ := (dropUnderscores_eq_some_iff false (normalize cs) ds).1 hdrop
    exact ⟨n, ⟨hbetween, spells_of_ofDecimal? hn⟩, rfl⟩

end Numeral

end StellarWallet
