import StellarWallet.Balance.Amount
import StellarWallet.Proofs.Number.Places
import StellarWallet.Proofs.Number.Rounding

/-!
The text of an amount says what the amount is.

It is a decimal text with up to seven places. Without its commas it is read as the amount, rounded
to seven places.
-/

namespace StellarWallet

/-- The exact value of a numeral. -/
def Numeral.toRat (n : Numeral) : ℚ := signed n.negative (n.coefficient * (10 : ℚ) ^ n.exponent)

namespace Amount

/-- A whole number and places, put together, are the units of the last place that could stand. -/
lemma coefficient_mul (whole part units : Nat) {k p : Nat} (hk : k ≤ p)
    (hwhole : whole = units / tenTo p) (hpart : part * tenTo (p - k) = units % tenTo p) :
    ((whole * tenTo k + part : ℕ) : ℚ) * (10 : ℚ) ^ (-(k : ℤ)) = units / 10 ^ p := by
  have hpow : tenTo k * tenTo (p - k) = tenTo p := by
    rw [tenTo, tenTo, tenTo, Nat.pow_eq, Nat.pow_eq, Nat.pow_eq, ← pow_add, Nat.add_sub_cancel' hk]
  have hunits : (whole * tenTo k + part) * tenTo (p - k) = units := by
    rw [Nat.add_mul, Nat.mul_assoc, hpow, hpart, hwhole, Nat.div_add_mod']
  have hcast : ((whole * tenTo k + part : ℕ) : ℚ) * 10 ^ (p - k) = units := by
    rw [← hunits, Nat.cast_mul, tenTo, tenTo, Nat.pow_eq, Nat.pow_eq]
    push_cast
    rfl
  have hten : (10 : ℚ) ^ p = 10 ^ k * 10 ^ (p - k) := by
    rw [← pow_add, Nat.add_sub_cancel' hk]
  rw [← hcast, hten, zpow_neg, zpow_natCast]
  field_simp

/-- The text of a finite number stands for its rounded units. -/
lemma text_finite (negative : Bool) (m : Nat) (q : Int) (h : Binary64.IsCanonical m q) :
    IsDecimalText 7 (text (.finite negative m q h)).toList ∧ ∃ n : Numeral,
      Numeral.ofDecimal? ((text (.finite negative m q h)).toList.filter (· ≠ ',')) = some n ∧
        n.toRat = ((signed negative (Binary64.unitsAt 7 m q : ℤ) : ℤ) : ℚ) / 10 ^ 7 := by
  obtain ⟨ds, whole, part, htext, hds, hgrouped, hpart, hwhole, hunits⟩ :=
    Binary64.exists_dropPlaces negative (p := 7) (by decide) (Binary64.unitsAt 7 m q)
  have hcs : (text (.finite negative m q h)).toList
      = (if negative then ['-'] else []) ++ whole ++ pointed part := by
    rw [text, String.toList_ofList]
    exact htext
  rw [hcs, filter_decimalText negative hgrouped hds.areDigits hpart.areDigits]
  refine ⟨⟨negative, ds, whole, part, rfl, hds, hgrouped, hpart⟩, _,
    Numeral.ofDecimal?_eq negative hds hpart.areDigits, ?_⟩
  have hvalue := coefficient_mul _ _ _ hpart.length_le hwhole hunits
  rw [Numeral.toRat]
  dsimp only
  rw [hvalue]
  cases negative with
  | false => simp [signed]
  | true => simp [signed, neg_div]

/-- **The text of an amount denotes it.** A finite amount, or a whole one of at most 2^53, has a
text of perhaps a minus sign, a whole number without superfluous zeros in groups of three digits,
and perhaps a point and up to seven places, the last of them no zero. Without its commas it is read
as the amount rounded to seven places, a half to the even neighbour. -/
theorem text_denotes_amount {a : Number} {x : ℚ} (h : a.Denotes x) :
    ∃ s, numberText a = .ok s ∧ IsDecimalText 7 s.toList ∧ ∃ (n : Numeral) (k : ℤ),
      Numeral.ofDecimal? (s.toList.filter (· ≠ ',')) = some n ∧ n.toRat = k / 10 ^ 7 ∧
        RoundsTo (x * 10 ^ 7) k := by
  obtain ⟨negative, m, q, hc, ha, rfl⟩ := h.exists_toBinary64
  obtain ⟨hdecimal, n, hread, hvalue⟩ := text_finite negative m q hc
  have hround := (Binary64.roundsTo_unitsAt 7 m q).signed negative
  have hscale : signed negative (m * (2 : ℚ) ^ q) * 10 ^ 7
      = signed negative (m * (2 : ℚ) ^ q * 10 ^ 7) := by
    cases negative with
    | false => rfl
    | true => exact neg_mul _ _
  refine ⟨_, by rw [numberText, ha]; rfl, hdecimal, n, _, hread, hvalue, ?_⟩
  rw [hscale]
  exact hround

/-- A million keeps its zeros. -/
theorem million_keeps_its_zeros : numberText (.whole 1000000) = .ok "1,000,000" ∧
    ∃ (n : Numeral) (k : ℤ), Numeral.ofDecimal? "1000000".toList = some n ∧
      n.toRat = k / 10 ^ 7 ∧ RoundsTo (((1000000 : ℤ) : ℚ) * 10 ^ 7) k := by
  obtain ⟨s, hs, -, n, k, hread, hvalue, hround⟩ :=
    text_denotes_amount (Number.Denotes.whole 1000000 (by decide))
  have htext : numberText (.whole 1000000) = .ok "1,000,000" := by decide +kernel
  obtain rfl : "1,000,000" = s := Except.ok.inj (htext.symm.trans hs)
  exact ⟨htext, n, k, hread, hvalue, hround⟩

end Amount

end StellarWallet
