import StellarWallet.Proofs.Text.Utf8
import StellarWallet.Url.Percent

/-!
What a percent-encoded segment is made of, and that it is read back.

A segment holds unreserved characters and escapes of two capital digits only, so none of the
characters that divide a link; and its text is the one that was encoded.
-/

namespace StellarWallet.Percent

/-- A character that a segment shows as it is. -/
def IsUnreserved (c : Char) : Prop :=
  c.isAlphanum = true ∨ c = '_' ∨ c = '.' ∨ c = '-' ∨ c = '~'

/-- A capital hexadecimal digit. -/
def IsCapitalHex (c : Char) : Prop := ('0' ≤ c ∧ c ≤ '9') ∨ ('A' ≤ c ∧ c ≤ 'F')

instance (c : Char) : Decidable (IsUnreserved c) := inferInstanceAs (Decidable (_ ∨ _))

instance (c : Char) : Decidable (IsCapitalHex c) := inferInstanceAs (Decidable (_ ∨ _))

/-- Unreserved characters and escapes. -/
inductive IsSegment : List Char → Prop where
  | nil : IsSegment []
  | plain {c : Char} {r : List Char} (hc : IsUnreserved c) (hr : IsSegment r) : IsSegment (c :: r)
  | escape {a b : Char} {r : List Char} (ha : IsCapitalHex a) (hb : IsCapitalHex b)
      (hr : IsSegment r) : IsSegment ('%' :: a :: b :: r)

lemma isCapitalHex_hexDigit {n : Nat} (h : n < 16) : IsCapitalHex (hexDigit n) := by
  have hall : ∀ m < 16, IsCapitalHex (hexDigit m) := by decide
  exact hall n h

lemma hexValue?_hexDigit {n : Nat} (h : n < 16) : hexValue? (hexDigit n) = some n := by
  have hall : ∀ m < 16, hexValue? (hexDigit m) = some m := by decide
  exact hall n h

lemma div_lt (b : UInt8) : b.toNat / 16 < 16 := by
  have : b.toNat < 256 := b.toNat_lt
  omega

lemma mod_lt (b : UInt8) : b.toNat % 16 < 16 := Nat.mod_lt _ (by decide)

lemma isPlain_iff {b : UInt8} :
    isPlain b = true ↔ b.toNat < 128 ∧ IsUnreserved (Char.ofNat b.toNat) := by
  simp [isPlain, IsUnreserved, or_assoc]

/-! ### What a segment is made of -/

lemma IsSegment.append {s t : List Char} (hs : IsSegment s) (ht : IsSegment t) :
    IsSegment (s ++ t) := by
  induction hs with
  | nil => exact ht
  | plain hc _ ih => exact .plain hc ih
  | escape ha hb _ ih => exact .escape ha hb ih

lemma isSegment_encodeByte (b : UInt8) : IsSegment (encodeByte b) := by
  unfold encodeByte
  split
  · next h => exact .plain (isPlain_iff.1 h).2 .nil
  · exact .escape (isCapitalHex_hexDigit (div_lt b)) (isCapitalHex_hexDigit (mod_lt b)) .nil

/-- What a text is encoded as is a segment. -/
lemma isSegment_encode (cs : List Char) : IsSegment (encode cs) := by
  unfold encode
  induction Utf8.encode cs with
  | nil => exact .nil
  | cons b bs ih =>
    rw [List.flatMap_cons]
    exact (isSegment_encodeByte b).append ih

/-- A character that a segment may hold. -/
def IsSegmentChar (c : Char) : Prop := IsUnreserved c ∨ c = '%'

instance (c : Char) : Decidable (IsSegmentChar c) := inferInstanceAs (Decidable (_ ∨ _))

lemma IsCapitalHex.isUnreserved {c : Char} (h : IsCapitalHex c) : IsUnreserved c := by
  left
  rcases h with ⟨hl, hu⟩ | ⟨hl, hu⟩
  · have hdigit : c.isDigit = true := Char.isDigit_iff_toNat.2 ⟨hl, hu⟩
    simp [Char.isAlphanum, hdigit]
  · have hupper : c.isUpper = true := decide_eq_true ⟨hl, Nat.le_trans hu (by decide)⟩
    have halpha : c.isAlpha = true := Bool.or_eq_true_iff.2 (Or.inl hupper)
    simp [Char.isAlphanum, halpha]

lemma IsSegment.isSegmentChar {s : List Char} (h : IsSegment s) : ∀ c ∈ s, IsSegmentChar c := by
  induction h with
  | nil => simp
  | plain hc _ ih => exact List.forall_mem_cons.2 ⟨Or.inl hc, ih⟩
  | escape ha hb _ ih =>
    refine List.forall_mem_cons.2 ⟨Or.inr rfl, List.forall_mem_cons.2 ⟨?_, ?_⟩⟩
    · exact Or.inl ha.isUnreserved
    · exact List.forall_mem_cons.2 ⟨Or.inl hb.isUnreserved, ih⟩

/-- A segment holds no character that is not allowed in one. -/
lemma IsSegment.not_mem {s : List Char} (h : IsSegment s) {c : Char} (hc : ¬ IsSegmentChar c) :
    c ∉ s := fun hs => hc (h.isSegmentChar c hs)

/-! ### Reading a segment back -/

/-- What a byte is encoded as is read as the byte. -/
lemma decodeBytes_encodeByte (b : UInt8) (cs : List Char) :
    decodeBytes (encodeByte b ++ cs) = (decodeBytes cs).map (b :: ·) := by
  have hlt : b.toNat < 256 := b.toNat_lt
  unfold encodeByte
  split
  · next h =>
    obtain ⟨hascii, hplain⟩ := isPlain_iff.1 h
    have hcode : (Char.ofNat b.toNat).toNat = b.toNat := by
      rw [Char.ofNat, dif_pos (Or.inl (by omega))]
      rfl
    have hne : Char.ofNat b.toNat ≠ '%' := by
      intro he
      rw [he] at hplain
      exact absurd hplain (by decide)
    rw [List.singleton_append, decodeBytes, if_pos (by omega), hcode, UInt8.ofNat_toNat]
    intro _ _ _ he
    exact absurd he hne
  · have hvalue : UInt8.ofNat (16 * (b.toNat / 16) + b.toNat % 16) = b := by
      rw [Nat.div_add_mod, UInt8.ofNat_toNat]
    rw [List.cons_append, List.cons_append, List.singleton_append, decodeBytes,
      hexValue?_hexDigit (div_lt b), hexValue?_hexDigit (mod_lt b)]
    simp only [Option.bind_eq_bind, Option.bind_some, hvalue]
    cases decodeBytes cs <;> rfl

lemma decodeBytes_flatMap (bs : List UInt8) :
    decodeBytes (bs.flatMap encodeByte) = some bs := by
  induction bs with
  | nil => rfl
  | cons b bs ih => rw [List.flatMap_cons, decodeBytes_encodeByte, ih, Option.map_some]

/-- Every text is read back from its segment. -/
lemma decode_encode (cs : List Char) : decode (encode cs) = some cs := by
  rw [decode, encode, decodeBytes_flatMap, Option.bind_some, Utf8.decode_encode]

end StellarWallet.Percent
