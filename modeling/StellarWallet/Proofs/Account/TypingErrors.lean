import StellarWallet.Proofs.Account.Acceptance
import StellarWallet.Proofs.Account.Register

/-!
Mistyped addresses.

One character of an address, or two next to each other, are at most ten bits in a row. If those lie
in the bytes that the checksum covers, they are a burst that shows in the checksum; if they lie in
the checksum itself, it is another one. Where the bytes end and the checksum begins, two pairs of
characters reach into both. The low byte of the checksum comes first, so that a burst there is none
in the order of the register, and all the patterns have to be looked at.
-/

namespace StellarWallet

namespace Checksum

open Base32 (bits ofBits)

/-! ### Bits and their checksum -/

/-- The places of the register in the order in which a checksum is written. -/
def places : List Nat := [7, 6, 5, 4, 3, 2, 1, 0, 15, 14, 13, 12, 11, 10, 9, 8]

/-- The bits of a checksum as it is written. -/
def written (r : BitVec 16) : List Bool := places.map r.getLsbD

@[simp] lemma length_written (r : BitVec 16) : (written r).length = 16 := rfl

lemma written_injective {r s : BitVec 16} (h : written r = written s) : r = s := by
  have hplaces : ∀ i < 16, i ∈ places := by decide
  exact BitVec.eq_of_getLsbD_eq fun i hi => List.map_inj_left.1 h i (hplaces i hi)

lemma flatMap_littleEndian (r : BitVec 16) :
    ((littleEndian r).flatMap fun b => bits 8 b.toNat) = written r := by
  have hbits : ∀ n, bits 8 n = [7, 6, 5, 4, 3, 2, 1, 0].map n.testBit := fun n => rfl
  have hwritten : written r = [7, 6, 5, 4, 3, 2, 1, 0].map r.getLsbD
      ++ [7, 6, 5, 4, 3, 2, 1, 0].map fun i => r.getLsbD (8 + i) := rfl
  have hplaces : ∀ i ∈ [7, 6, 5, 4, 3, 2, 1, 0], i < 8 := by decide
  rw [littleEndian, List.flatMap_cons, List.flatMap_cons, List.flatMap_nil, List.append_nil, hbits,
    hbits, hwritten, UInt8.toNat_ofNat', UInt8.toNat_ofNat']
  refine congrArg₂ (· ++ ·) (List.map_congr_left fun i hi => ?_)
    (List.map_congr_left fun i hi => ?_)
  · change (r.toNat % 2 ^ 8 % 2 ^ 8).testBit i = r.toNat.testBit i
    rw [Nat.mod_mod, Nat.testBit_mod_two_pow, decide_eq_true (hplaces i hi), Bool.true_and]
  · change (r.toNat / 2 ^ 8 % 2 ^ 8).testBit i = r.toNat.testBit (8 + i)
    rw [Nat.testBit_mod_two_pow, decide_eq_true (hplaces i hi), Bool.true_and,
      Nat.testBit_div_two_pow, Nat.add_comm]

/-- Some bits with their checksum behind them. -/
def withSum (bs : List Bool) : List Bool := bs ++ written (feedAll 0 bs)

lemma exists_cut {α : Type} {n : Nat} {xs : List α} (h : n ≤ xs.length) :
    ∃ ys zs, xs = ys ++ zs ∧ ys.length = n :=
  ⟨xs.take n, xs.drop n, (List.take_append_drop n xs).symm, List.length_take_of_le h⟩

section

variable {P P' A M M' B : List Bool} (hP : P.length = P'.length)
  (h : withSum P = A ++ M ++ B) (h' : withSum P' = A ++ M' ++ B)

include hP h h'

/-- Bits that the checksum covers. -/
lemma eq_of_covered (hM : M.length = M'.length) (hin : A.length + M.length ≤ P.length)
    (h16 : M.length ≤ 16) : M = M' := by
  have hlen := congrArg List.length h
  simp only [withSum, List.length_append, length_written] at hlen
  have hcut : P.length - (A.length + M.length) ≤ B.length := by omega
  obtain ⟨B₁, B₂, rfl, hB₁⟩ := exists_cut hcut
  rw [withSum, ← List.append_assoc] at h h'
  obtain ⟨hbits, hsum⟩ := List.append_inj h (by simp only [List.length_append]; omega)
  obtain ⟨hbits', hsum'⟩ := List.append_inj h' (by simp only [List.length_append]; omega)
  have hsame : feedAll 0 P = feedAll 0 P' := written_injective (hsum.trans hsum'.symm)
  rw [hbits, hbits', feedAll_append, feedAll_append, feedAll_append, feedAll_append] at hsame
  exact feedAll_burst hM h16 _ (feedAll_injective B₁ hsame)

/-- Bits of the checksum. -/
lemma eq_of_beyond (hout : P.length ≤ A.length) : M = M' := by
  obtain ⟨A₁, A₂, rfl, hA₁⟩ := exists_cut hout
  rw [withSum, List.append_assoc, List.append_assoc] at h h'
  obtain ⟨rfl, hsum⟩ := List.append_inj h hA₁.symm
  obtain ⟨rfl, hsum'⟩ := List.append_inj h' (hP.symm.trans hA₁.symm)
  have hsame := hsum.symm.trans hsum'
  exact List.append_cancel_right (List.append_cancel_left hsame)

end

/-- No nine bits at the end of what is covered are made up for by the first bit of the checksum, and
no four bits by its first six. -/
lemma ofBits_eq_zero_of_sum {w : List Bool} {k : Nat}
    (hlen : w.length = 9 ∧ k ≤ 1 ∨ w.length = 4 ∧ k ≤ 6)
    (h : ∀ i ∈ places.drop k, (feedAll 0 w).getLsbD i = false) : ofBits w = 0 := by
  have hpatterns : ∀ cut ∈ [(9, 1), (4, 6)], ∀ n < 2 ^ cut.1,
      (∀ i ∈ places.drop cut.2, (feedAll 0 (bits cut.1 n)).getLsbD i = false) → n = 0 := by
    decide +kernel
  obtain ⟨most, hcut, hk⟩ : ∃ most, (w.length, most) ∈ [(9, 1), (4, 6)] ∧ k ≤ most := by
    rcases hlen with ⟨hw, hk⟩ | ⟨hw, hk⟩
    · exact ⟨1, by simp [hw], hk⟩
    · exact ⟨6, by simp [hw], hk⟩
  refine hpatterns _ hcut _ (Base32.ofBits_lt w) fun i hi => ?_
  rw [Base32.bits_ofBits]
  exact h i (List.drop_subset_drop_left places hk hi)

lemma eq_of_ofBits_xor {as bs : List Bool} (hlen : as.length = bs.length)
    (h : ofBits (as.zipWith (· ^^ ·) bs) = 0) : as = bs := by
  induction as generalizing bs with
  | nil => exact (List.length_eq_zero_iff.1 hlen.symm).symm
  | cons a as ih =>
    cases bs with
    | nil => cases hlen
    | cons b bs =>
      rw [List.zipWith_cons_cons, Base32.ofBits_cons, Nat.add_eq_zero_iff, Nat.mul_eq_zero] at h
      have hfirst : (a ^^ b) = false := by
        have := h.1.resolve_left (Nat.two_pow_pos _).ne'
        cases hab : a ^^ b with
        | false => rfl
        | true => rw [hab] at this; cases this
      rw [ih (Nat.succ.inj hlen) h.2, bne_eq_false_iff_eq.1 hfirst]

/-- Bits at the end of what is covered, and the first ones of the checksum. -/
lemma eq_of_across {P P' A M₁ M₂ M₁' M₂' B : List Bool} (hP : P.length = P'.length)
    (hM₁ : M₁.length = M₁'.length) (hM₂ : M₂.length = M₂'.length)
    (h : withSum P = A ++ (M₁ ++ M₂) ++ B) (h' : withSum P' = A ++ (M₁' ++ M₂') ++ B)
    (hend : A.length + M₁.length = P.length)
    (hlen : M₁.length = 9 ∧ M₂.length ≤ 1 ∨ M₁.length = 4 ∧ M₂.length ≤ 6) :
    M₁ ++ M₂ = M₁' ++ M₂' := by
  rw [withSum, ← List.append_assoc, List.append_assoc (A ++ _)] at h h'
  obtain ⟨hbits, hsum⟩ := List.append_inj h (by simp only [List.length_append]; omega)
  obtain ⟨hbits', hsum'⟩ := List.append_inj h' (by simp only [List.length_append]; omega)
  have hdiff : feedAll 0 (M₁.zipWith (· ^^ ·) M₁') = feedAll 0 P ^^^ feedAll 0 P' := by
    rw [hbits, hbits', feedAll_append, feedAll_append, ← feedAll_xor _ _ hM₁, BitVec.xor_self]
    rfl
  have hrest : ∀ i ∈ places.drop M₂.length,
      (feedAll 0 P).getLsbD i = (feedAll 0 P').getLsbD i := by
    have hdrop := congrArg (List.drop M₂.length) hsum
    have hdrop' := congrArg (List.drop M₂'.length) hsum'
    rw [written, ← List.map_drop, List.drop_left] at hdrop hdrop'
    rw [← hM₂] at hdrop'
    exact List.map_inj_left.1 (hdrop.trans hdrop'.symm)
  have hzero : ofBits (M₁.zipWith (· ^^ ·) M₁') = 0 := by
    refine ofBits_eq_zero_of_sum ?_ fun i (hi : i ∈ places.drop M₂.length) => ?_
    · rw [List.length_zipWith, ← hM₁, Nat.min_self]
      exact hlen
    · rw [hdiff, BitVec.getLsbD_xor, hrest i hi, Bool.xor_self]
  obtain rfl : M₁ = M₁' := eq_of_ofBits_xor hM₁ hzero
  rw [hbits, ← hbits', hsum'] at hsum
  rw [List.append_cancel_right hsum]

/-- The bits of one or two characters, when those of the characters before them and the bits that
follow are the same. -/
lemma eq_of_near {P P' A M M' B : List Bool} (hP : P.length = 264) (hP' : P'.length = 264)
    (h : withSum P = A ++ M ++ B) (h' : withSum P' = A ++ M' ++ B) (hA : 5 ∣ A.length)
    (hM : 5 ∣ M.length) (hten : M.length ≤ 10) (hM' : M.length = M'.length) : M = M' := by
  have hlen : P.length = P'.length := hP.trans hP'.symm
  by_cases hin : A.length + M.length ≤ 264
  · exact eq_of_covered hlen h h' hM' (by omega) (by omega)
  by_cases hout : 264 ≤ A.length
  · exact eq_of_beyond hlen h h' (by omega)
  -- Two characters that begin nine or four bits before the end of what is covered.
  have hcut : 264 - A.length ≤ M.length := by omega
  obtain ⟨M₁, M₂, rfl, hM₁⟩ := exists_cut hcut
  obtain ⟨M₁', M₂', rfl, hM₁'⟩ := exists_cut (hM' ▸ hcut)
  simp only [List.length_append] at hM hten hM'
  exact eq_of_across hlen (by omega) (by omega) h h' (by omega) (by omega)

end Checksum

namespace Base32

/-- The five bits of a character. -/
def charBits (c : Char) : List Bool := bits 5 ((value? c).getD 0)

@[simp] lemma length_charBits (c : Char) : (charBits c).length = 5 := length_bits 5 _

lemma length_flatMap_charBits (cs : List Char) : (cs.flatMap charBits).length = 5 * cs.length := by
  induction cs with
  | nil => rfl
  | cons c cs ih =>
    rw [List.flatMap_cons, List.length_append, length_charBits, ih, List.length_cons]
    omega

lemma flatMap_charBits_digits {ns : List Nat} (h : ∀ n ∈ ns, n < 32) :
    (ns.map digit).flatMap charBits = ns.flatMap (bits 5) := by
  rw [List.flatMap_map]
  refine List.flatMap_congr fun n hn => ?_
  rw [charBits, value?_digit (h n hn), Option.getD_some]

lemma charBits_injective {c d : Char} {m n : Nat} (hc : value? c = some m) (hd : value? d = some n)
    (h : charBits c = charBits d) : c = d := by
  obtain ⟨hm, rfl⟩ := digit_of_value? hc
  obtain ⟨hn, rfl⟩ := digit_of_value? hd
  have hbits := congrArg ofBits h
  rw [charBits, charBits, hc, hd, Option.getD_some, Option.getD_some, ofBits_bits hm,
    ofBits_bits hn] at hbits
  rw [hbits]

lemma flatMap_charBits_injective {cs ds : List Char} (hlen : cs.length = ds.length)
    (hcs : ∀ c ∈ cs, ∃ n, value? c = some n) (hds : ∀ d ∈ ds, ∃ n, value? d = some n)
    (h : cs.flatMap charBits = ds.flatMap charBits) : cs = ds := by
  induction cs generalizing ds with
  | nil => exact (List.length_eq_zero_iff.1 hlen.symm).symm
  | cons c cs ih =>
    cases ds with
    | nil => cases hlen
    | cons d ds =>
      rw [List.flatMap_cons, List.flatMap_cons] at h
      obtain ⟨hfirst, hrest⟩ := List.append_inj h (by simp)
      obtain ⟨⟨m, hm⟩, hcs⟩ := List.forall_mem_cons.1 hcs
      obtain ⟨⟨n, hn⟩, hds⟩ := List.forall_mem_cons.1 hds
      rw [charBits_injective hm hn hfirst, ih (Nat.succ.inj hlen) hcs hds hrest]

end Base32

namespace Address

open Base32 (bits charBits value?)

variable {key key' : List UInt8} {before typed typed' after : List Char}

/-- The bits of the version byte and of a key. -/
def payloadBits (key : List UInt8) : List Bool := (payload key).flatMap fun b => bits 8 b.toNat

lemma length_payloadBits (h : key.length = 32) : (payloadBits key).length = 264 := by
  rw [payloadBits, Base32.length_flatMap_bytes, payload, List.length_cons, h]

/-- The characters of an address hold the bits of its key and their checksum. -/
lemma flatMap_charBits_ofKey (h : key.length = 32) :
    (ofKey key).flatMap charBits = Checksum.withSum (payloadBits key) := by
  obtain ⟨ns, hns, -, hbits, henc⟩ := Base32.encode_eq_digits (five_dvd_sealed h)
  have hkey : ofKey key = ns.map Base32.digit := henc
  rw [hkey, Base32.flatMap_charBits_digits hns, ← hbits, sealed, List.flatMap_append,
    Checksum.flatMap_littleEndian, Checksum.ofBytes_eq_feedAll]
  rfl

lemma exists_value_of_mem_ofKey (h : key.length = 32) :
    ∀ c ∈ ofKey key, ∃ n, value? c = some n := by
  obtain ⟨ns, hns, -, -, henc⟩ := Base32.encode_eq_digits (five_dvd_sealed h)
  have hkey : ofKey key = ns.map Base32.digit := henc
  rw [hkey]
  intro c hc
  obtain ⟨n, hn, rfl⟩ := List.mem_map.1 hc
  exact ⟨n, Base32.value?_digit (hns n hn)⟩

/-- Two addresses do not differ in one character alone, nor in two next to each other. -/
lemma eq_of_close (hkey : key.length = 32) (hkey' : key'.length = 32)
    (h : ofKey key = before ++ typed ++ after) (h' : ofKey key' = before ++ typed' ++ after)
    (hlen : typed.length = typed'.length) (htwo : typed.length ≤ 2) : typed = typed' := by
  have hbits := flatMap_charBits_ofKey hkey
  have hbits' := flatMap_charBits_ofKey hkey'
  rw [h, List.flatMap_append, List.flatMap_append] at hbits
  rw [h', List.flatMap_append, List.flatMap_append] at hbits'
  have hA := Base32.length_flatMap_charBits before
  have hM := Base32.length_flatMap_charBits typed
  have hM' := Base32.length_flatMap_charBits typed'
  have hsame : typed.flatMap charBits = typed'.flatMap charBits :=
    Checksum.eq_of_near (length_payloadBits hkey) (length_payloadBits hkey') hbits.symm
      hbits'.symm (by omega) (by omega) (by omega) (by omega)
  refine Base32.flatMap_charBits_injective hlen (fun c hc => ?_) (fun c hc => ?_) hsame
  · refine exists_value_of_mem_ofKey hkey c ?_
    rw [h]
    exact List.mem_append_left _ (List.mem_append_right _ hc)
  · refine exists_value_of_mem_ofKey hkey' c ?_
    rw [h']
    exact List.mem_append_left _ (List.mem_append_right _ hc)

/-- A capital letter, or a digit from 2 to 7. -/
def IsTypeable (c : Char) : Prop := ('A' ≤ c ∧ c ≤ 'Z') ∨ ('2' ≤ c ∧ c ≤ '7')

lemma isTypeable_iff {c : Char} : IsTypeable c ↔ ∃ n, value? c = some n := by
  unfold IsTypeable value?
  split
  · next hletter => exact ⟨fun _ => ⟨_, rfl⟩, fun _ => Or.inl hletter⟩
  · next hletter =>
    split
    · next hdigit => exact ⟨fun _ => ⟨_, rfl⟩, fun _ => Or.inr hdigit⟩
    · next hdigit => exact ⟨fun hc => absurd hc (not_or.2 ⟨hletter, hdigit⟩), nofun⟩

lemma isTypeable_of_mem_ofKey (h : key.length = 32) : ∀ c ∈ ofKey key, IsTypeable c :=
  fun c hc => isTypeable_iff.2 (exists_value_of_mem_ofKey h c hc)

lemma IsTypeable.isAddressChar {c : Char} (h : IsTypeable c) : IsAddressChar c := by
  obtain ⟨n, hn⟩ := isTypeable_iff.1 h
  obtain ⟨hlt, hdigit⟩ := Base32.digit_of_value? hn
  exact Or.inr ⟨n, hlt, hdigit.symm⟩

lemma not_isTypeable_padding : ¬ IsTypeable Base32.padding := by
  intro h
  obtain ⟨n, hn⟩ := isTypeable_iff.1 h
  rw [Base32.value?_padding] at hn
  cases hn

/-- One text is another one in which some other character has been typed in one place, or other ones
in two places next to each other. -/
def IsMistyped (cs cs' : List Char) : Prop :=
  ∃ before typed typed' after, cs = before ++ typed ++ after ∧ cs' = before ++ typed' ++ after ∧
    typed'.length = typed.length ∧ typed.length ≤ 2 ∧ typed' ≠ typed ∧ ∀ c ∈ typed', IsTypeable c

lemma isMistyped_of_swap {a b : Char} (hkey : key.length = 32)
    (h : ofKey key = before ++ [a, b] ++ after) (hne : a ≠ b) :
    IsMistyped (ofKey key) (before ++ [b, a] ++ after) := by
  refine ⟨before, [a, b], [b, a], after, h, rfl, rfl, Nat.le_refl 2, ?_, fun c hc => ?_⟩
  · intro hsame
    exact hne (List.cons.inj hsame).1.symm
  · refine isTypeable_of_mem_ofKey hkey c ?_
    rw [h]
    refine List.mem_append_left _ (List.mem_append_right _ ?_)
    exact (List.Perm.swap a b []).mem_iff.1 hc

lemma ofText_ofKey (h : key.length = 32) :
    ofText (String.ofList (ofKey key)) = .ok (String.ofList (ofKey key)) := by
  have hnormal := normalize_ofList fun c hc => (isTypeable_of_mem_ofKey h c hc).isAddressChar
  rw [ofText_eq_ok_iff_checkText, hnormal, String.toList_ofList]
  exact ⟨rfl, checkText_eq_ok_iff_ofKey.2 (Or.inl ⟨key, h, rfl⟩)⟩

lemma ofText_of_isMistyped {cs : List Char} (hkey : key.length = 32)
    (h : IsMistyped (ofKey key) cs) : ∃ fault, ofText (String.ofList cs) = .error fault := by
  obtain ⟨before, typed, typed', after, hofKey, rfl, hlen, htwo, hne, htyped⟩ := h
  have hall : ∀ c ∈ before ++ typed' ++ after, IsTypeable c := by
    have hkept := isTypeable_of_mem_ofKey hkey
    rw [hofKey] at hkept
    simp only [List.forall_mem_append] at hkept ⊢
    exact ⟨⟨hkept.1.1, htyped⟩, hkept.2⟩
  cases hread : ofText (String.ofList (before ++ typed' ++ after)) with
  | error fault => exact ⟨fault, rfl⟩
  | ok t =>
    obtain ⟨-, hok⟩ := ofText_eq_ok_iff_checkText.1 hread
    rw [normalize_ofList fun c hc => (hall c hc).isAddressChar] at hok
    rcases checkText_eq_ok_iff_ofKey.1 hok with ⟨key', hkey', hofKey'⟩ | ⟨hpad, -⟩
    · exact absurd (eq_of_close hkey hkey' hofKey hofKey'.symm hlen.symm htwo).symm hne
    · exact absurd (hall _ hpad) not_isTypeable_padding

/-- **Typing errors show.** The address of a key of 32 bytes has 56 characters, and reading it gives
it back. With one of its characters changed to another one, or two next to each other, it is
refused, and so it is with two different neighbours swapped. -/
theorem ofText_refuses_typing_errors (key : List UInt8) (hkey : key.length = 32) :
    (ofKey key).length = 56 ∧
      ofText (String.ofList (ofKey key)) = .ok (String.ofList (ofKey key)) ∧
      (∀ cs, IsMistyped (ofKey key) cs → ∃ fault, ofText (String.ofList cs) = .error fault) ∧
      ∀ before a b after, ofKey key = before ++ [a, b] ++ after → a ≠ b →
        ∃ fault, ofText (String.ofList (before ++ [b, a] ++ after)) = .error fault :=
  ⟨length_ofKey hkey, ofText_ofKey hkey, fun _ h => ofText_of_isMistyped hkey h,
    fun _ _ _ _ h hne => ofText_of_isMistyped hkey (isMistyped_of_swap hkey h hne)⟩

/-- The address of 32 zero bytes, with two characters swapped and with two others. -/
theorem ofText_refuses_changed_zeros :
    let zeros := List.replicate 32 (0 : UInt8)
    let swapped := 'G' :: List.replicate 52 'A' ++ ['H', 'W', 'F']
    let changed := 'G' :: List.replicate 50 'A' ++ ['Z', '7', 'W', 'H', 'F']
    ofKey zeros = 'G' :: List.replicate 52 'A' ++ ['W', 'H', 'F'] ∧
      (∃ fault, ofText (String.ofList swapped) = .error fault) ∧
      ∃ fault, ofText (String.ofList changed) = .error fault := by
  intro zeros swapped changed
  obtain ⟨-, -, hchange, hswap⟩ := ofText_refuses_typing_errors zeros (by decide)
  have hzeros : ofKey zeros = 'G' :: List.replicate 52 'A' ++ ['W', 'H', 'F'] := by decide +kernel
  refine ⟨hzeros, hswap ('G' :: List.replicate 52 'A') 'W' 'H' ['F'] hzeros (by decide), ?_⟩
  refine hchange changed ⟨'G' :: List.replicate 50 'A', ['A', 'A'], ['Z', '7'], ['W', 'H', 'F'],
    hzeros, rfl, rfl, by decide, by decide, ?_⟩
  rw [List.forall_mem_cons, List.forall_mem_singleton]
  exact ⟨Or.inl (by decide), Or.inr (by decide)⟩

end Address

end StellarWallet
