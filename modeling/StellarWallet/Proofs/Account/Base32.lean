import Mathlib.Data.List.Basic
import Mathlib.Data.List.TakeWhile
import Mathlib.Tactic.Ring
import StellarWallet.Account.Base32

/-!
Base32 is a faithful notation for whole groups.

Bytes whose number is a multiple of five are read back from their text, and a text without padding
that can be read is the text of the bytes that were read. Only padding leaves room for a second
text: it cuts off bits that nobody looks at.
-/

namespace StellarWallet.Base32

/-! ### Bits -/

@[simp] lemma length_bits (width n : Nat) : (bits width n).length = width := by simp [bits]

lemma bits_succ (width n : Nat) : bits (width + 1) n = n.testBit width :: bits width n := by
  rw [bits, List.range_succ_eq_map, List.map_cons, List.map_map]
  refine congrArg₂ List.cons rfl (List.map_congr_left fun i _ => ?_)
  change n.testBit (width + 1 - 1 - (i + 1)) = n.testBit (width - 1 - i)
  congr 1
  omega

lemma foldl_bits (bs : List Bool) (n : Nat) :
    bs.foldl (fun n b => 2 * n + b.toNat) n = 2 ^ bs.length * n + ofBits bs := by
  induction bs generalizing n with
  | nil => simp [ofBits]
  | cons b bs ih =>
    rw [ofBits, List.foldl_cons, List.foldl_cons, ih, ih (2 * 0 + b.toNat), List.length_cons]
    ring

lemma ofBits_cons (b : Bool) (bs : List Bool) :
    ofBits (b :: bs) = 2 ^ bs.length * b.toNat + ofBits bs := by
  rw [ofBits, List.foldl_cons, foldl_bits, Nat.mul_zero, Nat.zero_add]

lemma ofBits_lt (bs : List Bool) : ofBits bs < 2 ^ bs.length := by
  induction bs with
  | nil => simp [ofBits]
  | cons b bs ih =>
    rw [ofBits_cons, List.length_cons, Nat.pow_succ]
    cases b <;> simp <;> omega

/-- Bits above the width do not show. -/
lemma bits_mul_add {width n : Nat} (k : Nat) (h : n < 2 ^ width) :
    bits width (2 ^ width * k + n) = bits width n := by
  refine List.map_congr_left fun i hi => ?_
  have hi' : width - 1 - i < width := by
    have := List.mem_range.1 hi
    omega
  rw [Nat.testBit_two_pow_mul_add k h, if_pos hi']

lemma bits_ofBits (bs : List Bool) : bits bs.length (ofBits bs) = bs := by
  induction bs with
  | nil => rfl
  | cons b bs ih =>
    have htop : (2 ^ bs.length * b.toNat + ofBits bs).testBit bs.length = b := by
      rw [Nat.testBit_two_pow_mul_add _ (ofBits_lt bs), if_neg (Nat.lt_irrefl _), Nat.sub_self]
      cases b <;> rfl
    rw [List.length_cons, bits_succ, ofBits_cons, htop, bits_mul_add _ (ofBits_lt bs), ih]

lemma ofBits_bits {width n : Nat} (h : n < 2 ^ width) : ofBits (bits width n) = n := by
  induction width generalizing n with
  | zero =>
    obtain rfl : n = 0 := by omega
    rfl
  | succ width ih =>
    have hlow : n % 2 ^ width < 2 ^ width := Nat.mod_lt _ (Nat.two_pow_pos width)
    have hsplit : 2 ^ width * (n / 2 ^ width) + n % 2 ^ width = n := Nat.div_add_mod _ _
    have hbits : bits width n = bits width (n % 2 ^ width) := by
      conv_lhs => rw [← hsplit]
      exact bits_mul_add _ hlow
    have htop : (n.testBit width).toNat = n / 2 ^ width := by
      have hone : n / 2 ^ width < 2 := Nat.div_lt_of_lt_mul (by rwa [← Nat.pow_succ])
      rw [Nat.toNat_testBit, Nat.mod_eq_of_lt hone]
    rw [bits_succ, ofBits_cons, length_bits, htop, hbits, ih hlow, hsplit]

/-! ### Characters -/

lemma value?_digit {n : Nat} (h : n < 32) : value? (digit n) = some n := by
  have hall : ∀ m < 32, value? (digit m) = some m := by decide
  exact hall n h

lemma value?_padding : value? padding = none := by decide

/-- The character of a value is the one that has the value. -/
lemma digit_of_value? {c : Char} {n : Nat} (h : value? c = some n) : n < 32 ∧ digit n = c := by
  unfold value? at h
  split at h
  · next hc =>
    have hlow : 65 ≤ c.toNat := hc.1
    have hhigh : c.toNat ≤ 90 := hc.2
    have hn : c.toNat - 65 = n := Option.some.inj h
    have hchar : 65 + n = c.toNat := by omega
    refine ⟨by omega, ?_⟩
    rw [digit, if_pos (by omega)]
    change Char.ofNat (65 + n) = c
    rw [hchar, Char.ofNat_toNat]
  · split at h
    · next hc =>
      have hlow : 50 ≤ c.toNat := hc.1
      have hhigh : c.toNat ≤ 55 := hc.2
      have hn : c.toNat - 50 + 26 = n := Option.some.inj h
      have hchar : 50 + (n - 26) = c.toNat := by omega
      refine ⟨by omega, ?_⟩
      rw [digit, if_neg (by omega)]
      change Char.ofNat (50 + (n - 26)) = c
      rw [hchar, Char.ofNat_toNat]
    · cases h

lemma mapM_value?_digits {ns : List Nat} (h : ∀ n ∈ ns, n < 32) :
    (ns.map digit).mapM value? = some ns := by
  induction ns with
  | nil => rfl
  | cons n ns ih =>
    rw [List.map_cons, List.mapM_cons, value?_digit (h n (by simp)),
      ih fun m hm => h m (by simp [hm])]
    rfl

lemma digits_of_mapM_value? {cs : List Char} {ns : List Nat} (h : cs.mapM value? = some ns) :
    (∀ n ∈ ns, n < 32) ∧ ns.map digit = cs := by
  induction cs generalizing ns with
  | nil =>
    cases h
    simp
  | cons c cs ih =>
    rw [List.mapM_cons] at h
    obtain ⟨n, hn, h⟩ := Option.bind_eq_some_iff.1 h
    obtain ⟨ms, hms, h⟩ := Option.bind_eq_some_iff.1 h
    cases h
    obtain ⟨hlt, hc⟩ := digit_of_value? hn
    obtain ⟨hall, hcs⟩ := ih hms
    exact ⟨by simpa using ⟨hlt, hall⟩, by rw [List.map_cons, hc, hcs]⟩

/-! ### Groups -/

lemma length_flatMap_bits (width : Nat) (ns : List Nat) :
    (ns.flatMap (bits width)).length = width * ns.length := by
  induction ns with
  | nil => rfl
  | cons n ns ih =>
    rw [List.flatMap_cons, List.length_append, length_bits, ih, List.length_cons]
    ring

lemma length_flatMap_bytes (bs : List UInt8) :
    (bs.flatMap fun b => bits 8 b.toNat).length = 8 * bs.length := by
  rw [← List.flatMap_map (f := UInt8.toNat) (g := bits 8), length_flatMap_bits, List.length_map]

/-- Bits fall into groups, and fewer bits than a group remain. -/
lemma exists_groups {width : Nat} (hw : 0 < width) (bs : List Bool) :
    ∃ (ns : List Nat) (rest : List Bool), (∀ n ∈ ns, n < 2 ^ width) ∧ rest.length < width ∧
      ns.flatMap (bits width) ++ rest = bs := by
  induction hlen : bs.length using Nat.strong_induction_on generalizing bs with
  | h len ih =>
    by_cases hshort : bs.length < width
    · exact ⟨[], bs, by simp, hshort, rfl⟩
    · have hdrop : (bs.drop width).length < len := by
        rw [List.length_drop]
        omega
      obtain ⟨ns, rest, hns, hrest, hbs⟩ := ih _ hdrop _ rfl
      have hgroup : (bs.take width).length = width := by
        rw [List.length_take]
        omega
      have hfirst := bits_ofBits (bs.take width)
      rw [hgroup] at hfirst
      have hlt : ofBits (bs.take width) < 2 ^ width := by
        have := ofBits_lt (bs.take width)
        rwa [hgroup] at this
      refine ⟨ofBits (bs.take width) :: ns, rest, List.forall_mem_cons.2 ⟨hlt, hns⟩, hrest, ?_⟩
      rw [List.flatMap_cons, hfirst, List.append_assoc, hbs, List.take_append_drop]

lemma bytes_of_short {bs : List Bool} (h : bs.length < 8) : bytes bs = [] := by
  unfold bytes
  split
  · simp only [List.length_cons] at h
    omega
  · rfl

lemma bytes_append {bs : List UInt8} {rest : List Bool} (h : rest.length < 8) :
    bytes ((bs.flatMap fun b => bits 8 b.toNat) ++ rest) = bs := by
  induction bs with
  | nil => exact bytes_of_short h
  | cons b bs ih =>
    have hb : UInt8.ofNat (ofBits (bits 8 b.toNat)) = b := by
      rw [ofBits_bits b.toNat_lt, UInt8.ofNat_toNat]
    calc bytes (((b :: bs).flatMap fun b => bits 8 b.toNat) ++ rest)
        = UInt8.ofNat (ofBits (bits 8 b.toNat))
            :: bytes ((bs.flatMap fun b => bits 8 b.toNat) ++ rest) := rfl
      _ = b :: bs := by rw [hb, ih]

/-- The bits of the bytes that some bits fill; fewer than eight bits are left over. -/
lemma exists_rest (bs : List Bool) :
    ∃ rest, rest.length < 8 ∧ ((bytes bs).flatMap fun b => bits 8 b.toNat) ++ rest = bs := by
  obtain ⟨ns, rest, hns, hrest, rfl⟩ := exists_groups (by decide : 0 < 8) bs
  have hbits : ∀ n ∈ ns, bits 8 (UInt8.ofNat n).toNat = bits 8 n := by
    intro n hn
    rw [UInt8.toNat_ofNat', Nat.mod_eq_of_lt (hns n hn)]
  have hflat : ((ns.map UInt8.ofNat).flatMap fun b => bits 8 b.toNat) = ns.flatMap (bits 8) := by
    rw [List.flatMap_map]
    exact List.flatMap_congr hbits
  refine ⟨rest, hrest, ?_⟩
  rw [← hflat, bytes_append hrest]

lemma length_bytes (bs : List Bool) : (bytes bs).length = bs.length / 8 := by
  obtain ⟨rest, hrest, hbs⟩ := exists_rest bs
  have hlen := congrArg List.length hbs
  rw [List.length_append, length_flatMap_bytes] at hlen
  omega

lemma digits_flatMap_bits {ns : List Nat} (h : ∀ n ∈ ns, n < 32) :
    digits (ns.flatMap (bits 5)) = ns.map digit := by
  induction ns with
  | nil => rfl
  | cons n ns ih =>
    calc digits ((n :: ns).flatMap (bits 5))
        = digit (ofBits (bits 5 n)) :: digits (ns.flatMap (bits 5)) := rfl
      _ = digit n :: ns.map digit := by
        rw [ofBits_bits (h n (by simp)), ih fun m hm => h m (by simp [hm])]

/-! ### Texts -/

/-- The value of a text is that of its characters before the padding. -/
lemma decode_eq_some {cs : List Char} {bs : List UInt8} (h : decode cs = some bs) :
    ∃ (ns : List Nat) (count : Nat), (∀ n ∈ ns, n < 32) ∧
      cs = ns.map digit ++ List.replicate count padding ∧ count ∈ paddingCounts ∧
      8 ∣ cs.length ∧ bs = bytes (ns.flatMap (bits 5)) := by
  unfold decode at h
  dsimp only at h
  split at h
  · next hshape =>
    obtain ⟨ns, hns, hbs⟩ := Option.map_eq_some_iff.1 h
    obtain ⟨hlt, hbody⟩ := digits_of_mapM_value? hns
    have hpad : ∀ c ∈ cs.reverse.takeWhile (· = padding), c = padding := fun c hc => by
      simpa using List.mem_takeWhile_imp hc
    have hcs := congrArg List.reverse
      (List.takeWhile_append_dropWhile (p := fun c => decide (c = padding)) (l := cs.reverse))
    rw [List.reverse_append, List.reverse_reverse, ← hbody,
      List.eq_replicate_of_mem hpad, List.reverse_replicate] at hcs
    have hcount := congrArg List.length hcs
    rw [List.length_append, List.length_replicate] at hcount
    refine ⟨ns, _, hlt, hcs.symm, ?_, Nat.dvd_of_mod_eq_zero hshape.1, hbs.symm⟩
    have hmem := hshape.2
    rw [← hbody, ← hcount, Nat.add_sub_cancel_left] at hmem
    exact hmem
  · cases h

lemma padding_notMem_digits {ns : List Nat} (h : ∀ n ∈ ns, n < 32) :
    padding ∉ ns.map digit := by
  intro hmem
  obtain ⟨n, hn, hd⟩ := List.mem_map.1 hmem
  have hv := value?_digit (h n hn)
  rw [hd, value?_padding] at hv
  cases hv

lemma decode_digits {ns : List Nat} (h : ∀ n ∈ ns, n < 32) (h8 : 8 ∣ ns.length) :
    decode (ns.map digit) = some (bytes (ns.flatMap (bits 5))) := by
  have hbody : ((ns.map digit).reverse.dropWhile (· = padding)).reverse = ns.map digit := by
    have hnone : ∀ c ∈ (ns.map digit).reverse, ¬ (decide (c = padding) = true) := by
      intro c hc hp
      rw [of_decide_eq_true hp] at hc
      exact padding_notMem_digits h (List.mem_reverse.1 hc)
    rw [List.dropWhile_eq_self_iff.2 ?_, List.reverse_reverse]
    intro hpos
    exact hnone _ (List.getElem_mem hpos)
  have hshape : (ns.map digit).length % 8 = 0 ∧
      (ns.map digit).length - (ns.map digit).length ∈ paddingCounts := by
    rw [List.length_map, Nat.sub_self]
    exact ⟨Nat.mod_eq_zero_of_dvd h8, by decide⟩
  unfold decode
  dsimp only
  rw [hbody, if_pos hshape, mapM_value?_digits h]
  rfl

/-- Characters for groups of forty bits need no padding. -/
lemma encode_of_digits {ns : List Nat} {bs : List UInt8} (h : ∀ n ∈ ns, n < 32)
    (h8 : 8 ∣ ns.length) (hbits : (bs.flatMap fun b => bits 8 b.toNat) = ns.flatMap (bits 5)) :
    encode bs = ns.map digit := by
  have hfull : (8 - (ns.map digit).length % 8) % 8 = 0 := by
    rw [List.length_map, Nat.mod_eq_zero_of_dvd h8]
  rw [encode, hbits, digits_flatMap_bits h, hfull, List.replicate_zero, List.append_nil]

/-- The text of whole groups has a character for each five bits. -/
lemma encode_eq_digits {bs : List UInt8} (h : 5 ∣ bs.length) :
    ∃ ns : List Nat, (∀ n ∈ ns, n < 32) ∧ 5 * ns.length = 8 * bs.length ∧
      (bs.flatMap fun b => bits 8 b.toNat) = ns.flatMap (bits 5) ∧ encode bs = ns.map digit := by
  obtain ⟨ns, rest, hns, hrest, hbits⟩ :=
    exists_groups (by decide : 0 < 5) (bs.flatMap fun b => bits 8 b.toNat)
  have hlen := congrArg List.length hbits
  rw [List.length_append, length_flatMap_bits, length_flatMap_bytes] at hlen
  obtain rfl : rest = [] := List.length_eq_zero_iff.1 (by omega)
  rw [List.append_nil] at hbits
  rw [List.length_nil, Nat.add_zero] at hlen
  exact ⟨ns, hns, hlen, hbits.symm, encode_of_digits hns (by omega) hbits.symm⟩

/-- **Whole groups are read back.** -/
theorem decode_encode {bs : List UInt8} (h : 5 ∣ bs.length) : decode (encode bs) = some bs := by
  obtain ⟨ns, hns, hlen, hbits, henc⟩ := encode_eq_digits h
  have hbytes : bytes ((bs.flatMap fun b => bits 8 b.toNat) ++ []) = bs := bytes_append (by decide)
  rw [List.append_nil, hbits] at hbytes
  rw [henc, decode_digits hns (by omega), hbytes]

/-- **A text without padding has no second form.** -/
theorem encode_of_decode {cs : List Char} {bs : List UInt8} (h : decode cs = some bs)
    (hpad : padding ∉ cs) : encode bs = cs := by
  obtain ⟨ns, count, hns, rfl, -, h8, rfl⟩ := decode_eq_some h
  obtain rfl : count = 0 := by
    by_contra hne
    exact hpad (List.mem_append_right _ (List.mem_replicate.2 ⟨hne, rfl⟩))
  rw [List.replicate_zero, List.append_nil] at h8 ⊢
  rw [List.length_map] at h8
  obtain ⟨rest, hrest, hbits⟩ := exists_rest (ns.flatMap (bits 5))
  have hlen := congrArg List.length hbits
  rw [List.length_append, length_flatMap_bits, length_flatMap_bytes] at hlen
  -- Eight characters are forty bits, so no bit is left over after the bytes.
  obtain rfl : rest = [] := List.length_eq_zero_iff.1 (by omega)
  rw [List.append_nil] at hbits
  exact encode_of_digits hns h8 hbits

/-- How many bytes a text stands for. -/
lemma length_of_decode {cs : List Char} {bs : List UInt8} (h : decode cs = some bs) :
    ∃ count ∈ paddingCounts, bs.length = 5 * (cs.length - count) / 8 ∧
      (count = 0 ↔ padding ∉ cs) := by
  obtain ⟨ns, count, hns, rfl, hcount, -, rfl⟩ := decode_eq_some h
  refine ⟨count, hcount, ?_, ?_⟩
  · rw [length_bytes, length_flatMap_bits, List.length_append, List.length_map,
      List.length_replicate, Nat.add_sub_cancel]
  · rw [List.mem_append, not_or, List.mem_replicate]
    simp [padding_notMem_digits hns]

end StellarWallet.Base32
