import StellarWallet.Account.Address
import StellarWallet.Proofs.Account.Base32

/-!
Which texts are taken for addresses.

A text without padding is accepted exactly if, in its normal form, it is the address of a key of 32
bytes. Padding opens a gap: it shortens what a text of the same length stands for, and nothing looks
at the number of bytes, so that texts are accepted which stand for keys of 28 to 31 bytes.
-/

namespace StellarWallet

namespace Checksum

@[simp] lemma length_littleEndian (r : BitVec 16) : (littleEndian r).length = 2 := rfl

lemma ofLittleEndian_littleEndian (r : BitVec 16) : ofLittleEndian (littleEndian r) = r.toNat := by
  have hr := r.isLt
  simp only [littleEndian, ofLittleEndian, UInt8.toNat_ofNat']
  omega

/-- Two bytes are the sum that they hold. -/
lemma eq_littleEndian {r : BitVec 16} {sum : List UInt8} (hlen : sum.length = 2)
    (h : r.toNat = ofLittleEndian sum) : sum = littleEndian r := by
  obtain ⟨low, high, rfl⟩ := List.length_eq_two.1 hlen
  have hlow := low.toNat_lt
  simp only [ofLittleEndian, Nat.mul_zero, Nat.add_zero] at h
  have hmod : r.toNat % 256 = low.toNat := by omega
  have hdiv : r.toNat / 256 = high.toNat := by omega
  rw [littleEndian, hmod, hdiv, UInt8.ofNat_toNat, UInt8.ofNat_toNat]

end Checksum

namespace Address

open Base32 (padding)

/-- The bytes of the address of a key: what the checksum covers, and the checksum. -/
def sealed (key : List UInt8) : List UInt8 :=
  payload key ++ Checksum.littleEndian (Checksum.ofBytes (payload key))

@[simp] lemma length_sealed (key : List UInt8) : (sealed key).length = key.length + 3 := by
  simp [sealed, payload]

lemma sealed_cut (key : List UInt8) :
    (sealed key).take ((sealed key).length - 2) = payload key ∧
      (sealed key).drop ((sealed key).length - 2)
        = Checksum.littleEndian (Checksum.ofBytes (payload key)) := by
  have hlen : (sealed key).length - 2 = (payload key).length := by
    rw [length_sealed, payload, List.length_cons]
    omega
  rw [hlen, sealed]
  exact ⟨List.take_left, List.drop_left⟩

/-- The bytes that pass are those of the addresses of keys, whatever the length of the key. -/
lemma checkBytes_eq_ok_iff {bs : List UInt8} (hlen : 2 < bs.length) :
    checkBytes bs = .ok () ↔ ∃ key, bs = sealed key := by
  constructor
  · intro h
    unfold checkBytes at h
    dsimp only at h
    split at h
    · cases h
    · next hversion =>
      split at h
      · cases h
      · next hsum =>
        have hhead : (bs.take (bs.length - 2)).head? = some version := by
          rw [List.head?_take, if_neg (by omega)]
          exact not_not.1 hversion
        obtain ⟨key, hkey⟩ := List.head?_eq_some_iff.1 hhead
        have hdrop := Checksum.eq_littleEndian (by rw [List.length_drop]; omega) (not_not.1 hsum)
        refine ⟨key, ?_⟩
        rw [sealed, payload, ← hkey, ← hdrop, List.take_append_drop]
  · rintro ⟨key, rfl⟩
    obtain ⟨htake, hdrop⟩ := sealed_cut key
    unfold checkBytes
    dsimp only
    rw [htake, hdrop, Checksum.ofLittleEndian_littleEndian, if_neg (by simp [sealed, payload]),
      if_neg (by simp)]

/-- The version byte shows in the first character. -/
lemma head_of_decode {cs : List Char} {bs : List UInt8}
    (h : Base32.decode cs = some (version :: bs)) : cs.head? = some 'G' := by
  obtain ⟨ns, count, hns, rfl, -, -, hbs⟩ := Base32.decode_eq_some h
  obtain ⟨rest, -, hbits⟩ := Base32.exists_rest (ns.flatMap (Base32.bits 5))
  rw [← hbs, List.flatMap_cons, List.append_assoc] at hbits
  cases ns with
  | nil => cases hbits
  | cons n ns =>
    have hfirst : Base32.bits 5 n = [false, false, true, true, false] := by
      rw [List.flatMap_cons] at hbits
      have := congrArg (List.take 5) hbits
      rw [List.take_left' (Base32.length_bits 5 n)] at this
      exact this.symm
    have hlt : n < 2 ^ 5 := hns n (by simp)
    have hn : n = 6 := by
      have := Base32.ofBits_bits hlt
      rw [hfirst] at this
      exact this.symm
    rw [hn]
    rfl

/-- A text passes if it has the length of an address and stands for the bytes of one. -/
lemma checkText_eq_ok_iff {cs : List Char} :
    checkText cs = .ok () ↔ cs.length = length ∧ ∃ key, Base32.decode cs = some (sealed key) := by
  unfold checkText
  split
  · next hlen => simp [hlen]
  · next hlen =>
    have hlen := not_not.1 hlen
    cases hd : Base32.decode cs with
    | none => split <;> simp
    | some bs =>
      have hbytes : 2 < bs.length := by
        obtain ⟨count, hcount, hbs, -⟩ := Base32.length_of_decode hd
        rw [hlen, length] at hbs
        have hle : count ≤ 6 := by
          have hall : ∀ n ∈ Base32.paddingCounts, n ≤ 6 := by decide
          exact hall count hcount
        omega
      simp only [Option.some.injEq, hlen, true_and, ← checkBytes_eq_ok_iff hbytes]
      split
      · next hinitial =>
        -- Nothing is lost by the check of the first character: the version byte forces it.
        refine ⟨nofun, fun hok => absurd ?_ hinitial⟩
        obtain ⟨key, rfl⟩ := (checkBytes_eq_ok_iff hbytes).1 hok
        exact head_of_decode hd
      · rfl

/-! ### Normal forms -/

lemma normalize_of_isAllBlank {s : String} (h : Text.isAllBlank s.toList = true) :
    normalize s = [] := by
  have hdrop : s.toList.dropWhile Text.isBlank = [] :=
    List.dropWhile_eq_nil_iff.2 (List.all_eq_true.1 h)
  rw [normalize, Text.strip, hdrop]
  rfl

lemma ofText_eq_ok_iff_checkText {s t : String} :
    ofText s = .ok t ↔ t.toList = normalize s ∧ checkText (normalize s) = .ok () := by
  unfold ofText
  split
  · next hblank =>
    refine ⟨nofun, ?_⟩
    rintro ⟨-, hok⟩
    rw [normalize_of_isAllBlank hblank] at hok
    cases hok
  · dsimp only
    cases checkText (normalize s) with
    | error fault => exact ⟨nofun, nofun⟩
    | ok u =>
      have hlist : String.ofList (normalize s) = t ↔ t.toList = normalize s := by
        rw [← String.toList_inj, String.toList_ofList, eq_comm]
      rw [Except.map, Except.ok.injEq, hlist]
      exact (and_iff_left rfl).symm

/-- The characters of addresses, which normal forms leave as they are. -/
def IsAddressChar (c : Char) : Prop := c = padding ∨ ∃ n < 32, c = Base32.digit n

lemma isAddressChar_of_decode {cs : List Char} {bs : List UInt8} (h : Base32.decode cs = some bs) :
    ∀ c ∈ cs, IsAddressChar c := by
  obtain ⟨ns, count, hns, rfl, -, -, -⟩ := Base32.decode_eq_some h
  intro c hc
  rcases List.mem_append.1 hc with hd | hp
  · obtain ⟨n, hn, rfl⟩ := List.mem_map.1 hd
    exact Or.inr ⟨n, hns n hn, rfl⟩
  · exact Or.inl (List.eq_of_mem_replicate hp)

lemma IsAddressChar.keeps {c : Char} (h : IsAddressChar c) :
    Text.isBlank c = false ∧ Text.upperChar c = [c] := by
  have hdigits : ∀ n < 32, Text.isBlank (Base32.digit n) = false ∧
      Text.upperChar (Base32.digit n) = [Base32.digit n] := by decide
  rcases h with rfl | ⟨n, hn, rfl⟩
  · decide
  · exact hdigits n hn

lemma normalize_ofList {cs : List Char} (h : ∀ c ∈ cs, IsAddressChar c) :
    normalize (String.ofList cs) = cs := by
  have hdrop : ∀ ds : List Char, (∀ c ∈ ds, IsAddressChar c) → ds.dropWhile Text.isBlank = ds := by
    intro ds hds
    cases ds with
    | nil => rfl
    | cons c ds => rw [List.dropWhile_cons, (hds c (by simp)).keeps.1]; rfl
  have hstrip : Text.strip cs = cs := by
    rw [Text.strip, hdrop cs h, Text.stripEnd, Text.dropEndWhile,
      hdrop cs.reverse (fun c hc => h c (List.mem_reverse.1 hc)), List.reverse_reverse]
  have hupper : cs.flatMap Text.upperChar = cs.flatMap fun c => [c] :=
    List.flatMap_congr fun c hc => (h c hc).keeps.2
  rw [normalize, String.toList_ofList, hstrip, Text.upper, hupper, List.flatMap_singleton']

/-- **An accepted text is accepted again, as it is.** -/
theorem ofText_of_ofText {s t : String} (h : ofText s = .ok t) : ofText t = .ok t := by
  obtain ⟨ht, hok⟩ := ofText_eq_ok_iff_checkText.1 h
  obtain ⟨-, key, hd⟩ := checkText_eq_ok_iff.1 hok
  have hself := normalize_ofList (isAddressChar_of_decode hd)
  rw [← ht, String.ofList_toList, ht] at hself
  rw [ofText_eq_ok_iff_checkText, hself]
  exact ⟨ht, hok⟩

/-! ### Which normal forms are accepted -/

/-- A text with padding that stands for the bytes of the address of a shorter key. -/
def IsPadded (cs : List Char) : Prop :=
  padding ∈ cs ∧ cs.length = length ∧
    ∃ key, 28 ≤ key.length ∧ key.length ≤ 31 ∧ Base32.decode cs = some (sealed key)

lemma five_dvd_sealed {key : List UInt8} (h : key.length = 32) : 5 ∣ (sealed key).length := by
  rw [length_sealed, h]
  decide

lemma length_ofKey {key : List UInt8} (h : key.length = 32) : (ofKey key).length = length := by
  obtain ⟨ns, -, hlen, -, henc⟩ := Base32.encode_eq_digits (five_dvd_sealed h)
  rw [length_sealed, h] at hlen
  have hkey : ofKey key = ns.map Base32.digit := henc
  rw [hkey, List.length_map, length]
  omega

lemma padding_notMem_ofKey {key : List UInt8} (h : key.length = 32) : padding ∉ ofKey key := by
  obtain ⟨ns, hns, -, -, henc⟩ := Base32.encode_eq_digits (five_dvd_sealed h)
  have hkey : ofKey key = ns.map Base32.digit := henc
  rw [hkey]
  exact Base32.padding_notMem_digits hns

lemma checkText_eq_ok_iff_ofKey {cs : List Char} :
    checkText cs = .ok () ↔ (∃ key, key.length = 32 ∧ cs = ofKey key) ∨ IsPadded cs := by
  rw [checkText_eq_ok_iff]
  constructor
  · rintro ⟨hlen, key, hd⟩
    obtain ⟨count, hcount, hbytes, hzero⟩ := Base32.length_of_decode hd
    rw [length_sealed, hlen, length] at hbytes
    -- The padding fixes how many bytes the text stands for: 35 without any, fewer with some.
    by_cases hpad : padding ∈ cs
    · have hcounts : ∀ n ∈ Base32.paddingCounts, n = 0 ∨ 0 < n ∧ n ≤ 6 := by decide
      rcases hcounts count hcount with hnone | hsome
      · exact absurd hpad (hzero.1 hnone)
      · exact Or.inr ⟨hpad, hlen, key, by omega, by omega, hd⟩
    · rw [hzero.2 hpad] at hbytes
      exact Or.inl ⟨key, by omega, (Base32.encode_of_decode hd hpad).symm⟩
  · rintro (⟨key, hkey, rfl⟩ | ⟨-, hlen, key, -, -, hd⟩)
    · exact ⟨length_ofKey hkey, key, Base32.decode_encode (five_dvd_sealed hkey)⟩
    · exact ⟨hlen, key, hd⟩

/-- **Which texts are accepted.** Reading a text gives its normal form, and succeeds exactly if that
is the address of a key of 32 bytes, which has no padding, or else a text with padding that stands
for a shorter key. -/
theorem ofText_eq_ok_iff (s t : String) :
    ofText s = .ok t ↔ t.toList = normalize s ∧
      ((∃ key, key.length = 32 ∧ padding ∉ normalize s ∧ normalize s = ofKey key) ∨
        IsPadded (normalize s)) := by
  rw [ofText_eq_ok_iff_checkText, checkText_eq_ok_iff_ofKey]
  refine and_congr_right fun _ => or_congr_left ?_
  constructor
  · rintro ⟨key, hkey, he⟩
    exact ⟨key, hkey, he ▸ padding_notMem_ofKey hkey, he⟩
  · rintro ⟨key, hkey, -, he⟩
    exact ⟨key, hkey, he⟩

/-- The padded text of a key of 31 zero bytes is accepted, and is the address of no key of 32. -/
theorem ofText_padded_zeros :
    let s := "GAAAAAAAAAAAAAAAAAAAAAAAAAAAAAAAAAAAAAAAAAAAAAAAAAAG4XI="
    ofText s = .ok s ∧ ¬ ∃ key, key.length = 32 ∧ normalize s = ofKey key := by
  intro s
  have hnormal : normalize s = s.toList := by decide +kernel
  refine ⟨by decide +kernel, ?_⟩
  rintro ⟨key, hkey, he⟩
  have hpad : padding ∈ s.toList := by decide +kernel
  rw [← hnormal, he] at hpad
  exact padding_notMem_ofKey hkey hpad

end Address

end StellarWallet
