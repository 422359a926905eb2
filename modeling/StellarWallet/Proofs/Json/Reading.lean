import Mathlib.Algebra.Group.Nat.Defs
import StellarWallet.Proofs.Json.RoundTrip
import StellarWallet.Storage.Json

/-!
What the reader makes of a text.

Whatever the text, no object that was read has a key twice, nothing that was read holds bytes, no
whole number that was read is too long to be read again, and nothing goes deeper than the reader.
A slot with room for its text is read, whatever the text.
-/

namespace StellarWallet

namespace Fields

variable {α : Type}

lemma mem_put {key : String} {v : α} {fields : List (String × α)} {f : String × α}
    (h : f ∈ put key v fields) : f = (key, v) ∨ f ∈ fields := by
  induction fields with
  | nil => exact Or.inl (List.mem_singleton.1 h)
  | cons g r ih =>
    obtain ⟨k, w⟩ := g
    rw [put] at h
    split at h
    · next hk =>
      subst hk
      rcases List.mem_cons.1 h with rfl | hf
      · exact Or.inl rfl
      · exact Or.inr (List.mem_cons_of_mem _ hf)
    · rcases List.mem_cons.1 h with rfl | hf
      · exact Or.inr (by simp)
      · rcases ih hf with hf | hf
        · exact Or.inl hf
        · exact Or.inr (List.mem_cons_of_mem _ hf)

/-- A key that is set is not set twice. -/
lemma nodup_put {key : String} {v : α} {fields : List (String × α)}
    (h : (fields.map Prod.fst).Nodup) : ((put key v fields).map Prod.fst).Nodup := by
  induction fields with
  | nil => simp [put]
  | cons g r ih =>
    obtain ⟨k, w⟩ := g
    rw [List.map_cons, List.nodup_cons] at h
    rw [put]
    split
    · rw [List.map_cons, List.nodup_cons]
      exact h
    · next hk =>
      rw [List.map_cons, List.nodup_cons]
      refine ⟨?_, ih h.2⟩
      intro hmem
      obtain ⟨⟨k', w'⟩, hf, rfl⟩ := List.mem_map.1 hmem
      rcases mem_put hf with heq | hf
      · exact hk (congrArg Prod.fst heq)
      · exact h.1 (List.mem_map.2 ⟨(k', w'), hf, rfl⟩)

end Fields

namespace Json

/-! ### Whole numbers -/

/-- A number of the kind that the reader makes. -/
def IsBounded : Number → Prop
  | .whole n => IsShort n
  | .real _ => True

lemma toNat_sub_lt_of_isDigit {c : Char} (h : c.isDigit = true) : c.toNat - '0'.toNat < 10 := by
  obtain ⟨-, hle⟩ := Char.isDigit_iff_toNat.1 h
  have hnine : '9'.toNat = '0'.toNat + 9 := rfl
  omega

lemma ofDigitChars_lt {ds : List Char} (h : ∀ c ∈ ds, c.isDigit = true) :
    Nat.ofDigitChars 10 ds 0 < 10 ^ ds.length := by
  induction ds with
  | nil => decide
  | cons c r ih =>
    have hc := toNat_sub_lt_of_isDigit (h c (by simp))
    have hr := ih fun x hx => h x (by simp [hx])
    rw [Nat.ofDigitChars_cons, Nat.ofDigitChars_eq_ofDigitChars_zero, List.length_cons,
      Nat.pow_succ, Nat.mul_zero, Nat.zero_add]
    have hmul : 10 ^ r.length * (c.toNat - '0'.toNat) ≤ 10 ^ r.length * 9 :=
      Nat.mul_le_mul_left _ (by omega)
    omega

lemma takeDigits_lt (cs : List Char) :
    (Numeral.takeDigits cs).1 < 10 ^ (Numeral.takeDigits cs).2.1 :=
  ofDigitChars_lt fun _ hc => List.mem_takeWhile_imp hc

lemma readWhole_lt {cs : List Char} {p : Nat × Nat × List Char} (h : readWhole cs = some p) :
    p.1 < 10 ^ p.2.1 := by
  unfold readWhole at h
  split at h
  · cases h
    exact Nat.pow_pos (by decide)
  · split at h
    · cases h
      exact takeDigits_lt _
    · cases h
  · cases h

lemma isShort_of_lt {n : Int} {count : Nat} (hn : n.natAbs < 10 ^ count)
    (hc : count ≤ Numeral.maxWholeDigits) : IsShort n := by
  rw [IsShort, Nat.length_toDigits_le_iff (by decide) (by decide)]
  exact Nat.lt_of_lt_of_le hn (Nat.pow_le_pow_right (by decide) hc)

lemma readNumber_isBounded {cs : List Char} {p : Number × List Char}
    (h : readNumber cs = some p) : IsBounded p.1 := by
  rw [readNumber_eq] at h
  obtain ⟨q, hq, hp⟩ := Option.bind_eq_some_iff.1 h
  have hlt := readWhole_lt hq
  unfold finishNumber at hp
  dsimp only at hp
  split at hp
  · split at hp
    · next hc =>
      cases hp
      refine isShort_of_lt ?_ hc
      split <;> omega
    · cases hp
  · cases hp
    trivial

/-! ### Values -/

lemma readScalar_isPlain {cs : List Char} {q : Value × List Char} (h : readScalar cs = .ok q)
    (room : Nat) : q.1.IsPlain IsBounded room := by
  unfold readScalar at h
  split at h
  · next found hw =>
    cases h
    have hv := readWord_isWord hw
    simp only [words, List.map_cons, List.map_nil, List.mem_cons, List.not_mem_nil, or_false] at hv
    rcases hv with h | h | h | h | h | h <;> rw [h]
    · exact Value.isPlain_null
    · exact Value.isPlain_bool true
    · exact Value.isPlain_bool false
    · exact Value.isPlain_number.2 trivial
    · exact Value.isPlain_number.2 trivial
    · exact Value.isPlain_number.2 trivial
  · split at h
    · next hn =>
      cases h
      exact Value.isPlain_number.2 (readNumber_isBounded hn)
    · cases h

/-- What readers with some fuel make. -/
structure Reader.ReadsPlain (reader : Reader) (fuel : Nat) : Prop where
  value : ∀ room cs p, reader.readValue fuel room cs = .ok p → p.1.IsPlain IsBounded room
  items : ∀ room cs p, reader.readItems fuel room cs = .ok p →
    ∀ v ∈ p.1, v.IsPlain IsBounded room
  fields : ∀ room acc cs p, (Value.object acc).IsPlain IsBounded (room + 1) →
    reader.readFields fuel room acc cs = .ok p →
    (Value.object p.1).IsPlain IsBounded (room + 1)

variable {reader : Reader} {fuel : Nat}

namespace Reader.ReadsPlain

lemma value_succ (h : reader.ReadsPlain fuel) (room : Nat) (cs : List Char) (p : Value × List Char)
    (hp : reader.readValue (fuel + 1) room cs = .ok p) : p.1.IsPlain IsBounded room := by
  unfold readValue at hp
  split at hp
  · obtain ⟨⟨s, rest⟩, -, rfl⟩ := map_eq_ok hp
    exact Value.isPlain_text s
  · split at hp
    · cases hp
    · next room =>
      dsimp only at hp
      split at hp
      · cases hp
        exact Value.isPlain_list.2 ⟨Nat.le_add_left 1 room, List.forall_mem_nil _⟩
      · obtain ⟨⟨vs, rest⟩, hvs, rfl⟩ := map_eq_ok hp
        exact Value.isPlain_list.2 ⟨Nat.le_add_left 1 room, h.items _ _ _ hvs⟩
  · split at hp
    · cases hp
    · next room =>
      have hempty : (Value.object []).IsPlain IsBounded (room + 1) :=
        Value.isPlain_object.2 ⟨Nat.le_add_left 1 room, List.nodup_nil, List.forall_mem_nil _⟩
      dsimp only at hp
      split at hp
      · cases hp
        exact hempty
      · obtain ⟨⟨fs, rest⟩, hfs, rfl⟩ := map_eq_ok hp
        exact h.fields room [] _ _ hempty hfs
  · exact readScalar_isPlain hp room

lemma items_succ (h : reader.ReadsPlain fuel) (room : Nat) (cs : List Char)
    (p : List Value × List Char) (hp : reader.readItems (fuel + 1) room cs = .ok p) :
    ∀ v ∈ p.1, v.IsPlain IsBounded room := by
  rw [readItems] at hp
  obtain ⟨⟨v, rest⟩, hv, hp⟩ := bind_eq_ok hp
  have hfirst := h.value _ _ _ hv
  dsimp only at hp
  split at hp
  · cases hp
    exact List.forall_mem_singleton.2 hfirst
  · obtain ⟨⟨vs, rest'⟩, hvs, hp⟩ := bind_eq_ok hp
    cases hp
    exact List.forall_mem_cons.2 ⟨hfirst, h.items _ _ _ hvs⟩
  · cases hp

lemma isPlain_put {room : Nat} {acc : List (String × Value)} {k : String} {v : Value}
    (hacc : (Value.object acc).IsPlain IsBounded (room + 1)) (hv : v.IsPlain IsBounded room) :
    (Value.object (Fields.put k v acc)).IsPlain IsBounded (room + 1) := by
  rw [Value.isPlain_object] at hacc ⊢
  refine ⟨hacc.1, Fields.nodup_put hacc.2.1, ?_⟩
  intro f hf
  rcases Fields.mem_put hf with rfl | hf
  · exact hv
  · exact hacc.2.2 f hf

lemma fields_succ (h : reader.ReadsPlain fuel) (room : Nat) (acc : List (String × Value))
    (cs : List Char) (p : List (String × Value) × List Char)
    (hacc : (Value.object acc).IsPlain IsBounded (room + 1))
    (hp : reader.readFields (fuel + 1) room acc cs = .ok p) :
    (Value.object p.1).IsPlain IsBounded (room + 1) := by
  unfold readFields at hp
  split at hp
  · obtain ⟨⟨k, rest⟩, -, hp⟩ := bind_eq_ok hp
    dsimp only at hp
    split at hp
    · obtain ⟨⟨v, rest'⟩, hv, hp⟩ := bind_eq_ok hp
      have hput := isPlain_put (k := k) hacc (h.value _ _ _ hv)
      dsimp only at hp
      split at hp
      · cases hp
        exact hput
      · exact h.fields _ _ _ _ hput hp
      · cases hp
    · cases hp
  · cases hp

end Reader.ReadsPlain

lemma readsPlain (reader : Reader) (fuel : Nat) : reader.ReadsPlain fuel := by
  induction fuel with
  | zero =>
    refine ⟨?_, ?_, ?_⟩
    · intro room cs p hp
      cases hp
    · intro room cs p hp
      cases hp
    · intro room acc cs p hacc hp
      cases hp
  | succ fuel ih => exact ⟨ih.value_succ, ih.items_succ, ih.fields_succ⟩

/-- What was read is well formed, its whole numbers are short, and the reader has room for it. -/
theorem isPlain_of_decode {cs : List Char} {v : Value} (h : reader.decode cs = .ok v) :
    v.IsPlain IsBounded reader.depth := by
  unfold Reader.decode at h
  split at h
  · next hr =>
    split at h
    · cases h
      exact (readsPlain reader _).value _ _ _ hr
    · cases h
  · cases h

/-- The lists and objects of a text do not go too deep for a reader. -/
def Reader.HasRoom (reader : Reader) (text : String) : Prop :=
  ∀ what, reader.read text ≠ .error (.tooDeep what)

variable {text : String}

lemma Reader.hasRoom_of_isOk (h : (reader.read text).isOk = true) : reader.HasRoom text := by
  intro what hdeep
  rw [hdeep] at h
  cases h

end Json

namespace Storage

open Json (Reader)

variable {s : Storage} {key : String} {reader : Reader}

/-- What is read from a text is plain. -/
lemma isPlain_of_readText {text : String} {v : Value} (h : readText reader text = .ok v) :
    v.IsPlain Json.IsBounded reader.depth := by
  unfold readText at h
  split at h
  · next hr =>
    cases h
    exact Json.isPlain_of_decode hr
  · cases h
    exact Value.isPlain_null
  · cases h

/-- A text that is no JSON text reads as null, unless it goes too deep. -/
lemma readText_of_hasRoom {text : String} (h : reader.HasRoom text) :
    readText reader text = .ok ((reader.read? text).getD .null) := by
  rw [readText, Reader.read?]
  cases hr : reader.read text with
  | ok v => rfl
  | error fault =>
    cases fault with
    | malformed => rfl
    | tooDeep what => exact absurd hr (h what)

/-- The value of a slot that can be read. -/
lemma readJson_of_get {text? : Option String} (hslot : s.get key = .ok text?)
    (hroom : ∀ text ∈ text?, s.reader.HasRoom text) :
    s.readJson key = .ok ((text?.bind s.reader.read?).getD .null) := by
  rw [readJson, hslot, ok_bind]
  cases text? with
  | none => rfl
  | some text => exact readText_of_hasRoom (hroom text rfl)

/-- What is read from a slot is plain. -/
lemma isPlain_of_readJson {v : Value} (h : s.readJson key = .ok v) :
    v.IsPlain Json.IsBounded s.reader.depth := by
  unfold readJson at h
  obtain ⟨text?, -, h⟩ := bind_eq_ok h
  cases text? with
  | none =>
    cases h
    exact Value.isPlain_null
  | some text => exact isPlain_of_readText h

end Storage

end StellarWallet
