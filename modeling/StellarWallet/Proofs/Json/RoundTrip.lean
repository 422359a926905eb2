import StellarWallet.Failure.Fault
import StellarWallet.Proofs.Json.Numeral
import StellarWallet.Proofs.Json.Quoted

/-!
Values read back from their JSON text.

A value reads back if it could have been read at all: its objects have no key twice, there are no
bytes in it, its numbers read back, and it goes no deeper than the reader does.
-/

namespace StellarWallet

namespace Value

mutual
/-- The numbers in a value. -/
def numbers : Value → List Number
  | .number n => [n]
  | .list items => itemNumbers items
  | .object fields => fieldNumbers fields
  | _ => []

def itemNumbers : List Value → List Number
  | [] => []
  | v :: r => v.numbers ++ itemNumbers r

def fieldNumbers : List (String × Value) → List Number
  | [] => []
  | (_, v) :: r => v.numbers ++ fieldNumbers r
end

mutual
/-- No object in the value has a key twice, and there are no bytes in it. -/
def IsWellFormed : Value → Prop
  | .bytes _ => False
  | .list items => AreWellFormed items
  | .object fields => (fields.map Prod.fst).Nodup ∧ FieldsWellFormed fields
  | _ => True

def AreWellFormed : List Value → Prop
  | [] => True
  | v :: r => v.IsWellFormed ∧ AreWellFormed r

def FieldsWellFormed : List (String × Value) → Prop
  | [] => True
  | (_, v) :: r => v.IsWellFormed ∧ FieldsWellFormed r
end

mutual
/-- How many lists and objects stand in each other in the value. -/
def depth : Value → Nat
  | .list items => itemDepth items + 1
  | .object fields => fieldDepth fields + 1
  | _ => 0

def itemDepth : List Value → Nat
  | [] => 0
  | v :: r => max v.depth (itemDepth r)

def fieldDepth : List (String × Value) → Nat
  | [] => 0
  | (_, v) :: r => max v.depth (fieldDepth r)
end

lemma areWellFormed_iff {items : List Value} :
    AreWellFormed items ↔ ∀ v ∈ items, v.IsWellFormed := by
  induction items with
  | nil => simp [AreWellFormed]
  | cons v r ih => rw [AreWellFormed, ih, List.forall_mem_cons]

lemma fieldsWellFormed_iff {fields : List (String × Value)} :
    FieldsWellFormed fields ↔ ∀ f ∈ fields, f.2.IsWellFormed := by
  induction fields with
  | nil => simp [FieldsWellFormed]
  | cons f r ih => rw [FieldsWellFormed, ih, List.forall_mem_cons]

lemma mem_itemNumbers {items : List Value} {n : Number} :
    n ∈ itemNumbers items ↔ ∃ v ∈ items, n ∈ v.numbers := by
  induction items with
  | nil => simp [itemNumbers]
  | cons v r ih => simp [itemNumbers, ih]

lemma mem_fieldNumbers {fields : List (String × Value)} {n : Number} :
    n ∈ fieldNumbers fields ↔ ∃ f ∈ fields, n ∈ f.2.numbers := by
  induction fields with
  | nil => simp [fieldNumbers]
  | cons f r ih => simp [fieldNumbers, ih]

lemma itemDepth_le_iff {items : List Value} {n : Nat} :
    itemDepth items ≤ n ↔ ∀ v ∈ items, v.depth ≤ n := by
  induction items with
  | nil => simp [itemDepth]
  | cons v r ih => rw [itemDepth, Nat.max_le, ih, List.forall_mem_cons]

lemma fieldDepth_le_iff {fields : List (String × Value)} {n : Nat} :
    fieldDepth fields ≤ n ↔ ∀ f ∈ fields, f.2.depth ≤ n := by
  induction fields with
  | nil => simp [fieldDepth]
  | cons f r ih => rw [fieldDepth, Nat.max_le, ih, List.forall_mem_cons]

/-- A well-formed value whose numbers have a property, and which has room where only so many lists
and objects may stand in each other. -/
structure IsPlain (p : Number → Prop) (room : Nat) (v : Value) : Prop where
  wellFormed : v.IsWellFormed
  numbers : ∀ n ∈ v.numbers, p n
  depth_le : v.depth ≤ room

variable {p : Number → Prop} {room : Nat}

lemma isPlain_list {items : List Value} :
    IsPlain p room (.list items) ↔ 1 ≤ room ∧ ∀ v ∈ items, IsPlain p (room - 1) v := by
  constructor
  · rintro ⟨hw, hn, hd⟩
    rw [depth] at hd
    refine ⟨by omega, fun v hv => ⟨areWellFormed_iff.1 hw v hv, fun n hnv => hn n ?_, ?_⟩⟩
    · exact mem_itemNumbers.2 ⟨v, hv, hnv⟩
    · exact itemDepth_le_iff.1 (by omega) v hv
  · rintro ⟨hroom, h⟩
    refine ⟨areWellFormed_iff.2 fun v hv => (h v hv).wellFormed, ?_, ?_⟩
    · intro n hn
      obtain ⟨v, hv, hnv⟩ := mem_itemNumbers.1 hn
      exact (h v hv).numbers n hnv
    · have hitems : itemDepth items ≤ room - 1 := itemDepth_le_iff.2 fun v hv => (h v hv).depth_le
      rw [depth]
      omega

lemma isPlain_object {fields : List (String × Value)} : IsPlain p room (.object fields) ↔
    1 ≤ room ∧ (fields.map Prod.fst).Nodup ∧ ∀ f ∈ fields, IsPlain p (room - 1) f.2 := by
  constructor
  · rintro ⟨⟨hk, hw⟩, hn, hd⟩
    rw [depth] at hd
    refine ⟨by omega, hk,
      fun f hf => ⟨fieldsWellFormed_iff.1 hw f hf, fun n hnf => hn n ?_, ?_⟩⟩
    · exact mem_fieldNumbers.2 ⟨f, hf, hnf⟩
    · exact fieldDepth_le_iff.1 (by omega) f hf
  · rintro ⟨hroom, hk, h⟩
    refine ⟨⟨hk, fieldsWellFormed_iff.2 fun f hf => (h f hf).wellFormed⟩, ?_, ?_⟩
    · intro n hn
      obtain ⟨f, hf, hnf⟩ := mem_fieldNumbers.1 hn
      exact (h f hf).numbers n hnf
    · have hfields : fieldDepth fields ≤ room - 1 :=
        fieldDepth_le_iff.2 fun f hf => (h f hf).depth_le
      rw [depth]
      omega

lemma isPlain_number {n : Number} : IsPlain p room (.number n) ↔ p n := by
  constructor
  · rintro ⟨-, hn, -⟩
    exact hn n (by simp [numbers])
  · intro h
    refine ⟨trivial, ?_, Nat.zero_le room⟩
    intro m hm
    rw [numbers, List.mem_singleton] at hm
    rwa [hm]

lemma isPlain_text (s : String) : IsPlain p room (.text s) :=
  ⟨trivial, by simp [numbers], Nat.zero_le room⟩

lemma isPlain_null : IsPlain p room .null := ⟨trivial, by simp [numbers], Nat.zero_le room⟩

lemma isPlain_bool (b : Bool) : IsPlain p room (.bool b) :=
  ⟨trivial, by simp [numbers], Nat.zero_le room⟩

lemma IsPlain.imp {q : Number → Prop} {v : Value} (hp : IsPlain p room v) (h : ∀ n, p n → q n) :
    IsPlain q room v :=
  ⟨hp.wellFormed, fun n hn => h n (hp.numbers n hn), hp.depth_le⟩

lemma IsPlain.and {q : Number → Prop} {v : Value} (hp : IsPlain p room v)
    (hq : ∀ n ∈ v.numbers, q n) : IsPlain (fun n => p n ∧ q n) room v :=
  ⟨hp.wellFormed, fun n hn => ⟨hp.numbers n hn, hq n hn⟩, hp.depth_le⟩

end Value

lemma Fields.put_of_not_mem {α : Type} {key : String} {fields : List (String × α)}
    (h : key ∉ fields.map Prod.fst) (v : α) : Fields.put key v fields = fields ++ [(key, v)] := by
  induction fields with
  | nil => rfl
  | cons f r ih =>
    obtain ⟨k, w⟩ := f
    simp only [List.map_cons, List.mem_cons, not_or] at h
    rw [Fields.put, if_neg (Ne.symm h.1), ih h.2]
    rfl

namespace Json

variable {reader : Reader} {fuel room : Nat}

/-- A text that starts with a value starts neither with a blank nor with a closing bracket. -/
lemma ne_blank_of_readValue {cs : List Char} {p : Value × List Char}
    (h : reader.readValue fuel room cs = .ok p) :
    ∃ c r, cs = c :: r ∧ isJsonBlank c = false ∧ c ≠ ']' := by
  cases fuel with
  | zero => cases h
  | succ fuel =>
    cases cs with
    | nil => cases h
    | cons c r =>
      refine ⟨c, r, rfl, ?_⟩
      by_contra hc
      have hmem : c ∈ [' ', '\t', '\n', '\r', ']'] := by
        simp only [not_and_or, isJsonBlank] at hc
        simp only [Bool.not_eq_false, Bool.or_eq_true, decide_eq_true_eq, Decidable.not_not] at hc
        simp only [List.mem_cons, List.not_mem_nil, or_false]
        tauto
      have hnone : reader.readValue (fuel + 1) room (c :: r) = .error .malformed := by
        simp only [List.mem_cons, List.not_mem_nil, or_false] at hmem
        rcases hmem with rfl | rfl | rfl | rfl | rfl <;> rfl
      rw [hnone] at h
      cases h

lemma skipBlanks_of_readValue {cs : List Char} {p : Value × List Char}
    (h : reader.readValue fuel room cs = .ok p) : skipBlanks cs = cs := by
  obtain ⟨c, r, rfl, hc, -⟩ := ne_blank_of_readValue h
  simp [skipBlanks, hc]

lemma skipBlanks_cons {c : Char} (h : isJsonBlank c = false) (cs : List Char) :
    skipBlanks (c :: cs) = c :: cs := by
  simp [skipBlanks, h]

lemma skipBlanks_blank (cs : List Char) : skipBlanks (' ' :: cs) = skipBlanks cs := rfl

lemma endsNumber_cons {c : Char} (hc : c ∈ [',', ']', '}']) (cs : List Char) :
    EndsNumber (c :: cs) := by
  intro d r h
  obtain ⟨rfl, -⟩ := List.cons.inj h
  have hall : ∀ d ∈ [',', ']', '}'], d.isDigit = false ∧ d ∉ ['.', 'e', 'E', '+', '-'] :=
    List.all_iff_forall_prop.1 (by decide)
  exact hall c hc

/-- Items start with a value. -/
lemma ne_blank_of_readItems {cs : List Char} {p : List Value × List Char}
    (h : reader.readItems fuel room cs = .ok p) :
    ∃ c r, cs = c :: r ∧ isJsonBlank c = false ∧ c ≠ ']' := by
  cases fuel with
  | zero => cases h
  | succ fuel =>
    rw [Reader.readItems] at h
    obtain ⟨q, hq, -⟩ := bind_eq_ok h
    exact ne_blank_of_readValue hq

lemma readValue_list {cs rest : List Char} {vs : List Value}
    (h : reader.readItems fuel room cs = .ok (vs, rest)) :
    reader.readValue (fuel + 1) (room + 1) ('[' :: cs) = .ok (.list vs, rest) := by
  obtain ⟨c, r, rfl, hc, hne⟩ := ne_blank_of_readItems h
  rw [Reader.readValue, skipBlanks_cons hc]
  dsimp only
  split
  · next heq =>
    obtain ⟨rfl, -⟩ := List.cons.inj heq
    exact absurd rfl hne
  · rw [h]
    rfl

lemma readValue_object {cs rest : List Char} {fs : List (String × Value)}
    (h : reader.readFields fuel room [] ('"' :: cs) = .ok (fs, rest)) :
    reader.readValue (fuel + 1) (room + 1) ('{' :: '"' :: cs) = .ok (.object fs, rest) := by
  have hne : ∀ r, '"' :: cs ≠ '}' :: r := by
    intro r hr
    cases hr
  rw [Reader.readValue, skipBlanks_cons (by decide)]
  dsimp only
  split
  · next heq => exact absurd heq (hne _)
  · rw [h]
    rfl

lemma readItems_last {cs rest : List Char} {v : Value}
    (h : reader.readValue fuel room cs = .ok (v, ']' :: rest)) :
    reader.readItems (fuel + 1) room cs = .ok ([v], rest) := by
  rw [Reader.readItems, h]
  rfl

lemma readItems_more {cs more rest : List Char} {v : Value} {vs : List Value}
    (h : reader.readValue fuel room cs = .ok (v, ',' :: ' ' :: more))
    (hmore : reader.readItems fuel room more = .ok (vs, rest)) :
    reader.readItems (fuel + 1) room cs = .ok (v :: vs, rest) := by
  obtain ⟨c, r, rfl, hc, -⟩ := ne_blank_of_readItems hmore
  rw [Reader.readItems, h, ok_bind]
  dsimp only
  rw [skipBlanks_cons (by decide)]
  simp only [skipBlanks_blank, skipBlanks_cons hc, hmore]
  rfl

/-- A field after its opening quote, and what follows it. -/
lemma readFields_field {acc : List (String × Value)} (k : String) {cs rest : List Char} {v : Value}
    (h : reader.readValue fuel room cs = .ok (v, rest)) :
    reader.readFields (fuel + 1) room acc (quote k ++ ':' :: ' ' :: cs) =
      match skipBlanks rest with
      | '}' :: r => .ok (Fields.put k v acc, r)
      | ',' :: r => reader.readFields fuel room (Fields.put k v acc) (skipBlanks r)
      | _ => .error .malformed := by
  have hs := skipBlanks_of_readValue h
  rw [quote, List.cons_append, List.append_assoc, List.singleton_append, Reader.readFields,
    Reader.readString_quoted, ok_bind]
  dsimp only
  rw [skipBlanks_cons (by decide)]
  simp only [skipBlanks_blank, hs, h, ok_bind]
  rfl

lemma readFields_last {acc : List (String × Value)} (k : String) {cs rest : List Char} {v : Value}
    (h : reader.readValue fuel room cs = .ok (v, '}' :: rest)) :
    reader.readFields (fuel + 1) room acc (quote k ++ ':' :: ' ' :: cs)
      = .ok (Fields.put k v acc, rest) := by
  rw [readFields_field k h, skipBlanks_cons (by decide)]
  rfl

lemma readFields_more {acc : List (String × Value)} (k : String) {cs more : List Char} {v : Value}
    (h : reader.readValue fuel room cs = .ok (v, ',' :: ' ' :: more))
    (hblank : skipBlanks more = more) :
    reader.readFields (fuel + 1) room acc (quote k ++ ':' :: ' ' :: cs)
      = reader.readFields fuel room (Fields.put k v acc) more := by
  rw [readFields_field k h, skipBlanks_cons (by decide)]
  simp only [skipBlanks_blank, hblank]

lemma encodeItems_cons_cons (v w : Value) (items : List Value) :
    encodeItems (v :: w :: items) = encode v ++ ',' :: ' ' :: encodeItems (w :: items) := by
  rw [encodeItems, List.append_assoc]
  · rfl
  · exact List.cons_ne_nil _ _

lemma encodeFields_singleton (k : String) (v : Value) :
    encodeFields [(k, v)] = quote k ++ ':' :: ' ' :: encode v := by
  rw [encodeFields, List.append_assoc]
  rfl

lemma encodeFields_cons_cons (k : String) (v : Value) (f : String × Value)
    (fields : List (String × Value)) : encodeFields ((k, v) :: f :: fields)
      = quote k ++ ':' :: ' ' :: (encode v ++ ',' :: ' ' :: encodeFields (f :: fields)) := by
  rw [encodeFields]
  · simp only [List.append_assoc]
    rfl
  · exact List.cons_ne_nil _ _

/-- Fields start with a quote. -/
lemma encodeFields_eq_cons (f : String × Value) (fields : List (String × Value))
    (rest : List Char) : ∃ cs, encodeFields (f :: fields) ++ rest = '"' :: cs := by
  obtain ⟨k, v⟩ := f
  cases fields with
  | nil => rw [encodeFields_singleton]; exact ⟨_, rfl⟩
  | cons g fields => rw [encodeFields_cons_cons]; exact ⟨_, rfl⟩

lemma skipBlanks_encodeFields (f : String × Value) (fields : List (String × Value))
    (rest : List Char) : skipBlanks (encodeFields (f :: fields) ++ rest)
      = encodeFields (f :: fields) ++ rest := by
  obtain ⟨cs, hcs⟩ := encodeFields_eq_cons f fields rest
  rw [hcs, skipBlanks_cons (by decide)]

lemma length_encode_pos (v : Value) (hw : v.IsWellFormed) (hn : ∀ n ∈ v.numbers, IsReadable n) :
    0 < (encode v).length := by
  cases v with
  | null => decide
  | bool b => cases b <;> decide
  | number n =>
    have h : Reader.readValue {} 1 0 (numberText n ++ []) = .ok (.number n, []) :=
      readValue_numberText (hn n (by simp [Value.numbers])) endsNumber_nil 0 0
    obtain ⟨c, r, hc, -⟩ := ne_blank_of_readValue h
    rw [List.append_nil] at hc
    rw [encode, hc]
    exact Nat.succ_pos _
  | bytes bs => exact hw.elim
  | text s => exact Nat.succ_pos _
  | list items => exact Nat.succ_pos _
  | object fields => exact Nat.succ_pos _

mutual
/-- The text of a value in front of what ends a number. -/
theorem readValue_encode (v : Value) (fuel room : Nat) (rest : List Char) (hw : v.IsWellFormed)
    (hn : ∀ n ∈ v.numbers, IsReadable n) (hd : v.depth ≤ room) (hr : EndsNumber rest)
    (hf : 2 * (encode v).length ≤ fuel) :
    reader.readValue fuel room (encode v ++ rest) = .ok (v, rest) := by
  have hlength := length_encode_pos v hw hn
  obtain ⟨fuel, rfl⟩ : ∃ f, fuel = f + 1 := ⟨fuel - 1, by omega⟩
  cases v with
  | null => rfl
  | bool b => cases b <;> rfl
  | number n => exact readValue_numberText (hn n (by simp [Value.numbers])) hr fuel room
  | text s =>
    rw [encode, quote, List.cons_append, List.append_assoc, List.singleton_append, Reader.readValue,
      Reader.readString_quoted]
    rfl
  | bytes bs => exact hw.elim
  | list items =>
    rw [encode, List.cons_append, List.append_assoc, List.singleton_append]
    rw [encode, List.length_cons, List.length_append] at hf
    rw [Value.depth] at hd
    obtain ⟨room, rfl⟩ : ∃ r, room = r + 1 := ⟨room - 1, by omega⟩
    cases items with
    | nil => rfl
    | cons v items =>
      exact readValue_list (readItems_encode v items fuel room rest hw hn (by omega) (by omega))
  | object fields =>
    rw [encode, List.cons_append, List.append_assoc, List.singleton_append]
    rw [encode, List.length_cons, List.length_append] at hf
    rw [Value.depth] at hd
    obtain ⟨room, rfl⟩ : ∃ r, room = r + 1 := ⟨room - 1, by omega⟩
    obtain ⟨hkeys, hfields⟩ := hw
    cases fields with
    | nil => rfl
    | cons f fields =>
      have h := readFields_encode f fields fuel room [] rest hfields hn (by omega) hkeys (by omega)
      obtain ⟨cs, hcs⟩ := encodeFields_eq_cons f fields ('}' :: rest)
      rw [hcs] at h ⊢
      exact readValue_object h
  termination_by fuel

theorem readItems_encode (v : Value) (items : List Value) (fuel room : Nat) (rest : List Char)
    (hw : Value.AreWellFormed (v :: items))
    (hn : ∀ n ∈ Value.itemNumbers (v :: items), IsReadable n)
    (hd : Value.itemDepth (v :: items) ≤ room)
    (hf : 2 * (encodeItems (v :: items)).length + 1 ≤ fuel) :
    reader.readItems fuel room (encodeItems (v :: items) ++ ']' :: rest)
      = .ok (v :: items, rest) := by
  obtain ⟨hv, hitems⟩ := hw
  simp only [Value.itemNumbers, List.mem_append] at hn
  rw [Value.itemDepth] at hd
  obtain ⟨fuel, rfl⟩ : ∃ f, fuel = f + 1 := ⟨fuel - 1, by omega⟩
  cases items with
  | nil =>
    rw [encodeItems] at hf ⊢
    exact readItems_last (readValue_encode v fuel room (']' :: rest) hv (fun n h => hn n (Or.inl h))
      (by omega) (endsNumber_cons (by decide) rest) (by omega))
  | cons w items =>
    rw [encodeItems_cons_cons, List.length_append, List.length_cons, List.length_cons] at hf
    have hmore := readItems_encode w items fuel room rest hitems (fun n h => hn n (Or.inr h))
      (by omega) (by omega)
    have hone := readValue_encode v fuel room
      (',' :: ' ' :: (encodeItems (w :: items) ++ ']' :: rest)) hv (fun n h => hn n (Or.inl h))
      (by omega) (endsNumber_cons (by decide) _) (by omega)
    rw [encodeItems_cons_cons, List.append_assoc, List.cons_append, List.cons_append]
    exact readItems_more hone hmore
  termination_by fuel

theorem readFields_encode (f : String × Value) (fields : List (String × Value)) (fuel room : Nat)
    (acc : List (String × Value)) (rest : List Char)
    (hw : Value.FieldsWellFormed (f :: fields))
    (hn : ∀ n ∈ Value.fieldNumbers (f :: fields), IsReadable n)
    (hd : Value.fieldDepth (f :: fields) ≤ room)
    (hkeys : ((acc ++ f :: fields).map Prod.fst).Nodup)
    (hf : 2 * (encodeFields (f :: fields)).length + 1 ≤ fuel) :
    reader.readFields fuel room acc (encodeFields (f :: fields) ++ '}' :: rest)
      = .ok (acc ++ f :: fields, rest) := by
  obtain ⟨k, v⟩ := f
  obtain ⟨hv, hfields⟩ := hw
  simp only [Value.fieldNumbers, List.mem_append] at hn
  rw [Value.fieldDepth] at hd
  have hk : k ∉ acc.map Prod.fst := by
    rw [List.map_append, List.map_cons, List.nodup_append] at hkeys
    intro hmem
    exact hkeys.2.2 k hmem k (by simp) rfl
  have hput : Fields.put k v acc = acc ++ [(k, v)] := Fields.put_of_not_mem hk v
  obtain ⟨fuel, rfl⟩ : ∃ f, fuel = f + 1 := ⟨fuel - 1, by omega⟩
  cases fields with
  | nil =>
    rw [encodeFields_singleton] at hf ⊢
    simp only [List.length_append, List.length_cons] at hf
    have hone := readValue_encode v fuel room ('}' :: rest) hv (fun n h => hn n (Or.inl h))
      (by omega) (endsNumber_cons (by decide) rest) (by omega)
    rw [List.append_assoc, List.cons_append, List.cons_append, readFields_last k hone, hput]
  | cons g fields =>
    rw [encodeFields_cons_cons] at hf ⊢
    simp only [List.length_append, List.length_cons] at hf
    have hmore := readFields_encode g fields fuel room (acc ++ [(k, v)]) rest hfields
      (fun n h => hn n (Or.inr h)) (by omega) (by rw [List.append_assoc]; exact hkeys) (by omega)
    have hone := readValue_encode v fuel room
      (',' :: ' ' :: (encodeFields (g :: fields) ++ '}' :: rest)) hv (fun n h => hn n (Or.inl h))
      (by omega) (endsNumber_cons (by decide) _) (by omega)
    rw [List.append_assoc, List.cons_append, List.cons_append, List.append_assoc, List.cons_append,
      List.cons_append, readFields_more k hone (skipBlanks_encodeFields g fields _), hput, hmore,
      List.append_assoc]
    rfl
  termination_by fuel
end

/-- **Values read back from their text.** -/
theorem decode_encode {v : Value} (h : v.IsPlain IsReadable reader.depth) :
    reader.decode (encode v) = .ok v := by
  have hr : reader.readValue (2 * (encode v).length + 2) reader.depth (encode v ++ [])
      = .ok (v, []) :=
    readValue_encode v _ _ [] h.wellFormed h.numbers h.depth_le endsNumber_nil (by omega)
  rw [List.append_nil] at hr
  rw [Reader.decode, skipBlanks_of_readValue hr, hr]
  rfl

end Json

end StellarWallet
