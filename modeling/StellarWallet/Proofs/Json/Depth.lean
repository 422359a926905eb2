import StellarWallet.Proofs.Json.Reading

/-!
How deep a reader goes.

The text of a value is read just if no more lists and objects stand in each other in the value than
the reader has room for. One that goes deeper ends the reading where the room is used up, whatever
stands in front of that place or after it.
-/

namespace StellarWallet

namespace Json

variable {reader : Reader}

/-- The reading has ended for want of room. -/
def GoesTooDeep {α : Type} (result : Except ReadFault α) : Prop :=
  ∃ what, result = .error (.tooDeep what)

lemma GoesTooDeep.bind {α β : Type} {result : Except ReadFault α} (h : GoesTooDeep result)
    (f : α → Except ReadFault β) : GoesTooDeep (result >>= f) := by
  obtain ⟨what, rfl⟩ := h
  exact ⟨what, rfl⟩

lemma GoesTooDeep.map {α β : Type} {result : Except ReadFault α} (h : GoesTooDeep result)
    (f : α → β) : GoesTooDeep (result.map f) := by
  obtain ⟨what, rfl⟩ := h
  exact ⟨what, rfl⟩

/-- The text of a value in front of anything starts with no blank and no closing bracket. -/
lemma encode_eq_cons {v : Value} (hw : v.IsWellFormed) (hn : ∀ n ∈ v.numbers, IsReadable n) :
    ∃ c r, encode v = c :: r ∧ isJsonBlank c = false ∧ c ≠ ']' := by
  have hread : Reader.readValue { depth := v.depth + 2, two_le_depth := by omega }
      (2 * (encode v).length) (v.depth + 2) (encode v ++ []) = .ok (v, []) :=
    readValue_encode v _ _ [] hw hn (by omega) endsNumber_nil le_rfl
  rw [List.append_nil] at hread
  exact ne_blank_of_readValue hread

/-- So do the items of a list. -/
lemma encodeItems_eq_cons {v : Value} (items : List Value) (rest : List Char)
    (hw : v.IsWellFormed) (hn : ∀ n ∈ v.numbers, IsReadable n) :
    ∃ c r, encodeItems (v :: items) ++ rest = c :: r ∧ isJsonBlank c = false ∧ c ≠ ']' := by
  obtain ⟨c, r, hcons, hc⟩ := encode_eq_cons hw hn
  cases items with
  | nil => exact ⟨c, _, by rw [encodeItems, hcons]; rfl, hc⟩
  | cons w items => exact ⟨c, _, by rw [encodeItems_cons_cons, hcons]; rfl, hc⟩

/-- The items of a list that is too deep for them. -/
lemma goesTooDeep_list {fuel room : Nat} {c : Char} {cs : List Char}
    (hc : isJsonBlank c = false) (hne : c ≠ ']')
    (h : GoesTooDeep (reader.readItems fuel room (c :: cs))) :
    GoesTooDeep (reader.readValue (fuel + 1) (room + 1) ('[' :: c :: cs)) := by
  rw [Reader.readValue, skipBlanks_cons hc]
  dsimp only
  split
  · next heq => exact absurd (List.cons.inj heq).1 hne
  · exact h.map _

/-- The fields of an object that is too deep for them. -/
lemma goesTooDeep_object {fuel room : Nat} {cs : List Char}
    (h : GoesTooDeep (reader.readFields fuel room [] ('"' :: cs))) :
    GoesTooDeep (reader.readValue (fuel + 1) (room + 1) ('{' :: '"' :: cs)) := by
  have hne : ∀ r, '"' :: cs ≠ '}' :: r := by
    intro r hr
    cases hr
  rw [Reader.readValue, skipBlanks_cons (by decide)]
  dsimp only
  split
  · next heq => exact absurd heq (hne _)
  · exact h.map _

/-- The value of a field that is too deep for it. -/
lemma goesTooDeep_field {fuel room : Nat} {acc : List (String × Value)} (k : String)
    {cs : List Char} (hblank : skipBlanks cs = cs)
    (h : GoesTooDeep (reader.readValue fuel room cs)) :
    GoesTooDeep (reader.readFields (fuel + 1) room acc (quote k ++ ':' :: ' ' :: cs)) := by
  rw [quote, List.cons_append, List.append_assoc, List.singleton_append, Reader.readFields,
    Reader.readString_quoted, ok_bind]
  dsimp only
  rw [skipBlanks_cons (by decide)]
  simp only [skipBlanks_blank, hblank]
  exact h.bind _

mutual
/-- The text of a value that goes too deep, whatever follows it. -/
theorem readValue_encode_deep (v : Value) (fuel room : Nat) (rest : List Char) (hw : v.IsWellFormed)
    (hn : ∀ n ∈ v.numbers, IsReadable n) (hd : room < v.depth)
    (hf : 2 * (encode v).length ≤ fuel) :
    GoesTooDeep (reader.readValue fuel room (encode v ++ rest)) := by
  have hlength := length_encode_pos v hw hn
  obtain ⟨fuel, rfl⟩ : ∃ f, fuel = f + 1 := ⟨fuel - 1, by omega⟩
  cases v with
  | list items =>
    rw [encode, List.cons_append, List.append_assoc, List.singleton_append]
    rw [encode, List.length_cons, List.length_append] at hf
    rw [Value.depth] at hd
    cases room with
    | zero => exact ⟨_, rfl⟩
    | succ room =>
      cases items with
      | nil => exact absurd (Nat.lt_of_succ_lt_succ hd) (Nat.not_lt_zero room)
      | cons v items =>
        have h := readItems_encode_deep v items fuel room rest hw hn (by omega) (by omega)
        obtain ⟨c, r, hcons, hc, hne⟩ := encodeItems_eq_cons items (']' :: rest) hw.1
          fun n hmem => hn n (List.mem_append_left _ hmem)
        rw [hcons] at h ⊢
        exact goesTooDeep_list hc hne h
  | object fields =>
    rw [encode, List.cons_append, List.append_assoc, List.singleton_append]
    rw [encode, List.length_cons, List.length_append] at hf
    rw [Value.depth] at hd
    cases room with
    | zero => exact ⟨_, rfl⟩
    | succ room =>
      cases fields with
      | nil => exact absurd (Nat.lt_of_succ_lt_succ hd) (Nat.not_lt_zero room)
      | cons f fields =>
        have h := readFields_encode_deep f fields fuel room [] rest hw.2 hn (by omega) (by omega)
        obtain ⟨cs, hcs⟩ := encodeFields_eq_cons f fields ('}' :: rest)
        rw [hcs] at h ⊢
        exact goesTooDeep_object h
  | _ => exact absurd hd (Nat.not_lt_zero room)
  termination_by fuel

theorem readItems_encode_deep (v : Value) (items : List Value) (fuel room : Nat) (rest : List Char)
    (hw : Value.AreWellFormed (v :: items))
    (hn : ∀ n ∈ Value.itemNumbers (v :: items), IsReadable n)
    (hd : room < Value.itemDepth (v :: items))
    (hf : 2 * (encodeItems (v :: items)).length + 1 ≤ fuel) :
    GoesTooDeep (reader.readItems fuel room (encodeItems (v :: items) ++ ']' :: rest)) := by
  obtain ⟨hv, hitems⟩ := hw
  simp only [Value.itemNumbers, List.mem_append] at hn
  rw [Value.itemDepth] at hd
  obtain ⟨fuel, rfl⟩ : ∃ f, fuel = f + 1 := ⟨fuel - 1, by omega⟩
  rw [Reader.readItems]
  cases items with
  | nil =>
    rw [encodeItems] at hf ⊢
    rw [Value.itemDepth, Nat.max_zero] at hd
    exact (readValue_encode_deep v fuel room (']' :: rest) hv (fun n h => hn n (Or.inl h)) hd
      (by omega)).bind _
  | cons w items =>
    rw [encodeItems_cons_cons, List.length_append, List.length_cons, List.length_cons] at hf
    rw [encodeItems_cons_cons, List.append_assoc, List.cons_append, List.cons_append]
    by_cases hone : room < v.depth
    · exact (readValue_encode_deep v fuel room _ hv (fun n h => hn n (Or.inl h)) hone
        (by omega)).bind _
    · -- The first item is read, and one of the others goes too deep.
      have hread : reader.readValue fuel room (encode v ++ ',' :: ' ' ::
          (encodeItems (w :: items) ++ ']' :: rest))
          = .ok (v, ',' :: ' ' :: (encodeItems (w :: items) ++ ']' :: rest)) :=
        readValue_encode v fuel room _ hv (fun n h => hn n (Or.inl h)) (by omega)
          (endsNumber_cons (by decide) _) (by omega)
      have hmore := readItems_encode_deep w items fuel room rest hitems
        (fun n h => hn n (Or.inr h)) (by omega) (by omega)
      obtain ⟨c, r, hcons, hc, -⟩ := encodeItems_eq_cons items (']' :: rest) hitems.1
        fun n h => hn n (Or.inr (List.mem_append_left _ h))
      rw [hcons] at hread hmore ⊢
      rw [hread, ok_bind]
      dsimp only
      rw [skipBlanks_cons (by decide)]
      simp only [skipBlanks_blank, skipBlanks_cons hc]
      exact hmore.bind _
  termination_by fuel

theorem readFields_encode_deep (f : String × Value) (fields : List (String × Value))
    (fuel room : Nat) (acc : List (String × Value)) (rest : List Char)
    (hw : Value.FieldsWellFormed (f :: fields))
    (hn : ∀ n ∈ Value.fieldNumbers (f :: fields), IsReadable n)
    (hd : room < Value.fieldDepth (f :: fields))
    (hf : 2 * (encodeFields (f :: fields)).length + 1 ≤ fuel) :
    GoesTooDeep (reader.readFields fuel room acc (encodeFields (f :: fields) ++ '}' :: rest)) := by
  obtain ⟨k, v⟩ := f
  obtain ⟨hv, hfields⟩ := hw
  simp only [Value.fieldNumbers, List.mem_append] at hn
  rw [Value.fieldDepth] at hd
  obtain ⟨fuel, rfl⟩ : ∃ f, fuel = f + 1 := ⟨fuel - 1, by omega⟩
  obtain ⟨c, r, hcons, hc, -⟩ := encode_eq_cons hv fun n h => hn n (Or.inl h)
  have hblank (more : List Char) : skipBlanks (encode v ++ more) = encode v ++ more := by
    rw [hcons, List.cons_append, skipBlanks_cons hc]
  cases fields with
  | nil =>
    rw [encodeFields_singleton] at hf ⊢
    simp only [List.length_append, List.length_cons] at hf
    rw [Value.fieldDepth, Nat.max_zero] at hd
    rw [List.append_assoc, List.cons_append, List.cons_append]
    exact goesTooDeep_field k (hblank _) (readValue_encode_deep v fuel room ('}' :: rest) hv
      (fun n h => hn n (Or.inl h)) hd (by omega))
  | cons g fields =>
    rw [encodeFields_cons_cons] at hf ⊢
    simp only [List.length_append, List.length_cons] at hf
    rw [List.append_assoc, List.cons_append, List.cons_append, List.append_assoc, List.cons_append,
      List.cons_append]
    by_cases hone : room < v.depth
    · exact goesTooDeep_field k (hblank _) (readValue_encode_deep v fuel room _ hv
        (fun n h => hn n (Or.inl h)) hone (by omega))
    · have hread : reader.readValue fuel room (encode v ++ ',' :: ' ' ::
          (encodeFields (g :: fields) ++ '}' :: rest))
          = .ok (v, ',' :: ' ' :: (encodeFields (g :: fields) ++ '}' :: rest)) :=
        readValue_encode v fuel room _ hv (fun n h => hn n (Or.inl h)) (by omega)
          (endsNumber_cons (by decide) _) (by omega)
      rw [readFields_more k hread (skipBlanks_encodeFields g fields _)]
      exact readFields_encode_deep g fields fuel room _ rest hfields (fun n h => hn n (Or.inr h))
        (by omega) (by omega)
  termination_by fuel
end

/-- **A value reads back just if it goes no deeper than the reader.** The text of one that goes
deeper ends the reading. -/
theorem decode_encode_by_depth {v : Value} (hw : v.IsWellFormed)
    (hn : ∀ n ∈ v.numbers, IsReadable n) :
    (v.depth ≤ reader.depth → reader.decode (encode v) = .ok v) ∧
      (reader.depth < v.depth → GoesTooDeep (reader.decode (encode v))) := by
  refine ⟨fun hd => decode_encode ⟨hw, hn, hd⟩, fun hd => ?_⟩
  obtain ⟨c, r, hcons, hc, -⟩ := encode_eq_cons hw hn
  have hblank : skipBlanks (encode v) = encode v := by rw [hcons, skipBlanks_cons hc]
  have h : GoesTooDeep (reader.readValue (2 * (encode v).length + 2) reader.depth
      (encode v ++ [])) :=
    readValue_encode_deep v _ reader.depth [] hw hn hd (by omega)
  obtain ⟨what, h⟩ := h
  rw [List.append_nil] at h
  exact ⟨what, by rw [Reader.decode, hblank, h]⟩

/-- A text that goes too deep has no value. -/
lemma read?_of_goesTooDeep {text : String} (h : GoesTooDeep (reader.read text)) :
    reader.read? text = none := by
  obtain ⟨what, h⟩ := h
  rw [Reader.read?, h]
  rfl

end Json

namespace Value

/-- Nothing, in so many lists that stand in each other. -/
def nested : Nat → Value
  | 0 => .null
  | n + 1 => .list [nested n]

lemma depth_nested (n : Nat) : (nested n).depth = n := by
  induction n with
  | zero => rfl
  | succ n ih => rw [nested, depth, itemDepth, itemDepth, ih, Nat.max_zero]

lemma isWellFormed_nested (n : Nat) : (nested n).IsWellFormed := by
  induction n with
  | zero => trivial
  | succ n ih => exact ⟨ih, trivial⟩

lemma numbers_nested (n : Nat) : (nested n).numbers = [] := by
  induction n with
  | zero => rfl
  | succ n ih => rw [nested, numbers, itemNumbers, itemNumbers, ih, List.append_nil]

end Value

namespace Json

variable {reader : Reader} {n : Nat}

/-- The text of an object whose first field goes too deep, whatever stands in the others. -/
lemma read_deepField {key : String} {fields : List (String × Value)} (h : reader.depth ≤ n)
    (hw : (Value.object ((key, .nested n) :: fields)).IsWellFormed)
    (hn : ∀ m ∈ Value.fieldNumbers fields, IsReadable m) :
    GoesTooDeep (reader.read
      (String.ofList (encode (.object ((key, .nested n) :: fields))))) := by
  rw [Reader.read, String.toList_ofList]
  refine (decode_encode_by_depth hw ?_).2 ?_
  · rw [Value.numbers, Value.fieldNumbers, Value.numbers_nested]
    exact hn
  · rw [Value.depth, Value.fieldDepth, Value.depth_nested]
    omega

end Json

end StellarWallet
