import StellarWallet.Proofs.Redaction.Words

/-!
What redaction leaves in each place of a log context.

A place is given by the steps down to it. Places that no sensitive key and no list inside a list
leads to are redacted however deep they are, and the field of a sensitive key is hidden as a whole.
A list inside a list stays as it is, with all that is in it.
-/

namespace StellarWallet

/-- A step down into a value: to a field of an object, which has a key, or to an item of a list. -/
inductive Hop where
  | field (position : Nat) (key : String)
  | item (position : Nat)

namespace Value

/-- What stands in a place of a value. -/
def at? : List Hop → Value → Option Value
  | [], v => some v
  | .field i key :: place, .object fields =>
    (fields[i]?.filter (·.1 = key)).bind fun field => at? place field.2
  | .item i :: place, .list items => items[i]?.bind (at? place)
  | _ :: _, _ => none

end Value

namespace Redaction

/-- The lower-case form of the key contains one of the sensitive words. -/
def IsSensitive (key : String) : Prop :=
  ∃ w ∈ ["secret", "password", "seed"], w.toList <:+: Text.searchForm key.toList

/-- The step is not to the field of a sensitive key. -/
def IsOpen : Hop → Prop
  | .field _ key => ¬ IsSensitive key
  | .item _ => True

/-- No sensitive key leads to the place, and no list inside a list. -/
structure IsReached (place : List Hop) : Prop where
  isOpen : ∀ hop ∈ place, IsOpen hop
  noListInList : ∀ i j before after, place ≠ before ++ .item i :: .item j :: after

/-- What may stand in a place after redaction: a redacted text, an object with the same keys in the
same order, a list of the same length, and anything else as it was. -/
inductive Cleans (keepAddresses : Bool) : Value → Value → Prop where
  | text (s : String) : Cleans keepAddresses (.text s) (.text (redact keepAddresses s))
  | object {fields fields' : List (String × Value)} (h : fields'.map (·.1) = fields.map (·.1)) :
      Cleans keepAddresses (.object fields) (.object fields')
  | list {items items' : List Value} (h : items'.length = items.length) :
      Cleans keepAddresses (.list items) (.list items')
  | scalar {v : Value} (text : ∀ s, v ≠ .text s) (list : ∀ items, v ≠ .list items)
      (object : ∀ fields, v ≠ .object fields) : Cleans keepAddresses v v

lemma isSensitiveKey_iff {key : String} : isSensitiveKey key = true ↔ IsSensitive key := by
  simp [isSensitiveKey, sensitiveWords, IsSensitive, Text.hasInfix_iff]

/-! ### Steps down -/

/-- Redacts what a step leads to. -/
def redactUnder (keepAddresses : Bool) : Hop → Value → Value
  | .field _ key, v => if isSensitiveKey key then .text (String.ofList mask)
    else redactValue keepAddresses v
  | .item _, .list items => .list items
  | .item _, v => redactValue keepAddresses v

variable {keepAddresses : Bool} {hop : Hop} {place : List Hop} {v w : Value}

lemma redactFields_eq_map (fields : List (String × Value)) : redactFields keepAddresses fields
    = fields.map fun field => (field.1, redactUnder keepAddresses (.field 0 field.1) field.2) := by
  induction fields with
  | nil => rfl
  | cons field r ih => rw [redactFields, ih]; rfl

lemma redactItems_eq_map (items : List Value) : redactItems keepAddresses items
    = items.map (redactUnder keepAddresses (.item 0)) := by
  induction items with
  | nil => rfl
  | cons item r ih => cases item <;> simp [redactItems, redactUnder, redactValue, ih]

lemma at?_cons (hop : Hop) (place : List Hop) (v : Value) :
    v.at? (hop :: place) = (v.at? [hop]).bind (Value.at? place) := by
  cases hop <;> cases v <;> simp [Value.at?, Option.bind_assoc]

/-- A redacted value leads on as the value does, to what redaction makes of it. -/
lemma at?_redactValue (hop : Hop) (place : List Hop) (v : Value) :
    (redactValue keepAddresses v).at? (hop :: place)
      = (v.at? [hop]).bind fun u => (redactUnder keepAddresses hop u).at? place := by
  cases hop with
  | field i key =>
    cases v with
    | object fields =>
      rw [redactValue, redactFields_eq_map, Value.at?, Value.at?, List.getElem?_map]
      cases fields[i]? with
      | none => rfl
      | some field => by_cases h : field.1 = key <;> simp [Option.filter, h, redactUnder, Value.at?]
    | _ => rfl
  | item i =>
    cases v with
    | list items =>
      rw [redactValue, redactItems_eq_map, Value.at?, Value.at?, List.getElem?_map]
      cases items[i]? with
      | none => rfl
      | some item => cases item <;> rfl
    | _ => rfl

lemma redactUnder_eq (hopen : IsOpen hop) (h : ∀ i, hop = .item i → ∀ items, v ≠ .list items) :
    redactUnder keepAddresses hop v = redactValue keepAddresses v := by
  cases hop with
  | field i key => exact if_neg (by rw [isSensitiveKey_iff]; exact hopen)
  | item i =>
    cases v with
    | list items => exact absurd rfl (h i rfl items)
    | _ => rfl

lemma IsReached.tail (h : IsReached (hop :: place)) : IsReached place where
  isOpen := fun x hx => h.isOpen x (List.mem_cons_of_mem _ hx)
  noListInList := by
    rintro i j before after rfl
    exact h.noListInList i j (hop :: before) after rfl

/-- An item that a way leads on from, and not into it as into a list, is no list. -/
lemma ne_list_of_at? (hne : place ≠ []) (h : ∀ i rest, place ≠ .item i :: rest)
    (hv : v.at? place = some w) : ∀ items, v ≠ .list items := by
  rintro items rfl
  cases place with
  | nil => exact hne rfl
  | cons hop place =>
    cases hop with
    | field i key => cases hv
    | item i => exact h i place rfl

/-! ### Places -/

lemma cleans_redactValue (v : Value) : Cleans keepAddresses v (redactValue keepAddresses v) := by
  cases v with
  | text s => exact .text s
  | object fields => exact .object (by rw [redactFields_eq_map, List.map_map]; rfl)
  | list items => exact .list (by rw [redactItems_eq_map, List.length_map])
  | _ => exact .scalar (by simp) (by simp) (by simp)

lemma cleans_redactUnder (hopen : IsOpen hop) (v : Value) :
    Cleans keepAddresses v (redactUnder keepAddresses hop v) := by
  cases hop with
  | field i key => rw [redactUnder_eq hopen (by simp)]; exact cleans_redactValue v
  | item i =>
    cases v with
    | list items => exact .list rfl
    | _ => exact cleans_redactValue _

/-- A place that is reached is redacted. -/
lemma exists_at?_redactValue (h : IsReached place) (hv : v.at? place = some w) :
    ∃ w', (redactValue keepAddresses v).at? place = some w' ∧ Cleans keepAddresses w w' := by
  induction place generalizing v with
  | nil =>
    cases hv
    exact ⟨_, rfl, cleans_redactValue _⟩
  | cons hop place ih =>
    have hopen : IsOpen hop := h.isOpen hop List.mem_cons_self
    rw [at?_cons] at hv
    obtain ⟨u, hstep, hu⟩ := Option.bind_eq_some_iff.1 hv
    rw [at?_redactValue, hstep, Option.bind_some]
    by_cases hplace : place = []
    · subst hplace
      cases hu
      exact ⟨_, rfl, cleans_redactUnder hopen _⟩
    · have hlist : ∀ i, hop = .item i → ∀ items, u ≠ .list items := by
        rintro i rfl
        refine ne_list_of_at? hplace ?_ hu
        rintro j rest rfl
        exact h.noListInList i j [] rest rfl
      rw [redactUnder_eq hopen hlist]
      exact ih h.tail hu

/-- The field of a sensitive key is hidden where it is reached. -/
lemma at?_redactValue_sensitive {i : Nat} {key : String} (h : IsReached place)
    (hkey : IsSensitive key) (hv : v.at? (place ++ [.field i key]) = some w) :
    (redactValue keepAddresses v).at? (place ++ [.field i key])
      = some (.text (String.ofList mask)) := by
  induction place generalizing v with
  | nil =>
    rw [List.nil_append] at hv ⊢
    rw [at?_redactValue, hv, Option.bind_some, redactUnder, if_pos (isSensitiveKey_iff.2 hkey)]
    rfl
  | cons hop place ih =>
    rw [List.cons_append, at?_cons] at hv
    obtain ⟨u, hstep, hu⟩ := Option.bind_eq_some_iff.1 hv
    rw [List.cons_append, at?_redactValue, hstep, Option.bind_some]
    have hlist : ∀ j, hop = .item j → ∀ items, u ≠ .list items := by
      rintro j rfl
      refine ne_list_of_at? (by simp) ?_ hu
      cases place with
      | nil => simp
      | cons hop place =>
        rintro k rest he
        rw [List.cons_append] at he
        obtain ⟨rfl, -⟩ := List.cons.inj he
        exact h.noListInList j k [] place rfl
    rw [redactUnder_eq (h.isOpen hop List.mem_cons_self) hlist]
    exact ih h.tail hu

/-- A list that is an item of a list is left as it is. -/
lemma at?_redactValue_listInList (h : ∀ hop ∈ place, IsOpen hop) (i j : Nat) (rest : List Hop)
    (v : Value) : (redactValue keepAddresses v).at? (place ++ .item i :: .item j :: rest)
      = v.at? (place ++ .item i :: .item j :: rest) := by
  induction place generalizing v with
  | nil =>
    rw [List.nil_append, at?_redactValue, at?_cons (.item i) (.item j :: rest) v]
    cases v.at? [.item i] with
    | none => rfl
    | some u => cases u <;> rfl
  | cons hop place ih =>
    have hplace : ∀ x ∈ place, IsOpen x := fun x hx => h x (List.mem_cons_of_mem _ hx)
    rw [List.cons_append, at?_redactValue, at?_cons hop (place ++ .item i :: .item j :: rest) v]
    cases v.at? [hop] with
    | none => rfl
    | some u =>
      rw [Option.bind_some, Option.bind_some]
      by_cases hlist : ∃ k items, hop = .item k ∧ u = .list items
      · obtain ⟨k, items, rfl, rfl⟩ := hlist
        rfl
      · rw [redactUnder_eq (h hop List.mem_cons_self) fun k hk items hu =>
          hlist ⟨k, items, hk, hu⟩, ih hplace]

/-- Redaction adds no places. -/
lemma exists_of_at?_redactValue (h : (redactValue keepAddresses v).at? place = some w) :
    ∃ u, v.at? place = some u := by
  induction place generalizing v with
  | nil => exact ⟨v, rfl⟩
  | cons hop place ih =>
    rw [at?_redactValue] at h
    obtain ⟨u, hstep, hu⟩ := Option.bind_eq_some_iff.1 h
    rw [at?_cons, hstep, Option.bind_some]
    unfold redactUnder at hu
    split at hu
    · split at hu
      · cases place with
        | nil => exact ⟨u, rfl⟩
        | cons hop place => cases hop <;> cases hu
      · exact ih hu
    · exact ⟨w, hu⟩
    · exact ih hu

/-- What redaction makes of a context, place by place. -/
structure IsRedacted (keepAddresses : Bool) (whole cleaned : Value) : Prop where
  /-- Where no sensitive key leads, and no list inside a list. -/
  reached : ∀ place v, IsReached place → whole.at? place = some v →
    ∃ v', cleaned.at? place = some v' ∧ Cleans keepAddresses v v'
  /-- The field of a sensitive key. -/
  hidden : ∀ place i key v, IsReached place → IsSensitive key →
    whole.at? (place ++ [.field i key]) = some v →
    cleaned.at? (place ++ [.field i key]) = some (.text "[REDACTED]")
  /-- Inside a list that is an item of a list. -/
  listInList : ∀ place i j rest, (∀ hop ∈ place, IsOpen hop) →
    cleaned.at? (place ++ .item i :: .item j :: rest)
      = whole.at? (place ++ .item i :: .item j :: rest)
  /-- There is nothing else. -/
  places : ∀ place v', cleaned.at? place = some v' → ∃ v, whole.at? place = some v
  /-- No key stands as a word in a text that is reached. -/
  noKey : ∀ place s, IsReached place → cleaned.at? place = some (.text s) →
    ¬ HasKey 'S' s ∧ (keepAddresses = false → ¬ HasKey 'G' s)

/-- A text in a place that is reached is a redacted one. -/
lemma Cleans.text_eq {s : String} (h : Cleans keepAddresses v (.text s)) :
    ∃ s', s = redact keepAddresses s' := by
  cases h with
  | text s' => exact ⟨s', rfl⟩
  | scalar text list object => exact absurd rfl (text s)

/-- **Every place.** Redaction of a context reaches every place that neither a sensitive key nor a
list inside a list leads to, hides the fields of sensitive keys, leaves lists inside lists as they
are, and adds nothing. -/
theorem redactFields_isRedacted (keepAddresses : Bool) (fields : List (String × Value)) :
    IsRedacted keepAddresses (.object fields) (.object (redactFields keepAddresses fields)) where
  reached := fun _ _ h hv => exists_at?_redactValue h hv
  hidden := fun _ _ _ _ h hkey hv => at?_redactValue_sensitive h hkey hv
  listInList := fun _ i j rest h => at?_redactValue_listInList h i j rest (.object fields)
  places := fun _ _ h => exists_of_at?_redactValue h
  noKey := by
    intro place s h hs
    obtain ⟨v, hv⟩ := exists_of_at?_redactValue (v := .object fields) hs
    obtain ⟨v', hv', hc⟩ := exists_at?_redactValue h hv
    obtain rfl : v' = .text s := Option.some.inj (hv'.symm.trans hs)
    obtain ⟨s', rfl⟩ : ∃ s', s = redact keepAddresses s' := hc.text_eq
    refine ⟨not_hasSeed_redact keepAddresses s', ?_⟩
    rintro rfl
    exact not_hasAddress_redact s'

/-- A seed in a list inside a list survives redaction of its context. -/
theorem redactFields_list_in_list :
    let seed := "SAAAAAAAAAAAAAAAAAAAAAAAAAAAAAAAAAAAAAAAAAAAAAAAAAAAAAAA"
    let fields : List (String × Value) := [("notes", .list [.list [.text seed]])]
    let place : List Hop := [.field 0 "notes", .item 0, .item 0]
    (∀ hop ∈ place, IsOpen hop) ∧ (Value.object fields).at? place = some (.text seed) ∧
      HasKey 'S' seed ∧ redact true seed = "[SEED_REDACTED]" ∧
      (Value.object (redactFields true fields)).at? place = some (.text seed) := by
  intro seed fields place
  have hopen : ¬ IsSensitive "notes" := by
    rw [← isSensitiveKey_iff]
    decide
  have hword : seed.toList.all Text.isWordChar = true := by decide +kernel
  have hstands : Text.Stands seed.toList seed.toList :=
    ⟨by decide, List.all_eq_true.1 hword, [], [], by simp, by simp, by simp⟩
  have hplace : ∀ hop ∈ place, IsOpen hop :=
    List.forall_mem_cons.2 ⟨hopen, by simp [IsOpen]⟩
  refine ⟨hplace, rfl, ⟨_, hstands, isKeyWord_iff.1 ?_⟩, ?_, rfl⟩
  · decide
  · decide

end Redaction

end StellarWallet
