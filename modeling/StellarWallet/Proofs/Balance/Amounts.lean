import StellarWallet.Balance.Snapshot
import StellarWallet.Proofs.History.StoredForm

/-!
Amounts and balance lines of replies.

A value counts as an amount if it stands for a finite number that is not negative, and as zero
otherwise. Reading one fails only if it is a whole number that is too large, and a search for a line
only if it meets a line that is no object.
-/

namespace StellarWallet

/-- No number in the value is too large for binary64. -/
def Value.InRange (v : Value) : Prop := ∀ n ∈ v.numbers, ∃ x, n.toBinary64 = .ok x

namespace Value

lemma inRange_null : InRange .null := by
  simp [InRange, numbers]

lemma InRange.of_lookup {fields : List (String × Value)} {key : String} {v : Value}
    (h : InRange (.object fields)) (hv : Fields.lookup key fields = some v) : v.InRange := by
  intro n hn
  exact h n (mem_fieldNumbers.2 ⟨(key, v), Fields.mem_of_lookup hv, hn⟩)

lemma InRange.of_field {v w : Value} {key : String} (h : v.InRange)
    (hw : v.field? key = some w) : w.InRange := by
  cases v with
  | object fields => exact h.of_lookup hw
  | _ => cases hw

lemma InRange.of_item {items : List Value} {v : Value} (h : InRange (.list items))
    (hv : v ∈ items) : v.InRange := by
  intro n hn
  exact h n (mem_itemNumbers.2 ⟨v, hv, hn⟩)

end Value

namespace Amount

/-- A finite number that is not negative. -/
structure IsAmount (x : Binary64) : Prop where
  finite : x.isFinite = true
  not_negative : x.lt (.zero false) = false

instance (x : Binary64) : Decidable (IsAmount x) :=
  decidable_of_iff (x.isFinite = true ∧ x.lt (.zero false) = false)
    ⟨fun h => ⟨h.1, h.2⟩, fun h => ⟨h.finite, h.not_negative⟩⟩

lemma isAmount_zero : IsAmount (.zero false) := ⟨rfl, rfl⟩

/-- The number that a value stands for, by itself or as a text. -/
def number? : Value → Option Binary64
  | .number n => n.toBinary64.toOption
  | .text s => Numeral.read? s.toList
  | .bytes bs => (ascii? bs).bind Numeral.read?
  | _ => none

/-- What a value that may be missing counts as: zero unless it stands for an amount. -/
def counted (v? : Option Value) : Binary64 :=
  ((v?.bind number?).filter fun x => IsAmount x).getD (.zero false)

lemma isAmount_counted (v? : Option Value) : IsAmount (counted v?) := by
  rw [counted]
  cases hx : (v?.bind number?).filter fun x => IsAmount x with
  | none => exact isAmount_zero
  | some x => exact of_decide_eq_true (Option.filter_eq_some_iff.1 hx).2

lemma clamp_eq (x : Binary64) : clamp x = if IsAmount x then x else .zero false := by
  rw [clamp]
  refine if_congr ?_ rfl rfl
  rw [Bool.and_eq_true, Bool.not_eq_true']
  exact ⟨fun h => ⟨h.1, h.2⟩, fun h => ⟨h.finite, h.not_negative⟩⟩

lemma clamp_getD (x? : Option Binary64) :
    clamp (x?.getD (.zero false)) = (x?.filter fun x => IsAmount x).getD (.zero false) := by
  cases x? with
  | none => exact (clamp_eq _).trans (if_pos isAmount_zero)
  | some x =>
    rw [Option.getD_some, clamp_eq, Option.filter_some]
    by_cases h : IsAmount x <;> simp [h]

/-- The value is no whole number too large for binary64. -/
def IsCountable (v? : Option Value) : Prop :=
  ∀ n, v? = some (.number n) → ∃ x, n.toBinary64 = .ok x

lemma isCountable_of_inRange {v? : Option Value} (h : ∀ v ∈ v?, v.InRange) : IsCountable v? := by
  rintro n rfl
  exact h (.number n) rfl n (by simp [Value.numbers])

lemma ofValue?_eq {v? : Option Value} (h : IsCountable v?) : ofValue? v? = .ok (counted v?) := by
  cases v? with
  | none => rfl
  | some v =>
    cases v with
    | number n =>
      obtain ⟨x, hx⟩ := h n rfl
      have hread : number? (.number n) = some x := by rw [number?, hx]; rfl
      change clamp <$> n.toBinary64 = _
      rw [hx, counted, Option.bind_some, hread, ← clamp_getD]
      rfl
    | text s => exact congrArg Except.ok (clamp_getD _)
    | bytes bs => exact congrArg Except.ok (clamp_getD _)
    | _ => rfl

lemma ofValue?_of_not_isCountable {v? : Option Value} (h : ¬ IsCountable v?) :
    ofValue? v? = .error .overflow := by
  obtain ⟨n, hn⟩ := Classical.not_forall.1 h
  obtain ⟨rfl, hlarge⟩ := Classical.not_imp.1 hn
  change clamp <$> n.toBinary64 = _
  cases n with
  | real x => exact absurd ⟨x, rfl⟩ hlarge
  | whole n =>
    rw [Number.toBinary64] at hlarge ⊢
    split
    · next hfinite => exact absurd ⟨_, if_pos hfinite⟩ hlarge
    · rfl

end Amount

namespace LockedAmounts

/-- Where a reply tells the locked amount of an asset. -/
def place (a : Asset) (reply : Value) : Option Value :=
  (fields? reply).bind (Fields.lookup (Vocabulary.name a))

lemma inRange_fields {reply : Value} {fields : List (String × Value)} (h : reply.InRange)
    (hf : fields? reply = some fields) : Value.InRange (.object fields) := by
  cases reply with
  | object outer =>
    rw [fields?] at hf
    split at hf
    · next inner hl =>
      cases hf
      exact h.of_lookup hl
    · cases hf
      exact h
  | _ => cases hf

/-- The locked amounts of a reply can be read. -/
def AreCountable (reply : Value) : Prop := ∀ a, Amount.IsCountable (place a reply)

lemma areCountable_of_inRange {reply : Value} (h : reply.InRange) : AreCountable reply := by
  intro a
  refine Amount.isCountable_of_inRange fun v hv => ?_
  obtain ⟨fields, hf, hv⟩ := Option.bind_eq_some_iff.1 hv
  exact (inRange_fields h hf).of_lookup hv

lemma ofValue_eq {reply : Value} (h : AreCountable reply) :
    ofValue reply = .ok fun a => Amount.counted (place a reply) := by
  cases hf : fields? reply with
  | none =>
    have hplace (a : Asset) : place a reply = none := by rw [place, hf]; rfl
    simp only [ofValue, hf, hplace]
    rfl
  | some fields =>
    have hread (a : Asset) : Amount.ofValue? (Fields.lookup (Vocabulary.name a) fields)
        = .ok (Amount.counted (place a reply)) := by
      have hplace : place a reply = Fields.lookup (Vocabulary.name a) fields := by
        rw [place, hf]
        rfl
      rw [← hplace]
      exact Amount.ofValue?_eq (h a)
    simp only [ofValue, hf, hread]
    refine congrArg Except.ok (funext fun a => ?_)
    cases a <;> rfl

lemma ofValue_of_not_areCountable {reply : Value} (h : ¬ AreCountable reply) :
    ofValue reply = .error .overflow := by
  cases hf : fields? reply with
  | none =>
    refine absurd (fun a n hn => ?_) h
    rw [place, hf] at hn
    cases hn
  | some fields =>
    have hplace (a : Asset) : place a reply = Fields.lookup (Vocabulary.name a) fields := by
      rw [place, hf]
      rfl
    simp only [AreCountable, hplace] at h
    simp only [ofValue, hf]
    -- The first amount that cannot be read ends the reading.
    by_cases hxlm : Amount.IsCountable (Fields.lookup (Vocabulary.name Asset.xlm) fields)
    · by_cases husdc : Amount.IsCountable (Fields.lookup (Vocabulary.name Asset.usdc) fields)
      · have harenax : ¬ Amount.IsCountable (Fields.lookup (Vocabulary.name Asset.arenax) fields) :=
          fun harenax => h fun a => by cases a <;> assumption
        rw [Amount.ofValue?_eq hxlm, Amount.ofValue?_eq husdc,
          Amount.ofValue?_of_not_isCountable harenax]
        rfl
      · rw [Amount.ofValue?_eq hxlm, Amount.ofValue?_of_not_isCountable husdc]
        rfl
    · rw [Amount.ofValue?_of_not_isCountable hxlm]
      rfl

end LockedAmounts

namespace BalanceLine

/-- The lines of an account. -/
def lines (account : Value) : List (List (String × Value)) :=
  match account.field? "balances" with
  | some (.list items) => items.filterMap Value.object?
  | _ => []

/-- An account as the ledger describes it: an object whose lines, if there are any, are objects. -/
def IsAccount (account : Value) : Prop :=
  ∃ fields, account = .object fields ∧
    (Fields.lookup "balances" fields = none ∨ Fields.lookup "balances" fields = some .null ∨
      ∃ lines : List (List (String × Value)),
        Fields.lookup "balances" fields = some (.list (lines.map .object)))

/-- The items that stand for lines, unless something else stands there. -/
def items? (account : Value) : Option (List Value) :=
  match account.field? "balances" with
  | none => some []
  | some v =>
    if !v.isFilled then some []
    else match v with
      | .list items => some items
      | _ => none

lemma ofAccount_eq {account : Value} {items : List Value} (h : items? account = some items) :
    ofAccount account = .ok items ∧ lines account = items.filterMap Value.object? := by
  unfold items? at h
  unfold ofAccount lines
  split at h
  · next hv =>
    cases h
    rw [hv]
    exact ⟨rfl, rfl⟩
  · next v hv =>
    rw [hv]
    split at h
    · next hempty =>
      cases h
      refine ⟨if_pos hempty, ?_⟩
      cases v with
      | list items =>
        cases items with
        | nil => rfl
        | cons v r => cases hempty
      | _ => rfl
    · next hfilled =>
      split at h
      · cases h
        exact ⟨if_neg hfilled, rfl⟩
      · cases h

lemma items?_of_isAccount {account : Value} (h : IsAccount account) :
    items? account = some ((lines account).map .object) := by
  obtain ⟨fields, rfl, hnone | hnull | ⟨items, hitems⟩⟩ := h
  · simp only [items?, lines, Value.field?, hnone]
    rfl
  · simp only [items?, lines, Value.field?, hnull]
    rfl
  · have hobjects : (items.map Value.object).filterMap Value.object? = items := by
      rw [List.filterMap_map]
      exact List.filterMap_some
    simp only [items?, lines, Value.field?, hitems, hobjects]
    cases items with
    | nil => rfl
    | cons line r => rfl

/-! ### Searching -/

/-- What is no object comes after a line with the property, so that a search does not meet it. -/
def IsSearchable (p : List (String × Value) → Bool) (items : List Value) : Prop :=
  ∀ before v after, items = before ++ v :: after →
    (∃ fields, v = .object fields) ∨ ∃ fields, Value.object fields ∈ before ∧ p fields = true

section

variable {p : List (String × Value) → Bool} {fields : List (String × Value)} {v : Value}
  {items : List Value}

lemma isSearchable_map_object (ls : List (List (String × Value))) :
    IsSearchable p (ls.map .object) := by
  intro before v after h
  have hv : v ∈ ls.map Value.object := by
    rw [h]
    exact List.mem_append_right _ (List.mem_cons_self ..)
  obtain ⟨fields, -, rfl⟩ := List.mem_map.1 hv
  exact Or.inl ⟨fields, rfl⟩

lemma isSearchable_cons_object :
    IsSearchable p (.object fields :: items) ↔ p fields = true ∨ IsSearchable p items := by
  constructor
  · intro h
    by_cases hp : p fields = true
    · exact Or.inl hp
    · refine Or.inr fun before v after hitems => ?_
      obtain hv | ⟨found, hmem, hfound⟩ :=
        h (.object fields :: before) v after (by rw [hitems]; rfl)
      · exact Or.inl hv
      · rcases List.mem_cons.1 hmem with heq | hmem
        · cases heq
          exact absurd hfound hp
        · exact Or.inr ⟨found, hmem, hfound⟩
  · rintro h (_ | ⟨first, before⟩) v after hitems
    · cases hitems
      exact Or.inl ⟨fields, rfl⟩
    · cases hitems
      obtain hp | h := h
      · exact Or.inr ⟨fields, List.mem_cons_self .., hp⟩
      · obtain hv | ⟨found, hmem, hfound⟩ := h before v after rfl
        · exact Or.inl hv
        · exact Or.inr ⟨found, List.mem_cons_of_mem _ hmem, hfound⟩

lemma not_isSearchable_cons (h : v.object? = none) : ¬ IsSearchable p (v :: items) := by
  intro hs
  obtain ⟨fields, rfl⟩ | ⟨fields, hmem, -⟩ := hs [] v items rfl
  · cases h
  · cases hmem

lemma find?_eq (h : IsSearchable p items) :
    find? p items = .ok (((items.filterMap Value.object?).find? p).map .object) := by
  induction items with
  | nil => rfl
  | cons v r ih =>
    cases hv : v.object? with
    | none => exact absurd h (not_isSearchable_cons hv)
    | some fields =>
      obtain rfl : v = .object fields := by
        cases v with
        | object fields' => exact congrArg Value.object (Option.some.inj hv)
        | _ => cases hv
      rw [find?, List.filterMap_cons_some hv, List.find?_cons]
      cases hp : p fields with
      | true => rfl
      | false =>
        refine ih ((isSearchable_cons_object.1 h).resolve_left ?_)
        rw [hp]
        exact Bool.false_ne_true

lemma find?_of_not_isSearchable (h : ¬ IsSearchable p items) :
    find? p items = .error unreadable := by
  induction items with
  | nil => exact absurd (isSearchable_map_object (p := p) []) h
  | cons v r ih =>
    cases v with
    | object fields =>
      rw [isSearchable_cons_object, not_or] at h
      rw [find?, if_neg h.1]
      exact ih h.2
    | _ => rfl

end

/-- The amount on a line. -/
def amount (line : Option (List (String × Value))) : Binary64 :=
  Amount.counted (line.bind (Fields.lookup "balance"))

lemma bind_field?_map_object (line : Option (List (String × Value))) (key : String) :
    ((line.map Value.object).bind (·.field? key)) = line.bind (Fields.lookup key) := by
  cases line <;> rfl

lemma lineAmount_eq {line : Option (List (String × Value))}
    (h : Amount.IsCountable (line.bind (Fields.lookup "balance"))) :
    WalletSettings.lineAmount (line.map .object) = .ok (amount line) := by
  rw [WalletSettings.lineAmount, bind_field?_map_object, Amount.ofValue?_eq h]
  rfl

lemma lineAmount_of_not_isCountable {line : Option (List (String × Value))}
    (h : ¬ Amount.IsCountable (line.bind (Fields.lookup "balance"))) :
    WalletSettings.lineAmount (line.map .object) = .error ArithmeticFault.overflow.toFault := by
  rw [WalletSettings.lineAmount, bind_field?_map_object, Amount.ofValue?_of_not_isCountable h]
  rfl

lemma isCountable_of_inRange {account : Value} (h : account.InRange)
    {line : Option (List (String × Value))} (hline : ∀ l ∈ line, l ∈ lines account) :
    Amount.IsCountable (line.bind (Fields.lookup "balance")) := by
  refine Amount.isCountable_of_inRange fun v hv => ?_
  obtain ⟨l, hl, hlv⟩ := Option.bind_eq_some_iff.1 hv
  have hmem := hline l hl
  rw [lines] at hmem
  split at hmem
  · next items hitems =>
    obtain ⟨item, hitem, hobject⟩ := List.mem_filterMap.1 hmem
    cases item with
    | object fields =>
      cases hobject
      exact ((h.of_field hitems).of_item hitem).of_lookup hlv
    | _ => cases hobject
  · cases hmem

end BalanceLine

end StellarWallet
