import StellarWallet.Proofs.Redaction.Context
import StellarWallet.Proofs.Redaction.Settled

/-!
Redaction changes nothing in what it has redacted.

The search for secrets leaves a text in which their values are hidden, and the search for passwords
one in which those are; neither the second search nor the masking of keys undoes that. A redacted
text is therefore settled for both, and it holds no key that is masked, so every step leaves it as
it is. Values with texts inside go the same way, place by place.
-/

namespace StellarWallet.Redaction

open Text

/-! ### Heads of secrets and of passwords -/

lemma Spells.getElem? {word cs : List Char} (h : Spells word cs) {i : Nat} {w : Char}
    (hw : word[i]? = some w) : ∃ c, cs[i]? = some c ∧ sameLetter w c = true := by
  induction h generalizing i with
  | nil => cases hw
  | cons hc _ ih =>
    cases i with
    | zero => cases hw; exact ⟨_, rfl, hc⟩
    | succ i => exact ih hw

namespace NamedAssignment

variable {a : NamedAssignment} {z : List Char}

/-- The name of a head at the end of a text stands before the characters of its sign, and can be
read from its last letter on. -/
lemma EndsInHead.exists_letter (h : a.EndsInHead z) {w : Char}
    (hw : ∀ n ∈ a.names, n.reverse[1]? = some w) :
    ∃ c, (z.reverse.dropWhile Redaction.isEdge)[1]? = some c ∧ sameLetter w c = true := by
  obtain ⟨h, ⟨n, hn, u, g, hu, hg, rfl⟩, x, rfl⟩ := h
  have hedges : ∀ c ∈ g.reverse, Redaction.isEdge c = true := fun c hc =>
    hg.isEdge c (List.mem_reverse.1 hc)
  obtain ⟨c, hc, hwc⟩ := Spells.getElem? (List.forall₂_reverse_iff.2 hu) (hw n hn)
  have hdrop : ((x ++ (u ++ g)).reverse).dropWhile Redaction.isEdge = u.reverse ++ x.reverse := by
    rw [List.reverse_append, List.reverse_append, List.append_assoc,
      List.dropWhile_append_of_pos hedges]
    refine dropWhile_eq_self fun d hd => isEdge_of_isNameChar ?_
    refine hu.isNameChar (a.isNameChar n hn) d (List.mem_reverse.1 (List.mem_of_head? ?_))
    rwa [List.head?_append_of_ne_nil] at hd
    rintro hnil
    rw [hnil] at hc
    cases hc
  refine ⟨c, ?_, hwc⟩
  rw [hdrop, List.getElem?_append_left (List.getElem?_eq_some_iff.1 hc).1, hc]

/-- The last letter but one tells the name of a secret from that of a password. -/
lemma not_endsInHead_both (z : List Char) (hs : secret.EndsInHead z) :
    ¬ password.EndsInHead z := by
  intro hp
  obtain ⟨c, hc, he⟩ := hs.exists_letter (w := 'e') (by decide)
  obtain ⟨d, hd, hr⟩ := hp.exists_letter (w := 'r') (by decide)
  obtain rfl : c = d := Option.some.inj (hc.symm.trans hd)
  exact absurd (sameLetter_inj (by decide) (by decide) he hr) (by decide)

/-! ### Texts -/

lemma settled_hideAssigned (cs : List Char) :
    secret.Settled (hideAssigned cs) ∧ password.Settled (hideAssigned cs) :=
  ⟨(secret.settled_hide cs).hide not_endsInHead_both, password.settled_hide (secret.hide cs)⟩

lemma Settled.maskKeys {initial : Char} {m cs : List Char} (hs : a.Settled cs)
    (hinitial : initial ∉ mask ∧ isPlain initial = true) (hm : IsBracketed m) :
    a.Settled (Redaction.maskWords (isKeyWord initial) m cs) := by
  refine hs.maskWords (fun w hw => ?_) hm
  obtain ⟨rest, rfl, -⟩ := isKeyWord_iff.1 hw
  exact ⟨initial, rfl, hinitial.1, a.isValue_of_isPlain hinitial.2⟩

lemma isBracketed_seedMask : IsBracketed seedMask where
  not_edge := forall_mem_of_all (by decide)
  exists_concat := ⟨"[SEED_REDACTED".toList, by decide⟩

lemma isBracketed_addressMask : IsBracketed addressMask where
  not_edge := forall_mem_of_all (by decide)
  exists_concat := ⟨"[ADDRESS_REDACTED".toList, by decide⟩

lemma Settled.redactChars (keepAddresses : Bool) {cs : List Char}
    (hs : a.Settled (hideAssigned cs)) : a.Settled (Redaction.redactChars keepAddresses cs) := by
  have hseeds : a.Settled
      (Redaction.maskWords (isKeyWord 'S') seedMask (hideAssigned cs)) :=
    hs.maskKeys (by decide) isBracketed_seedMask
  unfold Redaction.redactChars
  dsimp only
  split
  · exact hseeds
  · exact hseeds.maskKeys (by decide) isBracketed_addressMask

end NamedAssignment

/-- A text is what redaction leaves: every value is hidden, and no key stands in it. -/
structure IsRedactedText (keepAddresses : Bool) (cs : List Char) : Prop where
  secrets : NamedAssignment.secret.Settled cs
  passwords : NamedAssignment.password.Settled cs
  seeds : ∀ w ∈ runs cs, isKeyWord 'S' w = false
  addresses : keepAddresses = false → ∀ w ∈ runs cs, isKeyWord 'G' w = false

variable {keepAddresses : Bool}

lemma IsRedactedText.redactChars_eq {cs : List Char} (h : IsRedactedText keepAddresses cs) :
    redactChars keepAddresses cs = cs := by
  have hsecrets : secretAssignment.hide cs = cs := h.secrets.hide_eq
  have hpasswords : passwordAssignment.hide cs = cs := h.passwords.hide_eq
  rw [redactChars, hsecrets, hpasswords, maskWords_eq_self h.seeds]
  cases hk : keepAddresses with
  | true => rfl
  | false => exact maskWords_eq_self (h.addresses hk)

lemma isRedactedText_redactChars (keepAddresses : Bool) (cs : List Char) :
    IsRedactedText keepAddresses (redactChars keepAddresses cs) where
  secrets := (NamedAssignment.settled_hideAssigned cs).1.redactChars keepAddresses
  passwords := (NamedAssignment.settled_hideAssigned cs).2.redactChars keepAddresses
  seeds := not_seed_redactChars keepAddresses cs
  addresses := by
    rintro rfl
    exact not_address_redactChars cs

lemma redact_redact (keepAddresses : Bool) (s : String) :
    redact keepAddresses (redact keepAddresses s) = redact keepAddresses s := by
  have h := (isRedactedText_redactChars keepAddresses s.toList).redactChars_eq
  rw [redact, redact, String.toList_ofList, h]

/-! ### Values -/

/-- Under a key or in a list, redaction is as idempotent as it is on the value itself. -/
lemma redactUnder_redactUnder {v : Value} (hop : Hop)
    (hv : redactValue keepAddresses (redactValue keepAddresses v) = redactValue keepAddresses v) :
    redactUnder keepAddresses hop (redactUnder keepAddresses hop v)
      = redactUnder keepAddresses hop v := by
  cases hop with
  | field i key =>
    unfold redactUnder
    dsimp only
    split
    · rfl
    · exact hv
  | item i => cases v <;> first | rfl | exact hv

lemma redactFields_cons (key : String) (v : Value) (r : List (String × Value)) :
    redactFields keepAddresses ((key, v) :: r)
      = (key, redactUnder keepAddresses (.field 0 key) v) :: redactFields keepAddresses r := rfl

lemma redactItems_cons (v : Value) (r : List Value) : redactItems keepAddresses (v :: r)
    = redactUnder keepAddresses (.item 0) v :: redactItems keepAddresses r := by cases v <;> rfl

mutual

lemma redactValue_redactValue : ∀ v : Value,
    redactValue keepAddresses (redactValue keepAddresses v) = redactValue keepAddresses v
  | .text s => congrArg Value.text (redact_redact keepAddresses s)
  | .object fields => congrArg Value.object (redactFields_redactFields fields)
  | .list items => congrArg Value.list (redactItems_redactItems items)
  | .null => rfl
  | .bool _ => rfl
  | .number _ => rfl
  | .bytes _ => rfl

lemma redactFields_redactFields : ∀ fields : List (String × Value),
    redactFields keepAddresses (redactFields keepAddresses fields)
      = redactFields keepAddresses fields
  | [] => rfl
  | (key, v) :: r => by
    rw [redactFields_cons, redactFields_cons, redactFields_redactFields r,
      redactUnder_redactUnder _ (redactValue_redactValue v)]

lemma redactItems_redactItems : ∀ items : List Value,
    redactItems keepAddresses (redactItems keepAddresses items) = redactItems keepAddresses items
  | [] => rfl
  | v :: r => by
    rw [redactItems_cons, redactItems_cons, redactItems_redactItems r,
      redactUnder_redactUnder _ (redactValue_redactValue v)]

end

/-- **Redaction is idempotent.** A redacted message is redacted to itself, and so is a redacted
context, with all the objects and lists in it. -/
theorem redacting_again_changes_nothing (keepAddresses : Bool) (s : String)
    (fields : List (String × Value)) :
    redact keepAddresses (redact keepAddresses s) = redact keepAddresses s ∧
      redactFields keepAddresses (redactFields keepAddresses fields)
        = redactFields keepAddresses fields :=
  ⟨redact_redact keepAddresses s, redactFields_redactFields fields⟩

end StellarWallet.Redaction
