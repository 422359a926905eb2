import StellarWallet.Proofs.Failure.Refusals

/-!
One error on two ways: raised as a fault, and handed over as a payload with its message.

A fault is explained, and said to have failed if its message is blank; the message of a payload is
only shortened. The two ways agree on a message just if it is not blank and has no explanation other
than what it is shortened to.
-/

namespace StellarWallet.Reason

open Text

variable {message : String}

/-- Only of a blank message nothing is left. -/
lemma shorten_eq_empty_iff : shorten message = "" ↔ isAllBlank message.toList = true := by
  rw [← strip_eq_nil_iff]
  constructor
  · intro hempty
    obtain hnil | ⟨c, r, hcons, hc⟩ := head_strip message.toList
    · exact hnil
    · rw [shorten, hcons] at hempty
      have hline := isLine_cutTo (Redaction.isLine_redactChars (isLine_firstLine hc r))
      exact absurd hempty (isShortLine_of_isLine hline.1 hline.2).ne_empty
  · intro hnil
    rw [shorten, hnil]
    decide

lemma ledgerReason?_of_isAllBlank (h : isAllBlank message.toList = true) :
    Explanation.ledgerReason? message = none := by
  rw [← Explanation.ledgerReason?_strip, strip_eq_nil_iff.2 h]
  decide

lemma isAllBlank_of_ledgerReason? {reason : String}
    (h : Explanation.ledgerReason? message = some reason) : isAllBlank message.toList = false := by
  rw [Bool.eq_false_iff]
  intro hblank
  cases h.symm.trans (ledgerReason?_of_isAllBlank hblank)

lemma orElse_shorten (message s : String) :
    orElse (shorten message) s = if isAllBlank message.toList then s else shorten message := by
  simp only [orElse, shorten_eq_empty_iff]

lemma ofValue_of_message {fields : List (String × Value)}
    (h : Fields.lookup "message" fields = some (.text message)) (hne : message ≠ "") :
    ofValue (.object fields) = shorten message := by
  rw [ofValue, h]
  exact if_pos hne

/-- What is said of a message when it comes in a payload, and what when it is raised. -/
structure ToldBothWays (message inPayload raised : String) : Prop where
  /-- A payload's message is shortened, whatever it says. -/
  inPayload_eq : inPayload = shorten message
  /-- A refusal that is raised is explained. -/
  explained : ∀ reason, Explanation.ledgerReason? message = some reason → raised = reason
  /-- Of a blank message nothing is said in the payload. -/
  blank : isAllBlank message.toList = true → inPayload = "" ∧ raised = "Transaction failed."
  /-- Any other message is told the same way. -/
  plain : isAllBlank message.toList = false → Explanation.ledgerReason? message = none →
    raised = inPayload
  agree_iff : inPayload = raised ↔ isAllBlank message.toList = false ∧
    ∀ reason, Explanation.ledgerReason? message = some reason → shorten message = reason

/-- **Payloads go unexplained.** A payload that carries a message and an ordinary fault with the
same message are told alike unless the message is blank or is explained in other words. -/
theorem payload_toldBothWays {fields : List (String × Value)} {fault : Fault}
    (hfields : Fields.lookup "message" fields = some (.text fault.message))
    (hmessage : fault.message ≠ "") (hkind : fault.kind.isOrdinary = true) :
    ToldBothWays fault.message (ofFailure (.value (.object fields)))
      (ofFailure (.raised fault)) := by
  have hpayload : ofFailure (.value (.object fields)) = shorten fault.message :=
    ofValue_of_message hfields hmessage
  have hraised : ofFailure (.raised fault) = (Explanation.ledgerReason? fault.message).getD
      (orElse (shorten fault.message) unexplained) := ofFault_of_isOrdinary hkind
  rw [hpayload, hraised]
  constructor
  case inPayload_eq => rfl
  case explained =>
    intro reason hreason
    rw [hreason, Option.getD_some]
  case blank =>
    intro hblank
    rw [ledgerReason?_of_isAllBlank hblank, shorten_eq_empty_iff.2 hblank]
    exact ⟨rfl, rfl⟩
  case plain =>
    intro hblank hnone
    rw [hnone, Option.getD_none, orElse_shorten, hblank]
    rfl
  case agree_iff =>
    cases hreason : Explanation.ledgerReason? fault.message with
    | some reason =>
      rw [Option.getD_some]
      constructor
      · intro hsame
        refine ⟨isAllBlank_of_ledgerReason? hreason, ?_⟩
        rintro _ ⟨⟩
        exact hsame
      · exact fun h => h.2 reason rfl
    | none =>
      rw [Option.getD_none, orElse_shorten]
      cases hblank : isAllBlank fault.message.toList with
      | true =>
        have hempty : shorten fault.message = "" := shorten_eq_empty_iff.2 hblank
        simp [hempty, unexplained]
      | false => simp

/-- A code of the ledger on a line between two others, in a payload with more fields. -/
theorem payload_of_three_lines :
    let fault : Fault := ⟨.invalidValue, "\nCould not pay\n tx_failed: op_no_trust\n"⟩
    let fields : List (String × Value) := [("code", .number (.whole 7)),
      ("message", .text "\nCould not pay\n tx_failed: op_no_trust\n")]
    Fields.lookup "message" fields = some (.text fault.message) ∧ fault.message ≠ "" ∧
      fault.kind.isOrdinary = true ∧ ToldBothWays fault.message
        (ofFailure (.value (.object fields))) (ofFailure (.raised fault)) := by
  intro fault fields
  have hfields : Fields.lookup "message" fields = some (.text fault.message) := rfl
  have hmessage : fault.message ≠ "" := by decide
  exact ⟨hfields, hmessage, rfl, payload_toldBothWays hfields hmessage rfl⟩

/-- A rejection by the wallet and a blank message are told in other words when they come in a
payload. -/
theorem payload_of_rejection :
    let payload := fun message => ofFailure (.value (.object [("message", .text message)]))
    let raised := fun message => ofFailure (.raised ⟨.runtime, message⟩)
    payload "User declined access" ≠ raised "User declined access" ∧
      raised "User declined access" = "Transaction was rejected in your wallet." ∧
      payload " " ≠ raised " " ∧ raised " " = "Transaction failed." := by
  decide +kernel

end StellarWallet.Reason
