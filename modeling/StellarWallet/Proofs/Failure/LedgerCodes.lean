import StellarWallet.Confirmation
import StellarWallet.Proofs.Failure.Refusals

/-!
Codes of failed operations, from the reply of the ledger to what the user reads.

A code is put into words when the reply is read, and these words are looked up again when the
waiting fails with them. The second time changes nothing: an explanation stays as it is, and a code
without one is told as it came, in a line that is none of the explanations.
-/

namespace StellarWallet

/-! ### Texts of values -/

lemma Binary64.exponentText_ne_empty (e : Int) : exponentText e ≠ "" := by
  unfold exponentText
  dsimp only
  split <;> simp

lemma Binary64.digits_ne_empty (l : Layout) (c : Nat) (u : Int) : l.digits c u ≠ "" := by
  unfold Layout.digits
  dsimp only
  split
  · split
    · simp
    · split <;> simp
  · simp [exponentText_ne_empty]

lemma Binary64.text_ne_empty (x : Binary64) : x.text ≠ "" := by
  cases x with
  | nan => decide
  | infinite negative => cases negative <;> decide
  | finite negative m q canonical =>
    rw [text, Layout.render, Ne, String.append_eq_empty_iff, not_and]
    intro
    split
    · decide
    · exact digits_ne_empty plain _ _

lemma Number.text_ne_empty (n : Number) : n.text ≠ "" := by
  cases n with
  | whole n =>
    rw [text, Int.toString_eq_repr, Int.repr_eq_if]
    split
    · rw [Ne, ← String.toList_eq_nil_iff, Nat.toList_repr]
      exact Nat.toDigits_ne_nil
    · simp
  | real x => exact x.text_ne_empty

/-- What is filled has a text. -/
lemma Value.display_ne_empty {v : Value} (h : v.isFilled = true) : v.display ≠ "" := by
  cases v with
  | null => cases h
  | bool b =>
    cases b with
    | true => decide
    | false => cases h
  | number n => exact n.text_ne_empty
  | text s => exact of_decide_eq_true h
  | bytes bs => simp [display, literal, Text.quotedBytes]
  | list items => simp [display, literal]
  | object fields => simp [display, literal]

/-! ### The first character of a reason -/

namespace Redaction

variable {a : Assignment} {mask : List Char} {initial c : Char}

lemma maskWord_of_head {u t : List Char} (h : (u ++ t).head? = some c) (hc : c ≠ initial) :
    maskWord (isKeyWord initial) mask u = u := by
  have hu : isKeyWord initial u = false := by
    cases u with
    | nil => rfl
    | cons d u =>
      obtain rfl : d = c := Option.some.inj h
      rw [isKeyWord, decide_eq_false hc, Bool.false_and, Bool.false_and]
  rw [maskWord, hu, if_neg (by simp)]

/-- Masking keys keeps a first character that no key starts with. -/
lemma head_maskWordsFrom_of_ne {w cs : List Char} (h : (w.reverse ++ cs).head? = some c)
    (hc : c ≠ initial) : (maskWordsFrom (isKeyWord initial) mask w cs).head? = some c := by
  induction cs generalizing w with
  | nil =>
    rw [maskWordsFrom, maskWord_of_head h hc]
    rwa [List.append_nil] at h
  | cons d r ih =>
    rw [maskWordsFrom]
    split
    · refine ih ?_
      rw [List.reverse_cons, List.append_assoc]
      exact h
    · rw [maskWord_of_head h hc, ← h, List.head?_append, List.head?_append]
      rfl

lemma hide_of_dropName {r : List Char} (h : a.dropName (c :: r) = none) :
    a.hide (c :: r) = c :: a.hide r := by
  have hmatch : a.match? (c :: r) = none := by
    rw [Assignment.match?, h, Option.bind_none]
  rw [Assignment.hide, Assignment.hideAfter, hmatch, Assignment.hide]

lemma dropWord_of_not {w : Char} (h : sameLetter w c = false) (ws r : List Char) :
    dropWord (w :: ws) (c :: r) = none := by
  rw [dropWord, h]
  exact if_neg (by simp)

/-- A text that starts neither as a sensitive name nor as a seed keeps its first character. -/
lemma head_redactChars (hsecret : sameLetter 's' c = false) (hpassword : sameLetter 'p' c = false)
    (r : List Char) : (redactChars true (c :: r)).head? = some c := by
  have hs : secretAssignment.dropName (c :: r) = none :=
    congrArg (Option.map dropNameSuffix) (dropWord_of_not hsecret "ecret".toList r)
  have hp : ∀ r, passwordAssignment.dropName (c :: r) = none :=
    dropWord_of_not hpassword "assword".toList
  have hc : c ≠ 'S' := by
    rintro rfl
    cases hsecret
  rw [redactChars, hide_of_dropName hs, hide_of_dropName (hp _)]
  exact head_maskWordsFrom_of_ne rfl hc

end Redaction

namespace Reason

open Text

lemma head_cutTo {c : Char} (hc : isBlank c = false) {cs : List Char} (h : cs.head? = some c) :
    (cutTo cs).head? = some c := by
  obtain ⟨r, rfl⟩ := List.head?_eq_some_iff.1 h
  unfold cutTo
  split
  · have htake : stripEnd ((c :: r).take (maxLength - 3)) = c :: stripEnd (r.take 156) :=
      stripEnd_cons hc _
    rw [htake]
    rfl
  · rfl

/-- A message that starts neither with a blank nor as a sensitive name or a seed keeps its first
character when it is shortened. -/
lemma head_shorten {message : String} {c : Char} {r : List Char} (h : message.toList = c :: r)
    (hc : isBlank c = false) (hsecret : Redaction.sameLetter 's' c = false)
    (hpassword : Redaction.sameLetter 'p' c = false) :
    (shorten message).toList.head? = some c := by
  have hstrip : strip message.toList = c :: stripEnd r := by
    rw [h, strip, List.dropWhile_cons_of_neg (by rw [hc]; simp), stripEnd_cons hc]
  have hline : firstLine (strip message.toList) = c :: firstLine (stripEnd r) := by
    rw [hstrip, firstLine, List.takeWhile_cons_of_pos (by rw [isLineEnd_of_not_isBlank hc]; rfl),
      firstLine]
  rw [shorten, String.toList_ofList, hline]
  exact head_cutTo hc (Redaction.head_redactChars hsecret hpassword _)

/-! ### Codes -/

/-- A title with a colon that tells of no refusal does not matter. -/
lemma refusal?_titled {title word : List Char} (htitle : title = word ++ [':', ' '])
    (h : Explanation.refusal? word = none) (cs : List Char) :
    Explanation.refusal? (title ++ cs) = Explanation.refusal? cs := by
  have hcolon : IsBorder ':' := ⟨by decide, by decide⟩
  have hblank : IsBorder ' ' := isBorder_of_isBlank (by decide)
  have hsplit : title ++ cs = word ++ ':' :: ([] ++ ' ' :: cs) := by
    rw [htitle, List.append_assoc]
    rfl
  rw [hsplit, Explanation.refusal?_append_cons_of_left h hcolon,
    Explanation.refusal?_append_cons_of_left Explanation.refusal?_nil hblank]

/-- A code is explained as it is behind the code of the transaction. -/
lemma ledgerReason?_txFailed (code : String) :
    Explanation.ledgerReason? ("tx_failed: " ++ code) = Explanation.ledgerReason? code := by
  have htitle : "tx_failed: ".toList = "tx_failed".toList ++ [':', ' '] := by decide
  rw [Explanation.ledgerReason?_eq, Explanation.ledgerReason?_eq, String.toList_append,
    refusal?_titled htitle (by decide)]

/-- What is told of a code without an explanation. -/
def bareCode (code : String) : String := "Operation failed: " ++ code ++ "."

lemma toList_append_append (a b c : String) :
    (a ++ b ++ c).toList = a.toList ++ (b.toList ++ c.toList) := by
  rw [String.toList_append, String.toList_append, List.append_assoc]

lemma ledgerReason?_bareCode (code : String) :
    Explanation.ledgerReason? (bareCode code) = Explanation.ledgerReason? code := by
  have htitle : "Operation failed: ".toList = "Operation failed".toList ++ [':', ' '] := by decide
  have hstop : IsBorder '.' := ⟨by decide, by decide⟩
  have hcode : (bareCode code).toList = "Operation failed: ".toList ++ (code.toList ++ ['.']) :=
    toList_append_append "Operation failed: " code "."
  rw [Explanation.ledgerReason?_eq, Explanation.ledgerReason?_eq, hcode,
    refusal?_titled htitle (by decide),
    Explanation.refusal?_append_cons_of_right Explanation.refusal?_nil hstop]

lemma head_shorten_bareCode (code : String) :
    (shorten (bareCode code)).toList.head? = some 'O' := by
  have hcode : (bareCode code).toList
      = 'O' :: ("peration failed: ".toList ++ (code.toList ++ ['.'])) :=
    toList_append_append "Operation failed: " code "."
  exact head_shorten hcode (by decide) (by decide) (by decide)

/-- The reply is the body of a failed transaction, and `code` the first code of its operations. -/
def HasFirstCode (payload code : Value) : Prop :=
  ∃ fields extras codes rest, payload = .object fields ∧
    Fields.lookup "extras" fields = some (.object extras) ∧
    Fields.lookup "result_codes" extras = some (.object codes) ∧
    Fields.lookup "operations" codes = some (.list (code :: rest))

lemma ofLedgerReply_of_code {payload code : Value} (h : HasFirstCode payload code)
    (hfilled : code.isFilled = true) : ofLedgerReply payload
      = (Explanation.ledgerReason? code.display).getD (bareCode code.display) := by
  obtain ⟨fields, extras, codes, rest, rfl, hextras, hcodes, hoperations⟩ := h
  have hcode : operationCode (.object fields) = code.display := by
    simp [operationCode, Value.field?, hextras, hcodes, hoperations, hfilled]
  rw [ofLedgerReply, hcode, if_pos (Value.display_ne_empty hfilled)]
  rfl

/-- An explanation of a refusal is given for a fault that tells it. -/
lemma ofFault_refusal : ∀ e ∈ Explanation.refusals,
    ofFault (Confirmation.fault e.message) = e.message := by decide +kernel

/-- No explanation starts like a code that is told as it came. -/
lemma head_explanation : ∀ e ∈ Explanation.all, e.message.toList.head? ≠ some 'O' := by decide

/-- What becomes of the code of a failed operation: `code` is its text, `payload` the reply. -/
structure KeepsExplanation (payload : Value) (code : String) : Prop where
  ne_empty : code ≠ ""
  /-- A code with an explanation: it is given for the reply, for the waiting that fails with it, and
  for the code behind that of the transaction in any fault without a reason of its own. -/
  explained : ∀ reason, Explanation.ledgerReason? code = some reason →
    ofLedgerReply payload = reason ∧
    ofFailure (.raised (Confirmation.fault (ofLedgerReply payload))) = reason ∧
    ∀ fault : Fault, fault.kind ≠ .transaction → fault.message = "tx_failed: " ++ code →
      ofFailure (.raised fault) = reason
  /-- A code without one: it is told as it came, and nothing is explained. -/
  bare : Explanation.ledgerReason? code = none →
    ofFailure (.raised (Confirmation.fault (ofLedgerReply payload)))
      = shorten ("Operation failed: " ++ code ++ ".") ∧
    ∀ e ∈ Explanation.all,
      ofFailure (.raised (Confirmation.fault (ofLedgerReply payload))) ≠ e.message

/-- **Explanations last.** The explanation of the first code in a reply on a failed transaction is
the reason that is read off the reply, and again what the user is told when the waiting fails with
it; a code without an explanation gets none on the way. -/
theorem ledger_code_keepsExplanation {payload code : Value} (h : HasFirstCode payload code)
    (hfilled : code.isFilled = true) : KeepsExplanation payload code.display := by
  have hreply := ofLedgerReply_of_code h hfilled
  constructor
  case ne_empty => exact Value.display_ne_empty hfilled
  case explained =>
    intro reason hreason
    rw [hreason, Option.getD_some] at hreply
    obtain ⟨e, he, -, rfl⟩ := Explanation.exists_find?_of_ledgerReason? hreason
    rw [hreply]
    refine ⟨rfl, ofFault_refusal e he, fun fault hkind hmessage => ?_⟩
    refine ofFault_of_ledgerReason? hkind ?_
    rw [hmessage, ledgerReason?_txFailed, hreason]
  case bare =>
    intro hnone
    rw [hnone, Option.getD_none] at hreply
    have hhead := head_shorten_bareCode code.display
    have hne : shorten (bareCode code.display) ≠ "" := by
      intro hempty
      rw [hempty] at hhead
      cases hhead
    have hreason : ofFailure (.raised (Confirmation.fault (ofLedgerReply payload)))
        = shorten (bareCode code.display) := by
      rw [ofFailure, ofFault_of_isOrdinary rfl, hreply, Confirmation.fault, ledgerReason?_bareCode,
        hnone, Option.getD_none, orElse, if_neg hne]
    refine ⟨hreason, fun e he hsame => ?_⟩
    rw [← hreason, hsame] at hhead
    exact head_explanation e he hhead

/-- A code in another spelling, with a blank behind it, in a reply with several. -/
theorem ledger_code_in_capitals :
    let code : Value := .text "OP_UNDERFUNDED "
    let payload : Value := .object [("status", .number (.whole 400)), ("extras", .object
      [("result_codes", .object [("transaction", .text "tx_failed"),
        ("operations", .list [code, .text "op_no_trust"])])])]
    HasFirstCode payload code ∧ code.isFilled = true ∧
      Explanation.ledgerReason? code.display = some "Insufficient balance for this transfer." ∧
      KeepsExplanation payload code.display := by
  intro code payload
  have hcode : HasFirstCode payload code := ⟨_, _, _, _, rfl, rfl, rfl, rfl⟩
  exact ⟨hcode, rfl, by decide, ledger_code_keepsExplanation hcode rfl⟩

/-- A fault with a reason of its own is told by it, also if that is a code with an explanation. -/
theorem ledger_code_as_own_reason :
    let code : Value := .text "op_no_trust"
    let payload : Value := .object [("extras", .object
      [("result_codes", .object [("operations", .list [code])])])]
    let fault : Fault := ⟨.transaction, "tx_failed: op_no_trust"⟩
    HasFirstCode payload code ∧ code.isFilled = true ∧ Explanation.ledgerReason? code.display
        = some "Destination account does not trust the selected asset." ∧
      fault.message = "tx_failed: " ++ code.display ∧ ofFailure (.raised fault)
        ≠ "Destination account does not trust the selected asset." := by
  intro code payload fault
  exact ⟨⟨_, _, _, _, rfl, rfl, rfl, rfl⟩, rfl, by decide, rfl, by decide⟩

end Reason

end StellarWallet
