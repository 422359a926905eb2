import Mathlib.Data.List.Infix
import StellarWallet.Failure.Explanation

/-!
Which clues can lead to their explanation.

The explanations are tried in order, so a clue that contains one of an earlier explanation never
decides. There is just one such clue: the ledger's code for a fee that is too low contains the word
for a balance that is too low, and every message with that code gets one of the first three
explanations. Any other clue can lead to its own.
-/

namespace StellarWallet

/-- A message in which the clue is. -/
def Clue.sample : Clue → String
  | .words w => w
  | .inOrder a b => a ++ " " ++ b

namespace Explanation

open Text

/-- One of the words is in the message, in either case. -/
def Mentions (message : String) (words : List String) : Prop :=
  ∃ w ∈ words, w.toList <:+: searchForm message.toList

instance (message : String) (words : List String) : Decidable (Mentions message words) :=
  inferInstanceAs (Decidable (∃ w ∈ words, w.toList <:+: searchForm message.toList))

variable {message : String}

lemma fits_iff_mentions {e : Explanation} {words : List String}
    (h : e.clues = words.map Clue.words) :
    fits (searchForm message.toList) e = true ↔ Mentions message words := by
  rw [fits, h, List.any_map, List.any_eq_true]
  simp only [Function.comp_apply, Clue.isIn, hasInfix_iff]
  rfl

/-- Whoever mentions a word mentions the words in it. -/
lemma Mentions.of_infix {v w : String} {words : List String} (hmention : Mentions message [v])
    (hpart : w.toList <:+: v.toList) (hw : w ∈ words) : Mentions message words := by
  obtain ⟨u, hu, hmessage⟩ := hmention
  obtain rfl := List.mem_singleton.1 hu
  exact ⟨w, hw, hpart.trans hmessage⟩

/-- The explanation of a message that has the word for a balance that is too low. -/
lemma find?_of_insufficient (h : Mentions message ["op_underfunded", "insufficient"]) :
    (find? message).map (·.message) = some (
      if Mentions message ["denied", "rejected", "declined"] then
        "Transaction was rejected in your wallet."
      else if Mentions message ["op_no_trust"] then
        "Destination account does not trust the selected asset."
      else "Insufficient balance for this transfer.") := by
  unfold find? all
  split
  · next hrejected =>
    rw [List.find?_cons_of_pos ((fits_iff_mentions rfl).2 hrejected)]
    rfl
  · next hrejected =>
    rw [List.find?_cons_of_neg (mt (fits_iff_mentions rfl).1 hrejected)]
    split
    · next htrust =>
      rw [List.find?_cons_of_pos ((fits_iff_mentions rfl).2 htrust)]
      rfl
    · next htrust =>
      rw [List.find?_cons_of_neg (mt (fits_iff_mentions rfl).1 htrust),
        List.find?_cons_of_pos ((fits_iff_mentions rfl).2 h)]
      rfl

/-- Some message with the clue gets the explanation. -/
def LeadsTo (clue : Clue) (e : Explanation) : Prop :=
  ∃ message : String, clue.isIn (searchForm message.toList) = true ∧ find? message = some e

/-- The ledger's code for a fee that is too low contains a word for a balance that is too low. -/
lemma Mentions.of_feeCode (h : Mentions message ["tx_insufficient_fee"]) :
    Mentions message ["op_underfunded", "insufficient"] :=
  h.of_infix (w := "insufficient") ⟨"tx_".toList, "_fee".toList, by decide⟩ (by decide)

lemma not_leadsTo_of_feeCode {e : Explanation} (he : e ∈ all)
    (hcode : Clue.words "tx_insufficient_fee" ∈ e.clues) :
    ¬ LeadsTo (.words "tx_insufficient_fee") e := by
  have hfee : ∀ e ∈ all, Clue.words "tx_insufficient_fee" ∈ e.clues →
      e.message = "Transaction fee is too low." := by decide
  rintro ⟨message, hin, hfind⟩
  have hmention : Mentions message ["tx_insufficient_fee"] :=
    ⟨_, List.mem_singleton_self _, hasInfix_iff.1 hin⟩
  have hfirst := find?_of_insufficient hmention.of_feeCode
  rw [hfind, Option.map_some, hfee e he hcode] at hfirst
  split_ifs at hfirst <;> exact absurd hfirst (by decide)

lemma leadsTo_of_ne : ∀ e ∈ all, ∀ clue ∈ e.clues, clue ≠ .words "tx_insufficient_fee" →
    clue.isIn (searchForm clue.sample.toList) = true ∧ find? clue.sample = some e := by
  decide +kernel

/-- **The one clue in the shadow.** A message with the ledger's code for a fee that is too low gets
one of the first three explanations, that of a balance which is too low if it mentions nothing else
of them. Of all clues this code is the only one that never leads to its explanation. -/
theorem only_fee_code_is_shadowed (h : Mentions message ["tx_insufficient_fee"]) :
    (find? message).map (·.message) = some (
      if Mentions message ["denied", "rejected", "declined"] then
        "Transaction was rejected in your wallet."
      else if Mentions message ["op_no_trust"] then
        "Destination account does not trust the selected asset."
      else "Insufficient balance for this transfer.") ∧
    ∀ e ∈ all, ∀ clue ∈ e.clues, LeadsTo clue e ↔ clue ≠ .words "tx_insufficient_fee" := by
  refine ⟨find?_of_insufficient h.of_feeCode, fun e he clue hclue => ⟨?_, ?_⟩⟩
  · rintro hleads rfl
    exact not_leadsTo_of_feeCode he hclue hleads
  · intro hne
    exact ⟨clue.sample, leadsTo_of_ne e he clue hclue hne⟩

/-- The code behind the word for an account that trusts no asset, of which it takes the last letter
for its own, and the clue that a fee is too low in plain words. -/
theorem fee_code_behind_trust :
    let message := "op_no_trusTX_INSUFFICIENT_FEE"
    let clue : Clue := .inOrder "fee" "too low"
    let e : Explanation :=
      ⟨[.words "tx_insufficient_fee", clue], "Transaction fee is too low.", false⟩
    Mentions message ["tx_insufficient_fee"] ∧ (find? message).map (·.message)
        = some "Destination account does not trust the selected asset." ∧
      e ∈ all ∧ clue ∈ e.clues ∧ LeadsTo clue e := by
  intro message clue e
  have hmention : Mentions message ["tx_insufficient_fee"] := by decide
  have he : e ∈ all := by decide
  have hclue : clue ∈ e.clues := by decide
  obtain ⟨hfirst, hleads⟩ := only_fee_code_is_shadowed hmention
  refine ⟨hmention, ?_, he, hclue, (hleads e he clue hclue).2 (by decide)⟩
  rw [hfirst]
  decide

/-- The text with a blank in the place of each `w`, read from left to right; the first `skip`
characters are left out. -/
def blankOut (w : List Char) : (skip : Nat) → List Char → List Char
  | _, [] => []
  | skip + 1, _ :: r => blankOut w skip r
  | 0, c :: r =>
    if w.isPrefixOf (c :: r) then ' ' :: blankOut w (w.length - 1) r else c :: blankOut w 0 r

/-- A message that says nothing but that code is told to be about the balance. -/
theorem fee_code_alone :
    let message := "Transaction failed: tx_insufficient_fee"
    Mentions message ["tx_insufficient_fee"] ∧
      (∀ e ∈ all,
        fits (blankOut "tx_insufficient_fee".toList 0 (searchForm message.toList)) e = false) ∧
      (find? message).map (·.message) ≠ some "Transaction fee is too low." := by
  decide +kernel

end Explanation

end StellarWallet
