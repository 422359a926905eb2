import Mathlib.Data.List.DropRight
import Mathlib.Data.List.Find
import StellarWallet.Proofs.Failure.ShortLines

/-!
Refusals by the ledger or the wallet, and what stands around their words.

Their explanations come first of all, and are found by words of small letters and underscores. What
a colon, a full stop or a blank sets off from such a word therefore neither hides an explanation nor
brings one in. An ordinary fault is told by the explanation if there is one, else by its message.
-/

namespace StellarWallet

namespace Text

lemma searchForm_append_cons {x : Char} (hx : searchChar x = [x]) (as bs : List Char) :
    searchForm (as ++ x :: bs) = searchForm as ++ x :: searchForm bs := by
  rw [searchForm, List.flatMap_append, List.flatMap_cons, hx]
  rfl

/-- Looking for words regardless of case leaves the character as it is, and it stands in no word of
small letters and underscores. -/
structure IsBorder (x : Char) : Prop where
  searchChar_eq : searchChar x = [x]
  not_letter : (x = '_' || x.isLower) = false

lemma isBorder_of_isBlank {c : Char} (h : isBlank c = true) : IsBorder c := by
  have hc : c.toNat ≠ 0x212A ∧ c.toNat ≠ 0x130 ∧ c.toNat ≠ 95 ∧
      ¬ (65 ≤ c.toNat ∧ c.toNat ≤ 90) ∧ ¬ (97 ≤ c.toNat ∧ c.toNat ≤ 122) := by
    simp only [isBlank, blankRanges, inRanges, List.any_cons, List.any_nil, Bool.or_false,
      Bool.or_eq_true, Bool.and_eq_true, decide_eq_true_eq] at h
    omega
  obtain ⟨hkelvin, hdotted, hunderscore, hcapital, hsmall⟩ := hc
  constructor
  · have hlower : c.toLower = c := dif_neg fun hcase => hcapital ⟨hcase.1, hcase.2⟩
    rw [searchChar, if_neg hkelvin, if_neg hdotted, hlower]
  · have hne : c ≠ '_' := fun he => hunderscore (congrArg Char.toNat he)
    have hlower : c.isLower = false := by
      rw [Bool.eq_false_iff]
      intro hcase
      obtain ⟨hfirst, hlast⟩ := Bool.and_eq_true_iff.1 hcase
      exact hsmall ⟨of_decide_eq_true hfirst, of_decide_eq_true hlast⟩
    rw [hlower, decide_eq_false hne]
    rfl

end Text

open Text

/-- The clue is a word of small letters and underscores. -/
def Clue.isName : Clue → Bool
  | .words w => w.toList.all fun c => c = '_' || c.isLower
  | .inOrder _ _ => false

lemma Clue.isIn_append_cons {clue : Clue} (h : clue.isName = true) {x : Char} (hx : IsBorder x)
    (as bs : List Char) : clue.isIn (as ++ x :: bs) = (clue.isIn as || clue.isIn bs) := by
  cases clue with
  | words w =>
    have hmem : x ∉ w.toList := fun hmem => by
      have := List.all_eq_true.1 h x hmem
      rw [hx.not_letter] at this
      cases this
    rw [Bool.eq_iff_iff, Bool.or_eq_true]
    simp only [isIn, hasInfix_iff]
    exact infix_append_cons_iff hmem
  | inOrder a b => cases h

namespace Explanation

/-- The explanations of what the ledger or the wallet refuses. -/
def refusals : List Explanation := all.filter (·.ledger)

/-- The explanation of a text, if it tells of a refusal. -/
def refusal? (cs : List Char) : Option Explanation := refusals.find? (fits (searchForm cs))

lemma isName_of_refusals : ∀ e ∈ refusals, ∀ clue ∈ e.clues, clue.isName = true := by decide

/-- Refusals come first. -/
lemma ledgerReason?_eq (message : String) :
    ledgerReason? message = (refusal? message.toList).map (·.message) := by
  have hall : all = refusals ++ all.filter (fun e => !e.ledger) := by decide
  have hrefusal : ∀ e ∈ refusals, e.ledger = true := by decide
  have hother : ∀ e ∈ all.filter (fun e => !e.ledger), e.ledger = false := by decide
  unfold ledgerReason? find? refusal?
  rw [hall, List.find?_append]
  cases hfirst : refusals.find? (fits (searchForm message.toList)) with
  | some e =>
    have : e.ledger = true := hrefusal e (List.mem_of_find?_eq_some hfirst)
    simp [this]
  | none =>
    cases hsecond : (all.filter fun e => !e.ledger).find? (fits (searchForm message.toList)) with
    | some e =>
      have : e.ledger = false := hother e (List.mem_of_find?_eq_some hsecond)
      simp [this]
    | none => rfl

lemma exists_find?_of_ledgerReason? {message reason : String}
    (h : ledgerReason? message = some reason) :
    ∃ e ∈ refusals, find? message = some e ∧ e.message = reason := by
  unfold ledgerReason? at h
  split at h
  · next e he =>
    split at h
    · next hledger =>
      exact ⟨e, List.mem_filter.2 ⟨List.mem_of_find?_eq_some he, hledger⟩, he, Option.some.inj h⟩
    · cases h
  · cases h

section

variable {as bs : List Char} {x : Char}

lemma fits_append_cons {e : Explanation} (he : e ∈ refusals) (hx : IsBorder x)
    (as bs : List Char) : fits (searchForm (as ++ x :: bs)) e
      = (fits (searchForm as) e || fits (searchForm bs) e) := by
  have hclue := fun clue hclue => Clue.isIn_append_cons (isName_of_refusals e he clue hclue) hx
    (searchForm as) (searchForm bs)
  rw [searchForm_append_cons hx.searchChar_eq, Bool.eq_iff_iff, Bool.or_eq_true]
  simp only [fits, List.any_eq_true]
  constructor
  · rintro ⟨clue, hmem, h⟩
    rw [hclue clue hmem, Bool.or_eq_true] at h
    exact h.imp (fun h => ⟨clue, hmem, h⟩) fun h => ⟨clue, hmem, h⟩
  · rintro (⟨clue, hmem, h⟩ | ⟨clue, hmem, h⟩)
    · exact ⟨clue, hmem, by rw [hclue clue hmem, h, Bool.true_or]⟩
    · exact ⟨clue, hmem, by rw [hclue clue hmem, h, Bool.or_true]⟩

/-- What stands before a border and tells of no refusal does not matter. -/
lemma refusal?_append_cons_of_left (h : refusal? as = none) (hx : IsBorder x) (bs : List Char) :
    refusal? (as ++ x :: bs) = refusal? bs := by
  refine List.find?_congr fun e he => ?_
  have : fits (searchForm as) e = false := by simpa using List.find?_eq_none.1 h e he
  rw [fits_append_cons he hx, this, Bool.false_or]

/-- What stands after a border and tells of no refusal does not matter. -/
lemma refusal?_append_cons_of_right (h : refusal? bs = none) (hx : IsBorder x) (as : List Char) :
    refusal? (as ++ x :: bs) = refusal? as := by
  refine List.find?_congr fun e he => ?_
  have : fits (searchForm bs) e = false := by simpa using List.find?_eq_none.1 h e he
  rw [fits_append_cons he hx, this, Bool.or_false]

lemma refusal?_nil : refusal? [] = none := by decide

lemma refusal?_dropWhile_isBlank (cs : List Char) :
    refusal? (cs.dropWhile isBlank) = refusal? cs := by
  induction cs with
  | nil => rfl
  | cons c r ih =>
    by_cases hc : isBlank c = true
    · rw [List.dropWhile_cons_of_pos hc, ih]
      exact (refusal?_append_cons_of_left refusal?_nil (isBorder_of_isBlank hc) r).symm
    · rw [List.dropWhile_cons_of_neg hc]

lemma refusal?_stripEnd (cs : List Char) : refusal? (stripEnd cs) = refusal? cs := by
  induction cs using List.reverseRecOn with
  | nil => rfl
  | append_singleton r c ih =>
    have hstrip : stripEnd (r ++ [c]) = if isBlank c then stripEnd r else r ++ [c] :=
      List.rdropWhile_concat isBlank r c
    rw [hstrip]
    split
    · next hc =>
      rw [ih]
      exact (refusal?_append_cons_of_right refusal?_nil (isBorder_of_isBlank hc) r).symm
    · rfl

lemma refusal?_strip (cs : List Char) : refusal? (strip cs) = refusal? cs := by
  rw [strip, refusal?_stripEnd, refusal?_dropWhile_isBlank]

/-- Blanks around a message do not matter. -/
lemma ledgerReason?_strip (message : String) :
    ledgerReason? (String.ofList (strip message.toList)) = ledgerReason? message := by
  rw [ledgerReason?_eq, ledgerReason?_eq, String.toList_ofList, refusal?_strip]

end

end Explanation

/-- Faults of the kind have no reason of their own, and come from no exchange with a server. -/
def FaultKind.isOrdinary : FaultKind → Bool
  | .transaction | .network _ _ _ => false
  | _ => true

namespace Reason

lemma shorten_strip (message : String) :
    shorten (String.ofList (strip message.toList)) = shorten message := by
  rw [shorten, String.toList_ofList, strip_strip, shorten]

/-- What is said of an ordinary fault. -/
lemma ofFault_of_isOrdinary {fault : Fault} (h : fault.kind.isOrdinary = true) :
    ofFault fault = (Explanation.ledgerReason? fault.message).getD
      (orElse (shorten fault.message) unexplained) := by
  unfold ofFault
  split
  · next hkind =>
    rw [hkind] at h
    cases h
  · next hkind =>
    rw [hkind] at h
    cases h
  · dsimp only
    rw [Explanation.ledgerReason?_strip, shorten_strip]

/-- A refusal is explained whatever the fault, unless that has a reason of its own. -/
lemma ofFault_of_ledgerReason? {fault : Fault} (h : fault.kind ≠ .transaction) {reason : String}
    (hreason : Explanation.ledgerReason? fault.message = some reason) : ofFault fault = reason := by
  unfold ofFault
  split
  · next hkind => exact absurd hkind h
  · obtain ⟨e, -, he, hmessage⟩ := Explanation.exists_find?_of_ledgerReason? hreason
    rw [he]
    exact hmessage
  · dsimp only
    rw [Explanation.ledgerReason?_strip, hreason, Option.getD_some]

end Reason

end StellarWallet
