import Mathlib.Data.List.TakeWhile
import Mathlib.Tactic.Common
import StellarWallet.Failure.Reason
import StellarWallet.Proofs.Text.Cuts

/-!
Reasons are short lines.

A text is a line if it has no line end and starts with something that can be seen. The first line of
a stripped message is one, and redaction and cutting keep it one; so are the fixed explanations. Of
a raised fault that carries no reason of its own, whatever its message, the reason is therefore a
line of at most 160 characters.
-/

namespace StellarWallet

namespace Text

/-- There is no line end in the text, and a character that is not blank stands first. -/
structure IsLine (cs : List Char) : Prop where
  oneLine : ∀ c ∈ cs, isLineEnd c = false
  start : ∃ c r, cs = c :: r ∧ isBlank c = false

lemma isLineEnd_of_not_isBlank {c : Char} (h : isBlank c = false) : isLineEnd c = false := by
  rw [Bool.eq_false_iff] at h ⊢
  exact fun he => h (isBlank_of_isLineEnd he)

/-- Whether a text has a line end can be decided one character after the other. -/
lemma all_not_isLineEnd {cs : List Char} (h : cs.all (fun c => !isLineEnd c) = true) :
    ∀ c ∈ cs, isLineEnd c = false := by
  simpa using h

/-- A line stays one if it keeps its first character, or gets another that is not blank, and no line
end is added. -/
lemma IsLine.of_head {cs ds : List Char} (h : IsLine cs)
    (hmem : ∀ c ∈ ds, c ∈ cs ∨ isLineEnd c = false)
    (hhead : ∃ d, ds.head? = some d ∧ (cs.head? = some d ∨ isBlank d = false)) : IsLine ds where
  oneLine := fun c hc => (hmem c hc).elim (h.oneLine c) id
  start := by
    obtain ⟨d, hd, hsame⟩ := hhead
    obtain ⟨r, rfl⟩ := List.head?_eq_some_iff.1 hd
    obtain ⟨c, s, rfl, hc⟩ := h.start
    refine ⟨d, r, rfl, hsame.elim (fun he => ?_) id⟩
    rw [← Option.some.inj he]
    exact hc

lemma isLine_firstLine {c : Char} (h : isBlank c = false) (r : List Char) :
    IsLine (firstLine (c :: r)) where
  oneLine := fun d hd => by simpa using List.mem_takeWhile_imp hd
  start := by
    refine ⟨c, firstLine r, ?_, h⟩
    rw [firstLine, List.takeWhile_cons_of_pos (by rw [isLineEnd_of_not_isBlank h]; rfl), firstLine]

end Text

namespace Redaction

open Text

/-! ### Redaction keeps a line -/

section

variable {a : Assignment} {p : List Char → Bool} {mask : List Char} {c x : Char}

lemma mem_hideAfter {skip : Nat} {cs : List Char} (h : x ∈ a.hideAfter skip cs) :
    x ∈ cs ∨ x ∈ Redaction.mask := by
  induction cs generalizing skip with
  | nil => cases skip <;> cases h
  | cons c r ih =>
    cases skip with
    | succ skip =>
      rw [Assignment.hideAfter] at h
      exact (ih h).imp_left (List.mem_cons_of_mem c)
    | zero =>
      rw [Assignment.hideAfter] at h
      split at h
      · rw [List.mem_append, List.mem_append] at h
        rcases h with (h | h) | h
        · exact Or.inl (List.mem_of_mem_take h)
        · exact Or.inr h
        · exact (ih h).imp_left (List.mem_cons_of_mem c)
      · rcases List.mem_cons.1 h with rfl | h
        · exact Or.inl List.mem_cons_self
        · exact (ih h).imp_left (List.mem_cons_of_mem c)

lemma head_hide (c : Char) (r : List Char) :
    ∃ d, (a.hide (c :: r)).head? = some d ∧ (d = c ∨ isBlank d = false) := by
  rw [Assignment.hide, Assignment.hideAfter]
  split
  · next head value _ =>
    cases head with
    | zero => exact ⟨'[', rfl, Or.inr (by decide)⟩
    | succ head => exact ⟨c, rfl, Or.inl rfl⟩
  · exact ⟨c, rfl, Or.inl rfl⟩

lemma mem_maskWordsFrom {w cs : List Char} (h : x ∈ maskWordsFrom p mask w cs) :
    x ∈ w ∨ x ∈ cs ∨ x ∈ mask := by
  have hword : ∀ u : List Char, x ∈ maskWord p mask u.reverse → x ∈ u ∨ x ∈ mask := by
    intro u hu
    unfold maskWord at hu
    split at hu
    · exact Or.inr hu
    · exact Or.inl (List.mem_reverse.1 hu)
  induction cs generalizing w with
  | nil => exact (hword w h).imp_right Or.inr
  | cons c r ih =>
    rw [maskWordsFrom] at h
    split at h
    · rcases ih h with hw | hr
      · rcases List.mem_cons.1 hw with rfl | hw
        · exact Or.inr (Or.inl List.mem_cons_self)
        · exact Or.inl hw
      · exact Or.inr (hr.imp_left (List.mem_cons_of_mem c))
    · rcases List.mem_append.1 h with hw | hr
      · exact (hword w hw).imp_right Or.inr
      · rcases List.mem_cons.1 hr with rfl | hr
        · exact Or.inr (Or.inl List.mem_cons_self)
        · rcases ih hr with hnil | hr
          · cases hnil
          · exact Or.inr (hr.imp_left (List.mem_cons_of_mem c))

lemma head_maskWord (hmask : ∃ d r, mask = d :: r ∧ isBlank d = false) {u s t : List Char}
    (h : (u ++ s).head? = some c) (hst : t.head? = s.head?) :
    ∃ d, (maskWord p mask u ++ t).head? = some d ∧ (d = c ∨ isBlank d = false) := by
  unfold maskWord
  split
  · obtain ⟨d, r, rfl, hd⟩ := hmask
    exact ⟨d, rfl, Or.inr hd⟩
  · refine ⟨c, ?_, Or.inl rfl⟩
    rw [← h, List.head?_append, List.head?_append, hst]

lemma head_maskWordsFrom (hmask : ∃ d r, mask = d :: r ∧ isBlank d = false) {w cs : List Char}
    (h : (w.reverse ++ cs).head? = some c) :
    ∃ d, (maskWordsFrom p mask w cs).head? = some d ∧ (d = c ∨ isBlank d = false) := by
  induction cs generalizing w with
  | nil =>
    have := head_maskWord (p := p) hmask h rfl
    rwa [List.append_nil] at this
  | cons c' r ih =>
    rw [maskWordsFrom]
    split
    · refine ih ?_
      rw [List.reverse_cons, List.append_assoc]
      exact h
    · exact head_maskWord hmask h rfl

end

lemma isLine_hide (a : Assignment) {cs : List Char} (h : IsLine cs) : IsLine (a.hide cs) := by
  refine h.of_head (fun c hc => (mem_hideAfter hc).imp_right ?_) ?_
  · have hmask : ∀ c ∈ mask, isLineEnd c = false := all_not_isLineEnd (by decide)
    exact hmask c
  · obtain ⟨c, r, rfl, -⟩ := h.start
    obtain ⟨d, hd, hsame⟩ := head_hide (a := a) c r
    exact ⟨d, hd, hsame.imp_left fun he => congrArg some he.symm⟩

lemma isLine_maskWords {p : List Char → Bool} {mask cs : List Char} (hmask : IsLine mask)
    (h : IsLine cs) : IsLine (maskWords p mask cs) := by
  refine h.of_head (fun c hc => ?_) ?_
  · rcases mem_maskWordsFrom hc with hnil | hc | hc
    · cases hnil
    · exact Or.inl hc
    · exact Or.inr (hmask.oneLine c hc)
  · obtain ⟨c, r, rfl, -⟩ := h.start
    have hhead : (([] : List Char).reverse ++ c :: r).head? = some c := rfl
    obtain ⟨d, hd, hsame⟩ := head_maskWordsFrom (p := p) hmask.start hhead
    exact ⟨d, hd, hsame.imp_left fun he => congrArg some he.symm⟩

lemma isLine_redactChars {cs : List Char} (h : IsLine cs) : IsLine (redactChars true cs) := by
  have hmask : IsLine seedMask := ⟨all_not_isLineEnd (by decide), '[', _, rfl, by decide⟩
  exact isLine_maskWords hmask (isLine_hide _ (isLine_hide _ h))

end Redaction

namespace Reason

open Text

/-- A text of at most 160 characters, not empty, without line ends and without a blank in front. -/
structure IsShortLine (s : String) : Prop where
  ne_empty : s ≠ ""
  length_le : s.length ≤ 160
  oneLine : ∀ c ∈ s.toList, isLineEnd c = false
  start : ∀ c ∈ s.toList.head?, isBlank c = false

lemma isShortLine_iff {s : String} : IsShortLine s ↔ s ≠ "" ∧ s.length ≤ 160 ∧
    s.toList.all (fun c => !isLineEnd c) = true ∧
    s.toList.head?.all (fun c => !isBlank c) = true := by
  have hstart : s.toList.head?.all (fun c => !isBlank c) = true ↔
      ∀ c ∈ s.toList.head?, isBlank c = false := by
    cases s.toList.head? <;> simp
  rw [hstart]
  constructor
  · rintro ⟨hne, hlength, hline, hblank⟩
    exact ⟨hne, hlength, List.all_eq_true.2 fun c hc => by rw [hline c hc]; rfl, hblank⟩
  · rintro ⟨hne, hlength, hline, hblank⟩
    exact ⟨hne, hlength, all_not_isLineEnd hline, hblank⟩

instance (s : String) : Decidable (IsShortLine s) := decidable_of_iff _ isShortLine_iff.symm

lemma isShortLine_of_isLine {cs : List Char} (h : IsLine cs) (hlength : cs.length ≤ 160) :
    IsShortLine (String.ofList cs) := by
  obtain ⟨c, r, rfl, hc⟩ := h.start
  refine ⟨?_, ?_, ?_, ?_⟩
  · intro he
    have := congrArg String.toList he
    rw [String.toList_ofList] at this
    cases this
  · rw [String.length_ofList]
    exact hlength
  · rw [String.toList_ofList]
    exact h.oneLine
  · rw [String.toList_ofList]
    rintro d ⟨⟩
    exact hc

/-- Every fixed explanation is a short line. -/
lemma isShortLine_explanation {message : String} {e : Explanation}
    (h : Explanation.find? message = some e) : IsShortLine e.message := by
  have hall : ∀ e ∈ Explanation.all, IsShortLine e.message := by decide +kernel
  exact hall e (List.mem_of_find?_eq_some h)

lemma isShortLine_ledgerReason {message reason : String}
    (h : Explanation.ledgerReason? message = some reason) : IsShortLine reason := by
  unfold Explanation.ledgerReason? at h
  split at h
  · next e he =>
    split at h
    · cases h
      exact isShortLine_explanation he
    · cases h
  · cases h

/-! ### Cutting -/

lemma isLine_cutTo {cs : List Char} (h : IsLine cs) :
    IsLine (cutTo cs) ∧ (cutTo cs).length ≤ 160 := by
  unfold cutTo
  split
  · obtain ⟨c, r, rfl, hc⟩ := h.start
    have htake : stripEnd ((c :: r).take (maxLength - 3)) = c :: stripEnd (r.take 156) :=
      stripEnd_cons hc _
    have hsub : (stripEnd (r.take 156)).Sublist (r.take 156) := by
      have := (List.dropWhile_sublist isBlank (l := (r.take 156).reverse)).reverse
      rwa [List.reverse_reverse] at this
    rw [htake]
    refine ⟨⟨?_, c, _, rfl, hc⟩, ?_⟩
    · intro d hd
      have hdots : ∀ d ∈ "...".toList, isLineEnd d = false := all_not_isLineEnd (by decide)
      rcases List.mem_append.1 hd with hd | hd
      · refine h.oneLine d ?_
        rcases List.mem_cons.1 hd with rfl | hd
        · exact List.mem_cons_self
        · exact List.mem_cons_of_mem c (List.mem_of_mem_take (hsub.subset hd))
      · exact hdots d hd
    · have hlength := hsub.length_le
      rw [List.length_take] at hlength
      rw [List.length_append, List.length_cons]
      have hdots : "...".toList.length = 3 := rfl
      omega
  · next hshort => exact ⟨h, Nat.not_lt.1 hshort⟩

/-- What a message is shortened to is empty, or a short line. -/
lemma shorten_cases (message : String) : shorten message = "" ∨ IsShortLine (shorten message) := by
  unfold shorten
  rcases head_strip message.toList with hnil | ⟨c, r, hcons, hc⟩
  · rw [hnil]
    exact Or.inl (by decide)
  · rw [hcons]
    obtain ⟨hline, hlength⟩ := isLine_cutTo (Redaction.isLine_redactChars (isLine_firstLine hc r))
    exact Or.inr (isShortLine_of_isLine hline hlength)

lemma isShortLine_orElse {s t : String} (hs : s = "" ∨ IsShortLine s) (ht : IsShortLine t) :
    IsShortLine (orElse s t) := by
  unfold orElse
  split
  · exact ht
  · next hne => exact hs.resolve_left hne

/-- **Every reason is one short line.** Unless a fault carries a reason of its own, the reason that
is given for it is not empty, has at most 160 characters and no line end, and starts with no
blank. -/
theorem ofFault_isShortLine (fault : Fault) (h : fault.kind ≠ .transaction) :
    IsShortLine (ofFault fault) := by
  have hfixed : IsShortLine unexplained ∧ IsShortLine networkFailure := by decide +kernel
  unfold ofFault
  split
  · next hkind => exact absurd hkind h
  · split
    · next e he => exact isShortLine_explanation he
    · exact hfixed.2
  · dsimp only
    cases hreason : Explanation.ledgerReason? (String.ofList (strip fault.message.toList)) with
    | some reason => exact isShortLine_ledgerReason hreason
    | none =>
      rw [Option.getD_none]
      exact isShortLine_orElse (shorten_cases _) hfixed.1

/-- The first of two lines, with the password in it hidden. -/
theorem ofFault_of_two_lines :
    let fault : Fault := ⟨.runtime, " \tpassword = hunter2 expired\x0bsecond line"⟩
    fault.kind ≠ .transaction ∧ ofFault fault = "password = [REDACTED] expired" ∧
      IsShortLine "password = [REDACTED] expired" := by
  intro fault
  have hreason : ofFault fault = "password = [REDACTED] expired" := by decide +kernel
  refine ⟨by decide, hreason, ?_⟩
  rw [← hreason]
  exact ofFault_isShortLine fault (by decide)

end Reason

end StellarWallet
