import Mathlib.Data.List.DropRight
import Mathlib.Data.List.Induction
import Mathlib.Data.List.TakeWhile
import StellarWallet.Text.Blank
import StellarWallet.Text.Search

/-!
Cutting texts: at a character, into pieces, and at their ends.
-/

namespace StellarWallet.Text

variable {c d : Char} {as cs r : List Char}

/-! ### At a character -/

lemma cut_of_notMem (h : c ∉ cs) : cut c cs = (cs, none) := by
  have hdrop : cs.dropWhile (fun x => decide (x ≠ c)) = [] := by
    rw [List.dropWhile_eq_nil_iff]
    intro x hx
    simpa using fun he : x = c => h (he ▸ hx)
  rw [cut, hdrop]

lemma cut_append_cons (h : c ∉ as) (r : List Char) : cut c (as ++ c :: r) = (as, some r) := by
  have has : ∀ x ∈ as, decide (x ≠ c) = true := by
    intro x hx
    simpa using fun he : x = c => h (he ▸ hx)
  rw [cut, List.dropWhile_append_of_pos has, List.dropWhile_cons_of_neg (by simp),
    List.takeWhile_append_of_pos has, List.takeWhile_cons_of_neg (by simp), List.append_nil]

/-- A text is cut at the first `c`, or not at all. -/
lemma cut_cases (c : Char) (cs : List Char) :
    (c ∉ cs ∧ cut c cs = (cs, none)) ∨
      ∃ as r, cs = as ++ c :: r ∧ c ∉ as ∧ cut c cs = (as, some r) := by
  by_cases h : c ∈ cs
  · obtain ⟨as, r, rfl, has⟩ := List.eq_append_cons_of_mem h
    exact Or.inr ⟨as, r, rfl, has, cut_append_cons has r⟩
  · exact Or.inl ⟨h, cut_of_notMem h⟩

/-! ### Into pieces -/

/-- More text without `c` goes to the end of the last piece. -/
lemma pieces_append (c : Char) (cs : List Char) : ∃ before last, ∀ s : List Char, c ∉ s →
    pieces c (cs ++ s) = before ++ [last ++ s] := by
  induction cs using List.reverseRecOn with
  | nil =>
    refine ⟨[], [], fun s hs => ?_⟩
    exact List.splitOnP_eq_singleton fun x hx => by simpa using fun he : x = c => hs (he ▸ hx)
  | append_singleton r x ih =>
    by_cases hx : x = c
    · subst hx
      refine ⟨pieces x r, [], fun s hs => ?_⟩
      have hlast : pieces x s = [s] :=
        List.splitOnP_eq_singleton fun y hy => by simpa using fun he : y = x => hs (he ▸ hy)
      rw [List.append_assoc, List.singleton_append, List.nil_append, ← hlast]
      exact List.splitOnP_append_cons r s (by simp)
    · obtain ⟨before, last, h⟩ := ih
      refine ⟨before, last ++ [x], fun s hs => ?_⟩
      have hxs : c ∉ x :: s := by
        rintro (- | ⟨-, hmem⟩)
        · exact hx rfl
        · exact hs hmem
      rw [List.append_assoc, List.singleton_append, h _ hxs, List.append_assoc,
        List.singleton_append]

/-- A character in front goes to the first piece. -/
lemma pieces_cons (h : d ≠ c) (cs : List Char) : ∃ first rest,
    pieces c cs = first :: rest ∧ pieces c (d :: cs) = (d :: first) :: rest := by
  obtain ⟨first, rest, hcs⟩ :=
    List.exists_cons_of_ne_nil (List.splitOnP_ne_nil (fun x => x == c) cs)
  have hne : ¬ (d == c) = true := by simpa using h
  refine ⟨first, rest, hcs, ?_⟩
  rw [pieces, List.splitOn, List.splitOnP_cons_eq_if_modifyHead, if_neg hne, hcs]
  rfl

/-! ### At their ends -/

lemma dropEndWhile_concat (p : Char → Bool) (cs : List Char) (c : Char) :
    dropEndWhile p (cs ++ [c]) = if p c then dropEndWhile p cs else cs ++ [c] :=
  List.rdropWhile_concat p cs c

lemma dropEndWhile_prefix (p : Char → Bool) (cs : List Char) : dropEndWhile p cs <+: cs :=
  List.rdropWhile_prefix p cs

/-- What is dropped at the end of a text. -/
lemma exists_dropped (p : Char → Bool) (cs : List Char) :
    ∃ dropped, cs = dropEndWhile p cs ++ dropped ∧ ∀ c ∈ dropped, p c = true :=
  ⟨cs.rtakeWhile p, List.rdropWhile_append_rtakeWhile.symm, fun _ hc => List.mem_rtakeWhile_imp hc⟩

lemma getLast?_dropEndWhile {p : Char → Bool} (h : (dropEndWhile p cs).getLast? = some c) :
    p c = false := by
  have hne : dropEndWhile p cs ≠ [] := by
    intro hnil
    rw [hnil] at h
    cases h
  have hlast := List.rdropWhile_last_not p cs hne
  rw [List.getLast?_eq_getLast_of_ne_nil hne] at h
  rw [Bool.eq_false_iff, ← Option.some.inj h]
  exact hlast

/-- A text stands between the blanks around it. -/
lemma exists_blanks_around (cs : List Char) : ∃ before after, cs = before ++ strip cs ++ after ∧
    (∀ c ∈ before, isBlank c = true) ∧ ∀ c ∈ after, isBlank c = true := by
  obtain ⟨after, hcs, hafter⟩ := exists_dropped isBlank (cs.dropWhile isBlank)
  refine ⟨cs.takeWhile isBlank, after, ?_, fun c hc => List.mem_takeWhile_imp hc, hafter⟩
  rw [List.append_assoc, strip, stripEnd, ← hcs, List.takeWhile_append_dropWhile]

lemma stripEnd_cons {c : Char} (h : isBlank c = false) (r : List Char) :
    stripEnd (c :: r) = c :: stripEnd r := by
  have hlast : [c].dropWhile isBlank = [c] := List.dropWhile_cons_of_neg (by rw [h]; simp)
  rw [stripEnd, stripEnd, dropEndWhile, dropEndWhile, List.reverse_cons, List.dropWhile_append,
    hlast]
  split
  · next hnone => rw [List.isEmpty_iff.1 hnone]; rfl
  · rw [List.reverse_append]; rfl

/-- What is left of a text without the blanks around it starts with no blank. -/
lemma head_strip (cs : List Char) :
    strip cs = [] ∨ ∃ c r, strip cs = c :: r ∧ isBlank c = false := by
  rw [strip]
  cases hdrop : cs.dropWhile isBlank with
  | nil => exact Or.inl rfl
  | cons c r =>
    have hc : isBlank c = false := by
      have := List.head?_dropWhile_not isBlank cs
      rw [hdrop] at this
      simpa using this
    exact Or.inr ⟨c, stripEnd r, stripEnd_cons hc r, hc⟩

lemma strip_strip (cs : List Char) : strip (strip cs) = strip cs := by
  obtain hnil | ⟨c, r, hcons, hc⟩ := head_strip cs
  · rw [hnil]
    rfl
  · have hhead : (strip cs).dropWhile isBlank = strip cs := by
      rw [hcons, List.dropWhile_cons_of_neg (by rw [hc]; simp)]
    rw [strip, hhead]
    exact List.rdropWhile_idempotent isBlank (cs.dropWhile isBlank)

lemma strip_eq_nil_iff : strip cs = [] ↔ isAllBlank cs = true := by
  have hall : strip cs = [] ↔ ∀ c ∈ cs.dropWhile isBlank, isBlank c = true :=
    List.rdropWhile_eq_nil_iff
  rw [hall, isAllBlank, List.all_eq_true]
  constructor
  · intro h c hc
    rw [← List.takeWhile_append_dropWhile (p := isBlank) (l := cs)] at hc
    obtain hc | hc := List.mem_append.1 hc
    · exact List.mem_takeWhile_imp hc
    · exact h c hc
  · exact fun h c hc => h c ((List.dropWhile_suffix isBlank).subset hc)

end StellarWallet.Text
