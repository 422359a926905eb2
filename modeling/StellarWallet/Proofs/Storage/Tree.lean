import Mathlib.Tactic.Common
import StellarWallet.Storage.Tree

/-!
What becomes of the files of a tree.

Making folders adds folders and nothing else, however far it gets. Making sure of a file adds an
empty one if there was none. Adding to a file touches that file alone.
-/

namespace StellarWallet.FileTree

variable {t t' : FileTree} {place : PathParts} {parts : PathParts} {text : String}

/-- The second tree has more folders than the first one, and nothing else is different. -/
def AddsFolders (t t' : FileTree) : Prop :=
  ∃ places : List PathParts, t' = t ++ places.map fun place => (place, .folder)

lemma AddsFolders.refl (t : FileTree) : AddsFolders t t := ⟨[], by simp⟩

lemma AddsFolders.trans {t'' : FileTree} (h : AddsFolders t t') (h' : AddsFolders t' t'') :
    AddsFolders t t'' := by
  obtain ⟨places, rfl⟩ := h
  obtain ⟨places', rfl⟩ := h'
  exact ⟨places ++ places', by simp⟩

lemma AddsFolders.files_eq (h : AddsFolders t t') : t'.files = t.files := by
  obtain ⟨places, rfl⟩ := h
  have hnone : files (places.map fun place => (place, .folder)) = [] := by
    simp [files]
  rw [files, List.filterMap_append]
  exact (congrArg (t.files ++ ·) hnone).trans (List.append_nil _)

lemma makeFolder_adds (h : t.makeFolder parts = .ok t') : AddsFolders t t' := by
  unfold makeFolder at h
  split at h
  · cases h
  · cases hwalk : t.walk [] parts with
    | error fault => rw [hwalk] at h; cases h
    | ok place =>
      rw [hwalk] at h
      dsimp [Bind.bind, Except.bind] at h
      split at h
      · cases h
      · cases h
        exact ⟨[place], rfl⟩

lemma needFolder_adds (h : t.needFolder parts = .ok t') : AddsFolders t t' := by
  unfold needFolder at h
  split at h
  · next hmake => cases h; exact makeFolder_adds hmake
  · split at h
    · cases h; exact .refl t
    · cases h

/-- Whether all folders could be made or not, nothing but folders was. -/
lemma needFolders_adds (t : FileTree) (parts : PathParts) :
    AddsFolders t (t.needFolders parts).2 := by
  fun_induction needFolders t parts with
  | case1 parts t' hneed => exact needFolder_adds hneed
  | case2 _ => exact .refl t
  | case3 parts hneed hne hlt fault t' hparents ih => rw [hparents] at ih; exact ih
  | case4 parts hneed hne hlt t' hparents t'' hagain ih =>
    rw [hparents] at ih
    exact ih.trans (needFolder_adds hagain)
  | case5 parts hneed hne hlt t' hparents fault hagain ih => rw [hparents] at ih; exact ih
  | case6 _ _ _ _ => exact .refl t

lemma files_append (t : FileTree) (place : PathParts) (text : String) : (t.append place text).files
    = t.files.map fun f => (f.1, if f.1 = place then f.2 ++ text else f.2) := by
  induction t with
  | nil => rfl
  | cons x t ih =>
    obtain ⟨p, item⟩ := x
    cases item with
    | folder => exact ih
    | file old =>
      have hcons : files ((p, .file old) :: t) = (p, old) :: files t := rfl
      rw [hcons, List.map_cons, ← ih]
      by_cases hp : p = place <;> simp [append, files, hp]

/-! ### The file at a place -/

/-- The text of the file at a place, if there is one. -/
def text? (t : FileTree) (place : PathParts) : Option String :=
  match t.item? place with
  | some (.file text) => some text
  | _ => none

lemma mem_files_of_text? (h : t.text? place = some text) : (place, text) ∈ t.files := by
  unfold text? at h
  split at h
  · next old hitem =>
    obtain rfl : old = text := Option.some.inj h
    cases place with
    | nil => cases hitem
    | cons part rest =>
      obtain ⟨⟨p, item⟩, hfind, rfl⟩ := Option.map_eq_some_iff.1 hitem
      obtain rfl : p = part :: rest := by simpa using List.find?_some hfind
      exact List.mem_filterMap.2 ⟨_, List.mem_of_find?_eq_some hfind, rfl⟩
  · cases h

lemma item?_concat (t u : FileTree) (place : PathParts) :
    item? (t ++ u) place = (t.item? place).or (item? u place) := by
  cases place with
  | nil => rfl
  | cons part rest =>
    show (List.find? _ (t ++ u)).map _ = ((List.find? _ t).map _).or ((List.find? _ u).map _)
    rw [List.find?_append, Option.map_or]

lemma item?_folders (places : List PathParts) (place : PathParts) {item : TreeItem}
    (h : item? (places.map fun p => (p, .folder)) place = some item) : item = .folder := by
  cases place with
  | nil => exact (Option.some.inj h).symm
  | cons part rest =>
    obtain ⟨x, hfind, rfl⟩ := Option.map_eq_some_iff.1 h
    obtain ⟨p, -, rfl⟩ := List.mem_map.1 (List.mem_of_find?_eq_some hfind)
    rfl

lemma AddsFolders.text?_eq (h : AddsFolders t t') (place : PathParts) :
    t'.text? place = t.text? place := by
  obtain ⟨places, rfl⟩ := h
  unfold text?
  rw [item?_concat]
  cases hold : t.item? place with
  | some item => rfl
  | none =>
    cases hnew : item? (places.map fun p => (p, .folder)) place with
    | none => rfl
    | some item => rw [item?_folders places place hnew]; rfl

lemma text?_append (t : FileTree) (place other : PathParts) (text : String) :
    (t.append place text).text? other
      = if other = place then (t.text? other).map (· ++ text) else t.text? other := by
  cases other with
  | nil => exact (ite_self none).symm
  | cons part rest =>
    induction t with
    | nil => exact (ite_self none).symm
    | cons x t ih =>
      obtain ⟨p, item⟩ := x
      by_cases hp : p = part :: rest
      · cases item with
        | folder => simp [append, text?, item?, hp]
        | file old =>
          by_cases hplace : part :: rest = place <;> simp [append, text?, item?, hp, hplace]
      · have hskip : ∀ (item : TreeItem) (u : FileTree),
            text? ((p, item) :: u) (part :: rest) = text? u (part :: rest) := by
          intro item u
          simp [text?, item?, hp]
        rw [hskip, ← ih]
        exact hskip _ _

lemma walk_eq_append (hdots : ['.', '.'] ∉ parts) {start : PathParts}
    (h : t.walk start parts = .ok place) : place = start ++ parts := by
  induction parts generalizing start with
  | nil => cases h; exact (List.append_nil _).symm
  | cons part rest ih =>
    rw [List.mem_cons, not_or] at hdots
    unfold walk at h
    cases hfolder : t.checkFolder start with
    | error fault => rw [hfolder] at h; cases h
    | ok u =>
      rw [hfolder] at h
      dsimp [Bind.bind, Except.bind] at h
      split at h
      · cases h
      · rw [if_neg (Ne.symm hdots.1)] at h
        rw [ih hdots.2 h, List.append_assoc]
        rfl

lemma dots_notMem_flatten (parts : PathParts) : ['.', '.'] ∉ flatten parts := by
  have hfold : ∀ start : PathParts, ['.', '.'] ∉ start → ['.', '.'] ∉ parts.foldl (fun place part =>
      if part = ['.', '.'] then place.dropLast else place ++ [part]) start := by
    induction parts with
    | nil => exact fun start hstart => hstart
    | cons part rest ih =>
      intro start hstart
      rw [List.foldl_cons]
      refine ih _ ?_
      split
      · exact fun hmem => hstart (List.dropLast_subset _ hmem)
      · next hpart =>
        rw [List.mem_append, List.mem_singleton, not_or]
        exact ⟨hstart, Ne.symm hpart⟩
  exact hfold [] List.not_mem_nil

lemma text?_concat_empty (hitem : t.item? place = none) (other : PathParts) :
    text? (t ++ [(place, .file "")]) other
      = if other = place then some ((t.text? other).getD "") else t.text? other := by
  unfold text?
  rw [item?_concat]
  cases other with
  | nil =>
    have hne : [] ≠ place := by rintro rfl; cases hitem
    rw [if_neg hne]
    rfl
  | cons part rest =>
    by_cases hother : part :: rest = place
    · rw [if_pos hother, hother, hitem, ← hother]
      simp [item?]
    · have hnone : item? [(place, .file "")] (part :: rest) = none := by
        simp [item?, Ne.symm hother]
      rw [if_neg hother, hnone, Option.or_none]

lemma needFile_cases (h : t.needFile parts = .ok (place, t')) :
    t.walk [] (flatten parts) = .ok place ∧
      ((∃ old, t.item? place = some (.file old)) ∧ t' = t ∨
        t.item? place = none ∧ t' = t ++ [(place, .file "")]) := by
  unfold needFile at h
  dsimp only at h
  split at h
  · cases h
  · cases hwalk : t.walk [] (flatten parts) with
    | error fault => rw [hwalk] at h; cases h
    | ok place' =>
      rw [hwalk] at h
      dsimp [Bind.bind, Except.bind] at h
      split at h
      · cases h
      · next old hitem => cases h; exact ⟨rfl, Or.inl ⟨⟨old, hitem⟩, rfl⟩⟩
      · next hitem => cases h; exact ⟨rfl, Or.inr ⟨hitem, rfl⟩⟩

/-- Where a file is that was made sure of, and what is in all files then. -/
lemma text?_of_needFile (h : t.needFile parts = .ok (place, t')) : place = flatten parts ∧
    ∀ other, t'.text? other
      = if other = place then some ((t.text? other).getD "") else t.text? other := by
  obtain ⟨hwalk, hcases⟩ := needFile_cases h
  refine ⟨walk_eq_append (dots_notMem_flatten parts) hwalk, fun other => ?_⟩
  obtain ⟨⟨old, hitem⟩, rfl⟩ | ⟨hitem, rfl⟩ := hcases
  · split
    · next hother => rw [hother, text?, hitem]; rfl
    · rfl
  · exact text?_concat_empty hitem other

end StellarWallet.FileTree
