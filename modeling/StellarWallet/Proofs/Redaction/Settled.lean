import StellarWallet.Proofs.Redaction.Assignments
import StellarWallet.Proofs.Redaction.Words

/-!
Texts in which every value of an assignment is hidden already, and what keeps them so.

Such a text is settled: where a head ends, the mask and nothing more follows, or no value at all.
Every step of redaction keeps some characters and puts a mask in the place of others. A head holds
no bracket, so that none goes on behind a mask, and none ends within one. What is left to show of a
step is that no mask comes to stand after a head where it would not be the whole value, and that no
mask that is there already is broken.
-/

namespace StellarWallet.Redaction

open Text

namespace NamedAssignment

variable {a : NamedAssignment} {c : Char} {m h r x y z cs out : List Char}

/-- A text at whose end a value is looked for. -/
def EndsInHead (a : NamedAssignment) (z : List Char) : Prop := ∃ h, a.IsHead h ∧ h <:+ z

/-- If the text goes on with a value, it is the mask. -/
def Hidden (a : NamedAssignment) (r : List Char) : Prop :=
  a.StartsValue r → ∃ r', r = mask ++ r' ∧ ¬ a.StartsValue r'

/-- After the characters of `z`, every value is hidden. -/
def SettledFrom (a : NamedAssignment) (z cs : List Char) : Prop :=
  ∀ x y, cs = x ++ y → a.EndsInHead (z ++ x) → a.Hidden y

/-- Every value is hidden. -/
def Settled (a : NamedAssignment) (cs : List Char) : Prop := a.SettledFrom [] cs

lemma EndsInHead.append_left (h : a.EndsInHead z) (x : List Char) : a.EndsInHead (x ++ z) := by
  obtain ⟨h, hh, hz⟩ := h
  exact ⟨h, hh, hz.trans (List.suffix_append x z)⟩

lemma EndsInHead.isEdge_of_getLast? (h : a.EndsInHead z) (hc : z.getLast? = some c) :
    isEdge c = true := by
  obtain ⟨h, hh, x, rfl⟩ := h
  rw [List.getLast?_append_of_ne_nil _ hh.ne_nil] at hc
  exact hh.isEdge_of_getLast? hc

lemma Settled.right (h : a.Settled (x ++ y)) : a.Settled y := by
  rintro u w rfl hu
  exact h (x ++ u) w (List.append_assoc ..).symm (hu.append_left x)

lemma Settled.hidden (h : a.Settled (x ++ y)) (hx : a.EndsInHead x) : a.Hidden y := h x y rfl hx

lemma not_startsValue_dropWhile (r : List Char) : ¬ a.StartsValue (r.dropWhile a.isValue) := by
  rintro ⟨c, hc, hvalue⟩
  have hnot := List.head?_dropWhile_not a.isValue r
  rw [hc] at hnot
  exact Bool.noConfusion (hnot.symm.trans hvalue)

lemma isValue_of_mem_mask : ∀ c ∈ mask, a.isValue c = true := fun c hc =>
  a.isValue_of_isPlain ((forall_mem_of_all (by decide) : ∀ c ∈ mask, isPlain c = true) c hc)

/-- Hiding leaves a settled text as it is. -/
theorem Settled.hide_eq (hs : a.Settled cs) : a.hide cs = cs := by
  induction cs using hide_induction (a := a) with
  | nil => rfl
  | keep c r hb ih => rw [hide_cons hb, ih (Settled.right (x := [c]) hs)]
  | found h r hh hr ih =>
    obtain ⟨r', rfl, hr'⟩ := hs.hidden ⟨h, hh, List.suffix_rfl⟩ hr
    have hdrop : (mask ++ r').dropWhile a.isValue = r' := by
      rw [List.dropWhile_append_of_pos isValue_of_mem_mask]
      exact dropWhile_eq_self fun c hc => by simpa using fun hv => hr' ⟨c, hc, hv⟩
    rw [hdrop] at ih
    rw [hide_append hh hr, hdrop, ih hs.right.right]

/-! ### Steps of redaction -/

/-- What a step makes of a text when it keeps some characters and puts `m` in the place of others;
`z` are the characters that it has kept since the last `m`. -/
inductive Masks (a : NamedAssignment) (m : List Char) :
    (z : List Char) → List Char → List Char → Prop where
  | nil (z : List Char) : Masks a m z [] []
  | keep {z cs out : List Char} {c : Char} (hidden : a.EndsInHead z → a.Hidden (c :: cs))
      (rest : Masks a m (z ++ [c]) cs out) : Masks a m z (c :: cs) (c :: out)
  | block {z w cs out : List Char} (ne_nil : w ≠ [])
      (hidden : a.EndsInHead z → m = mask ∧ ¬ a.StartsValue out)
      (apart : (∀ c, z.getLast? = some c → c ∉ mask) ∨
        ∃ c, w.head? = some c ∧ c ∉ mask ∧ a.isValue c = true)
      (rest : Masks a m [] cs out) : Masks a m z (w ++ cs) (m ++ out)

lemma Masks.keeps (hidden : ∀ u w, x = u ++ w → w ≠ [] → a.EndsInHead (z ++ u) →
    a.Hidden (w ++ cs)) (rest : a.Masks m (z ++ x) cs out) : a.Masks m z (x ++ cs) (x ++ out) := by
  induction x generalizing z with
  | nil => simpa using rest
  | cons c x ih =>
    refine .keep (fun hz => ?_) (ih (fun u w hx hw hu => ?_) ?_)
    · exact hidden [] (c :: x) rfl (by simp) (by rwa [List.append_nil])
    · exact hidden (c :: u) w (by rw [hx]; rfl) hw (by simpa using hu)
    · simpa using rest

/-- Behind a character of a mask, no `m` is put in the place of another one. -/
lemma Masks.cons_of_mem_mask (h : a.Masks m z (c :: cs) out)
    (hz : ∃ d, z.getLast? = some d ∧ d ∈ mask) (hc : c ∈ mask ∨ a.isValue c = false) :
    ∃ out', out = c :: out' ∧ a.Masks m (z ++ [c]) cs out' := by
  obtain ⟨d, hd, hmem⟩ := hz
  generalize hcs : c :: cs = t at h
  cases h with
  | nil => cases hcs
  | keep _ rest => cases hcs; exact ⟨_, rfl, rest⟩
  | @block _ w cs out ne_nil _ apart _ =>
    obtain hlast | ⟨e, he, hne, hvalue⟩ := apart
    · exact absurd hmem (hlast d hd)
    · cases w with
      | nil => exact absurd rfl ne_nil
      | cons b w =>
        cases he
        cases hcs
        exact (hc.elim hne fun hv => Bool.noConfusion (hv.symm.trans hvalue)).elim

/-- A mask that is kept up to some character is kept as a whole. -/
lemma Masks.exists_append_mask (h : a.Masks m z (x ++ cs) out) (hx : ∀ c ∈ x, c ∈ mask)
    (hz : ∃ d, z.getLast? = some d ∧ d ∈ mask) :
    ∃ out', out = x ++ out' ∧ a.Masks m (z ++ x) cs out' := by
  induction x generalizing z out with
  | nil => exact ⟨out, rfl, by simpa using h⟩
  | cons c x ih =>
    rw [List.forall_mem_cons] at hx
    obtain ⟨out, rfl, hkept⟩ := h.cons_of_mem_mask hz (Or.inl hx.1)
    obtain ⟨out, rfl, hrest⟩ := ih hkept hx.2 ⟨c, by simp, hx.1⟩
    exact ⟨out, rfl, by simpa using hrest⟩

lemma Masks.not_startsValue (h : a.Masks m z cs out) (hcs : ¬ a.StartsValue cs)
    (hz : ∃ d, z.getLast? = some d ∧ d ∈ mask) : ¬ a.StartsValue out := by
  cases cs with
  | nil =>
    generalize hnil : [] = t at h
    cases h with
    | nil => exact hcs
    | keep _ _ => cases hnil
    | block ne_nil _ _ _ => exact absurd (List.append_eq_nil_iff.1 hnil.symm).1 ne_nil
  | cons c r =>
    have hc : a.isValue c = false := by simpa using fun hv => hcs ⟨c, rfl, hv⟩
    obtain ⟨out, rfl, -⟩ := h.cons_of_mem_mask hz (Or.inr hc)
    rintro ⟨d, hd, hvalue⟩
    cases hd
    exact Bool.noConfusion (hc.symm.trans hvalue)

/-- A mask that no head ends in or goes on behind. -/
structure IsBracketed (m : List Char) : Prop where
  not_edge : ∀ c ∈ m, isEdge c = false
  exists_concat : ∃ x, m = x ++ [']']

lemma IsHead.bracket_notMem (hh : a.IsHead h) : ']' ∉ h := hh.notMem (by decide) (by decide)

lemma EndsInHead.of_bracket (h : a.EndsInHead (x ++ ']' :: y)) : a.EndsInHead y := by
  obtain ⟨h, hh, hsuffix⟩ := h
  have hprefix : h.reverse <+: y.reverse ++ ']' :: x.reverse := by
    simpa using List.reverse_prefix.2 hsuffix
  refine ⟨h, hh, List.reverse_prefix.1 (prefix_of_append_cons ?_ _ hprefix)⟩
  simpa using hh.bracket_notMem

/-- A step as above leaves a settled text. -/
theorem Masks.settledFrom (hm : IsBracketed m) (h : a.Masks m z cs out) : a.SettledFrom z out := by
  induction h with
  | nil z =>
    intro x y hxy _ hy
    obtain ⟨rfl, rfl⟩ := List.append_eq_nil_iff.1 hxy.symm
    obtain ⟨c, hc, -⟩ := hy
    cases hc
  | @keep z cs out c hidden rest ih =>
    intro x y hxy hz
    cases x with
    | nil =>
      rw [List.append_nil] at hz
      rw [List.nil_append] at hxy
      subst hxy
      intro hvalue
      obtain ⟨r', hmask, hr'⟩ := hidden hz hvalue
      -- the mask that stands here is kept, and what comes after it still starts with no value
      obtain ⟨b, t, hbt⟩ : ∃ b t, mask = b :: t := ⟨_, _, rfl⟩
      rw [hbt, List.cons_append] at hmask
      obtain ⟨rfl, rfl⟩ := List.cons.inj hmask
      have hmem : ∀ d ∈ c :: t, d ∈ mask := fun d hd => hbt ▸ hd
      rw [List.forall_mem_cons] at hmem
      obtain ⟨out, rfl, hrest⟩ := rest.exists_append_mask hmem.2 ⟨c, by simp, hmem.1⟩
      rw [List.append_assoc, List.singleton_append, ← hbt] at hrest
      refine ⟨out, by rw [hbt]; rfl, hrest.not_startsValue hr' ⟨']', ?_, by decide⟩⟩
      rw [List.getLast?_append_of_ne_nil _ (by decide)]
      decide
    | cons d x =>
      obtain ⟨rfl, rfl⟩ := List.cons.inj hxy
      exact ih x y rfl (by simpa using hz)
  | @block z w cs out ne_nil hidden apart rest ih =>
    intro x y hxy hz
    obtain ⟨u, rfl, hy⟩ | ⟨u, rfl, rfl⟩ := List.append_eq_append_iff.1 hxy
    · obtain ⟨t, rfl⟩ := hm.exists_concat
      refine ih u y hy (EndsInHead.of_bracket (x := z ++ t) ?_)
      simpa using hz
    · cases hx : x.getLast? with
      | none =>
        obtain rfl := List.getLast?_eq_none_iff.1 hx
        rw [List.append_nil] at hz
        obtain ⟨hu, hout⟩ := hidden hz
        rw [List.nil_append] at hu
        exact fun _ => ⟨out, by rw [hu], hout⟩
      | some d =>
        have hedge := hz.isEdge_of_getLast? (by rw [List.getLast?_append, hx]; rfl)
        have hnot := hm.not_edge d (List.mem_append_left u (List.mem_of_getLast? hx))
        exact Bool.noConfusion (hnot.symm.trans hedge)

/-! ### Hiding -/

lemma isBracketed_mask : IsBracketed mask where
  not_edge := forall_mem_of_all (by decide)
  exists_concat := ⟨"[REDACTED".toList, by decide⟩

lemma IsHead.getLast?_notMem_mask (hh : a.IsHead h) (z : List Char) :
    ∀ c, (z ++ h).getLast? = some c → c ∉ mask := by
  intro c hc hmem
  rw [List.getLast?_append_of_ne_nil _ hh.ne_nil] at hc
  exact Bool.noConfusion
    ((isBracketed_mask.not_edge c hmem).symm.trans (hh.isEdge_of_getLast? hc))

/-- After a part of a head that holds another one, no value starts within the head. -/
lemma IsHead.not_startsValue (hh : a.IsHead (x ++ y)) (hx : a.EndsInHead x) (hy : y ≠ []) :
    ¬ a.StartsValue (y ++ r) := by
  obtain ⟨h, hhx, t, rfl⟩ := hx
  obtain ⟨before, s, after, rfl, hs, -, -⟩ := hhx.exists_append
  have hgap := (show a.IsHead ((t ++ before) ++ s :: (after ++ y)) by simpa using hh)
  rintro ⟨c, hc, hvalue⟩
  rw [List.head?_append_of_ne_nil _ hy] at hc
  have hblank := hgap.isBlank_or_isQuote hs c
    (List.mem_append_right after (List.mem_of_head? hc))
  exact Bool.noConfusion (hvalue.symm.trans (a.isValue_eq_false hblank))

/-- No assignment starts at a character of `z` when `cs` follows. -/
def Passed (a : NamedAssignment) (z cs : List Char) : Prop :=
  ∀ u w, z = u ++ w → w ≠ [] → ¬ a.Begins (w ++ cs)

lemma Passed.not_startsValue (hp : a.Passed z cs) (hz : a.EndsInHead z) : ¬ a.StartsValue cs := by
  obtain ⟨h, hh, u, rfl⟩ := hz
  exact fun hcs => hp u h rfl hh.ne_nil ⟨h, cs, rfl, hh, hcs⟩

lemma Passed.cases_append (hp : a.Passed z (x ++ y)) (hz : a.EndsInHead (z ++ x)) :
    a.EndsInHead x ∨ ¬ a.StartsValue y := by
  obtain ⟨h, hh, hsuffix⟩ := hz
  obtain hx | ⟨t, rfl⟩ := List.suffix_or_suffix_of_suffix hsuffix (List.suffix_append z x)
  · exact Or.inl ⟨h, hh, hx⟩
  · obtain ⟨s, hs⟩ := hsuffix
    rw [← List.append_assoc] at hs
    obtain rfl := List.append_cancel_right hs
    by_cases ht : t = []
    · exact Or.inl ⟨x, by simpa [ht] using hh, List.suffix_rfl⟩
    · exact Or.inr fun hy => hp s t rfl ht ⟨t ++ x, y, (List.append_assoc ..).symm, hh, hy⟩

lemma passed_nil (cs : List Char) : a.Passed [] cs :=
  fun _ _ h hw => absurd (List.append_eq_nil_iff.1 h.symm).2 hw

lemma Passed.concat (hp : a.Passed z (c :: r)) (hc : ¬ a.Begins (c :: r)) :
    a.Passed (z ++ [c]) r := by
  intro u w hzw hw
  obtain rfl | ⟨w, d, rfl⟩ := List.eq_nil_or_concat w
  · exact absurd rfl hw
  · rw [List.concat_eq_append, ← List.append_assoc] at hzw
    obtain ⟨rfl, hd⟩ := List.append_inj' hzw rfl
    cases hd
    rw [List.concat_eq_append, List.append_assoc, List.singleton_append]
    by_cases hnil : w = []
    · rwa [hnil]
    · exact hp u w rfl hnil

lemma startsValue_hide {b : NamedAssignment} : a.StartsValue (b.hide cs) ↔ a.StartsValue cs := by
  rw [StartsValue, head?_hide, StartsValue]

lemma masks_hide (cs : List Char) (hp : a.Passed z cs) : a.Masks mask z cs (a.hide cs) := by
  induction cs using hide_induction (a := a) generalizing z with
  | nil => exact .nil z
  | keep c r hb ih =>
    rw [hide_cons hb]
    exact .keep (fun hz hvalue => absurd hvalue (hp.not_startsValue hz)) (ih (hp.concat hb))
  | found h r hh hr ih =>
    rw [hide_append hh hr]
    refine .keeps (fun u w huw hw hz => ?_) ?_
    · subst huw
      rw [List.append_assoc] at hp
      obtain hu | hr := hp.cases_append hz
      · exact fun hvalue => absurd hvalue (hh.not_startsValue hu hw)
      · exact fun hvalue => absurd hvalue hr
    · have hblock : a.Masks mask (z ++ h) (r.takeWhile a.isValue ++ r.dropWhile a.isValue)
          (mask ++ a.hide (r.dropWhile a.isValue)) := by
        refine .block hr.takeWhile_ne_nil (fun _ => ⟨rfl, ?_⟩)
          (Or.inl (hh.getLast?_notMem_mask z)) (ih (passed_nil _))
        rw [startsValue_hide]
        exact not_startsValue_dropWhile r
      rwa [List.takeWhile_append_dropWhile] at hblock

/-- What hiding leaves is settled. -/
theorem settled_hide (a : NamedAssignment) (cs : List Char) : a.Settled (a.hide cs) :=
  (masks_hide cs (passed_nil cs)).settledFrom isBracketed_mask

lemma masks_hide_of_settled {b : NamedAssignment}
    (apart : ∀ z, a.EndsInHead z → ¬ b.EndsInHead z) (cs : List Char) (hs : a.Settled (z ++ cs)) :
    a.Masks mask z cs (b.hide cs) := by
  induction cs using hide_induction (a := b) generalizing z with
  | nil => exact .nil z
  | keep c r hb ih =>
    rw [hide_cons hb]
    exact .keep hs.hidden (ih (by simpa using hs))
  | found h r hh hr ih =>
    rw [hide_append hh hr]
    refine .keeps (fun u w huw hw hz => ?_) ?_
    · subst huw
      exact Settled.hidden (x := z ++ u) (by simpa using hs) hz
    · have hblock : a.Masks mask (z ++ h) (r.takeWhile b.isValue ++ r.dropWhile b.isValue)
          (mask ++ b.hide (r.dropWhile b.isValue)) := by
        refine .block hr.takeWhile_ne_nil (fun hz => ?_)
          (Or.inl (hh.getLast?_notMem_mask z)) (ih ?_)
        · exact absurd ⟨h, hh, List.suffix_append z h⟩ (apart _ hz)
        · refine Settled.right (x := z ++ (h ++ r.takeWhile b.isValue)) ?_
          simpa using hs
      rwa [List.takeWhile_append_dropWhile] at hblock

/-- Hiding other values leaves a settled text settled, if no head of theirs ends where one of the
settled ones does. -/
theorem Settled.hide {b : NamedAssignment} (apart : ∀ z, a.EndsInHead z → ¬ b.EndsInHead z)
    (hs : a.Settled cs) : a.Settled (b.hide cs) :=
  (masks_hide_of_settled (z := []) apart cs hs).settledFrom isBracketed_mask

/-! ### Words -/

section

variable {p : List Char → Bool} {w : List Char}
  (hp : ∀ w, p w = true → ∃ c, w.head? = some c ∧ c ∉ mask ∧ a.isValue c = true)

include hp in
lemma masks_maskWord (hs : a.Settled (z ++ (w ++ cs)))
    (rest : ∀ z, a.Settled (z ++ cs) → a.Masks m z cs out) :
    a.Masks m z (w ++ cs) (maskWord p m w ++ out) := by
  unfold maskWord
  split
  · next hw =>
    obtain ⟨c, hc, hmem, hvalue⟩ := hp w hw
    have hne : w ≠ [] := by
      rintro rfl
      cases hc
    have hhead : (w ++ cs).head? = some c := by rw [List.head?_append_of_ne_nil _ hne, hc]
    refine .block hne (fun hz => ?_) (Or.inr ⟨c, hc, hmem, hvalue⟩) (rest [] ?_)
    · -- the word would have to start with the mask
      obtain ⟨r', hmask, -⟩ := hs.hidden hz ⟨c, hhead, hvalue⟩
      rw [hmask, List.head?_append_of_ne_nil _ (by decide)] at hhead
      exact absurd (List.mem_of_head? hhead) hmem
    · exact hs.right.right
  · refine .keeps (fun u v huv hv hz => ?_) (rest _ (by simpa using hs))
    subst huv
    exact Settled.hidden (x := z ++ u) (by simpa using hs) hz

include hp in
lemma masks_maskWordsFrom (cs : List Char) (hs : a.Settled (z ++ (w.reverse ++ cs))) :
    a.Masks m z (w.reverse ++ cs) (maskWordsFrom p m w cs) := by
  induction cs generalizing z w with
  | nil =>
    rw [maskWordsFrom, ← List.append_nil (maskWord p m w.reverse)]
    exact masks_maskWord hp hs fun z _ => .nil z
  | cons c r ih =>
    rw [maskWordsFrom]
    split
    · have hcons : w.reverse ++ c :: r = (c :: w).reverse ++ r := by simp
      rw [hcons] at hs ⊢
      exact ih hs
    · refine masks_maskWord hp hs fun z hs => .keep hs.hidden ?_
      exact ih (w := []) (by simpa using hs)

include hp in
/-- Masking words leaves a settled text settled, if they start as no mask does. -/
theorem Settled.maskWords (hm : IsBracketed m) (hs : a.Settled cs) :
    a.Settled (Redaction.maskWords p m cs) :=
  (masks_maskWordsFrom (z := []) hp (w := []) cs hs).settledFrom hm

end

end NamedAssignment

end StellarWallet.Redaction
