import StellarWallet.Proofs.Redaction.Names

/-!
Where the sensitive assignments of a text start, and what hiding their values makes of it.

A head is a name and the sign after it. A text begins with an assignment where a head is followed
by a character of a value. Hiding copies a text up to the end of such a head, puts the mask there
and goes on behind the value; this is stated without the lengths that the scan itself counts.
-/

namespace StellarWallet.Redaction

open Text

/-- What every value may hold: no blank, no quote, no comma and no closing brace. -/
def isPlain (c : Char) : Bool := !(isBlank c || isQuote c || c = ',' || c = '\x7d')

lemma isPlain_of_isNameChar {c : Char} (h : isNameChar c = true) : isPlain c = true := by
  simp [isPlain, isBlank_of_isNameChar h, isQuote_of_isNameChar h,
    ne_of_isNameChar h (d := ',') (by decide), ne_of_isNameChar h (d := '\x7d') (by decide)]

/-- Names and values that are read as they should: a name wherever something other than a name goes
on after it, and no blank or quote in a value. -/
structure NamedAssignment extends Assignment where
  names : List (List Char)
  isNameChar : ∀ n ∈ names, n.all isNameChar = true
  exists_of_dropName : ∀ {cs r}, dropName cs = some r → ∃ n ∈ names, ∃ u, Spells n u ∧ cs = u ++ r
  dropName_append : ∀ {n u r}, n ∈ names → Spells n u →
    (∀ c, r.head? = some c → isEdge c = true) → dropName (u ++ r) = some r
  isValue_eq_false : ∀ {c}, isBlank c = true ∨ isQuote c = true → isValue c = false
  isValue_of_isPlain : ∀ {c}, isPlain c = true → isValue c = true

namespace NamedAssignment

variable (a : NamedAssignment) {h r cs : List Char} {c : Char}

/-- A name and a sign. -/
def IsHead (h : List Char) : Prop :=
  ∃ n ∈ a.names, ∃ u g, Spells n u ∧ IsSignPart g ∧ h = u ++ g

/-- A text that goes on with a value. -/
def StartsValue (r : List Char) : Prop := ∃ c, r.head? = some c ∧ a.isValue c = true

/-- A text that starts with an assignment. -/
def Begins (cs : List Char) : Prop := ∃ h r, cs = h ++ r ∧ a.IsHead h ∧ a.StartsValue r

variable {a}

lemma not_edge (hc : a.isValue c = true) : isBlank c = false ∧ isQuote c = false := by
  constructor <;> rw [← Bool.not_eq_true] <;> intro h
  · exact Bool.noConfusion (hc.symm.trans (a.isValue_eq_false (Or.inl h)))
  · exact Bool.noConfusion (hc.symm.trans (a.isValue_eq_false (Or.inr h)))

lemma StartsValue.takeWhile_ne_nil (hr : a.StartsValue r) : r.takeWhile a.isValue ≠ [] := by
  obtain ⟨c, hc, hvalue⟩ := hr
  cases r with
  | nil => cases hc
  | cons d r =>
    cases hc
    rw [List.takeWhile_cons_of_pos hvalue]
    exact List.cons_ne_nil _ _

lemma match?_append (hh : a.IsHead h) (hr : a.StartsValue r) :
    a.match? (h ++ r) = some (h.length, (r.takeWhile a.isValue).length) := by
  obtain ⟨n, hn, u, g, hu, hg, rfl⟩ := hh
  obtain ⟨c, hc, hvalue⟩ := hr
  have hname : a.dropName (u ++ (g ++ r)) = some (g ++ r) := by
    refine a.dropName_append hn hu fun d hd => ?_
    obtain ⟨before, s, after, rfl, hs, -, -⟩ := hg.exists_append
    cases before with
    | nil => cases hd; exact isEdge_of_isSign hs
    | cons b before => cases hd; exact hg.isEdge _ List.mem_cons_self
  have hsign : dropSign (g ++ r) = some r := dropSign_append hg ⟨c, hc, a.not_edge hvalue⟩
  have hne : (r.takeWhile a.isValue).isEmpty = false :=
    List.isEmpty_eq_false_iff.2 (StartsValue.takeWhile_ne_nil ⟨c, hc, hvalue⟩)
  have hlength : (u ++ (g ++ r)).length - r.length = (u ++ g).length := by
    simp only [List.length_append]
    omega
  rw [Assignment.match?, List.append_assoc, hname, Option.bind_some, hsign]
  dsimp only
  rw [hne, if_neg Bool.false_ne_true, hlength]

lemma begins_of_match? {p : Nat × Nat} (h : a.match? cs = some p) : a.Begins cs := by
  rw [Assignment.match?] at h
  split at h
  · cases h
  · next r hr =>
    obtain ⟨cs', hname, hsign⟩ := Option.bind_eq_some_iff.1 hr
    obtain ⟨n, hn, u, hu, rfl⟩ := a.exists_of_dropName hname
    obtain ⟨g, hg, rfl⟩ := exists_of_dropSign hsign
    refine ⟨u ++ g, r, (List.append_assoc ..).symm, ⟨n, hn, u, g, hu, hg, rfl⟩, ?_⟩
    cases r with
    | nil => cases h
    | cons c r =>
      refine ⟨c, rfl, ?_⟩
      by_contra hc
      rw [List.takeWhile_cons_of_neg hc] at h
      cases h

lemma IsHead.exists_append (hh : a.IsHead h) : ∃ before s after, h = before ++ s :: after ∧
    isSign s = true ∧ (∀ c ∈ before, isSign c = false) ∧
    ∀ c ∈ after, isBlank c = true ∨ isQuote c = true := by
  obtain ⟨n, hn, u, g, hu, hg, rfl⟩ := hh
  obtain ⟨before, s, after, rfl, hs, hbefore, hafter⟩ := hg.exists_append
  refine ⟨u ++ before, s, after, (List.append_assoc ..).symm, hs, fun c hc => ?_, hafter⟩
  exact (List.mem_append.1 hc).elim
    (fun hc => isSign_of_isNameChar (hu.isNameChar (a.isNameChar n hn) c hc)) (hbefore c)

lemma IsHead.ne_nil (hh : a.IsHead h) : h ≠ [] := by
  obtain ⟨before, s, after, rfl, -⟩ := hh.exists_append
  simp

/-- What a head holds after its sign. -/
lemma IsHead.isBlank_or_isQuote {x y : List Char} {s : Char} (hh : a.IsHead (x ++ s :: y))
    (hs : isSign s = true) : ∀ c ∈ y, isBlank c = true ∨ isQuote c = true := by
  obtain ⟨before, s', after, he, -, hbefore, hafter⟩ := hh.exists_append
  obtain ⟨z, rfl, hz⟩ | ⟨z, rfl, hz⟩ := List.append_eq_append_iff.1 he
  · cases z with
    | nil => cases hz; exact hafter
    | cons d z =>
      cases hz
      exact absurd hs (by simp [hbefore s (by simp)])
  · cases z with
    | nil => cases hz; exact hafter
    | cons d z =>
      cases hz
      exact fun c hc => hafter c (List.mem_append_right z (List.mem_cons_of_mem s hc))

lemma IsHead.length_dropWhile_lt (hh : a.IsHead h) (r : List Char) :
    (r.dropWhile a.isValue).length < (h ++ r).length := by
  have hle := (List.dropWhile_sublist a.isValue (l := r)).length_le
  have hpos := List.length_pos_of_ne_nil hh.ne_nil
  rw [List.length_append]
  omega

lemma IsHead.isEdge_of_getLast? (hh : a.IsHead h) (hc : h.getLast? = some c) :
    isEdge c = true := by
  obtain ⟨before, s, after, rfl, hs, -, hafter⟩ := hh.exists_append
  rw [List.getLast?_append_of_ne_nil _ (by simp)] at hc
  obtain rfl | hc := List.mem_cons.1 (List.mem_of_getLast? hc)
  · exact isEdge_of_isSign hs
  · exact (hafter c hc).elim isEdge_of_isBlank isEdge_of_isQuote

lemma IsHead.notMem (hh : a.IsHead h) (hname : Redaction.isNameChar c = false)
    (hedge : isEdge c = false) : c ∉ h := by
  obtain ⟨n, hn, u, g, hu, hg, rfl⟩ := hh
  rw [List.mem_append, not_or]
  refine ⟨fun hc => ?_, fun hc => ?_⟩
  · exact Bool.noConfusion (hname.symm.trans (hu.isNameChar (a.isNameChar n hn) c hc))
  · exact Bool.noConfusion (hedge.symm.trans (hg.isEdge c hc))

/-! ### Hiding -/

lemma hideAfter_eq_hide_drop (skip : Nat) (cs : List Char) :
    a.hideAfter skip cs = a.hide (cs.drop skip) := by
  induction skip generalizing cs with
  | zero => rfl
  | succ skip ih =>
    cases cs with
    | nil => rfl
    | cons c r => exact ih r

@[simp] lemma hide_nil : a.hide [] = [] := rfl

lemma hide_cons (hc : ¬ a.Begins (c :: r)) : a.hide (c :: r) = c :: a.hide r := by
  have hnone : a.match? (c :: r) = none :=
    Option.eq_none_iff_forall_ne_some.2 fun p hp => hc (begins_of_match? hp)
  rw [Assignment.hide, Assignment.hideAfter, hnone]
  rfl

lemma hide_append (hh : a.IsHead h) (hr : a.StartsValue r) :
    a.hide (h ++ r) = h ++ (mask ++ a.hide (r.dropWhile a.isValue)) := by
  have hm := match?_append hh hr
  have hvalue : (r.takeWhile a.isValue ++ r.dropWhile a.isValue).drop
      (r.takeWhile a.isValue).length = r.dropWhile a.isValue := List.drop_left
  rw [List.takeWhile_append_dropWhile] at hvalue
  cases h with
  | nil => exact absurd rfl hh.ne_nil
  | cons c h =>
    have hafter : a.hideAfter ((c :: h).length + (r.takeWhile a.isValue).length - 1) (h ++ r)
        = a.hide (r.dropWhile a.isValue) := by
      rw [hideAfter_eq_hide_drop, List.length_cons, Nat.add_right_comm, Nat.add_sub_cancel,
        List.drop_length_add_append, hvalue]
    rw [List.cons_append] at hm ⊢
    rw [Assignment.hide, Assignment.hideAfter, hm]
    dsimp only
    rw [hafter, ← List.cons_append, List.take_left, List.append_assoc]

/-- A text is hidden step by step: a character that no assignment starts with is kept, and an
assignment is left behind as a whole. -/
theorem hide_induction {motive : List Char → Prop} (nil : motive [])
    (keep : ∀ c r, ¬ a.Begins (c :: r) → motive r → motive (c :: r))
    (found : ∀ h r, a.IsHead h → a.StartsValue r → motive (r.dropWhile a.isValue) →
      motive (h ++ r)) (cs : List Char) : motive cs := by
  induction hn : cs.length using Nat.strongRecOn generalizing cs with
  | ind n ih =>
    subst hn
    by_cases hb : a.Begins cs
    · obtain ⟨h, r, rfl, hh, hr⟩ := hb
      exact found h r hh hr (ih _ (hh.length_dropWhile_lt r) _ rfl)
    · cases cs with
      | nil => exact nil
      | cons c r => exact keep c r hb (ih _ (Nat.lt_succ_self _) r rfl)

/-- The first character stays. -/
lemma head?_hide (cs : List Char) : (a.hide cs).head? = cs.head? := by
  by_cases hb : a.Begins cs
  · obtain ⟨h, r, rfl, hh, hr⟩ := hb
    rw [hide_append hh hr, List.head?_append_of_ne_nil _ hh.ne_nil,
      List.head?_append_of_ne_nil _ hh.ne_nil]
  · cases cs with
    | nil => rfl
    | cons c r => rw [hide_cons hb]; rfl

end NamedAssignment

/-! ### Secrets and passwords -/

namespace NamedAssignment

def secret : NamedAssignment where
  toAssignment := secretAssignment
  names := nameSuffixes.map ("secret".toList ++ ·)
  isNameChar := by decide
  exists_of_dropName := by
    intro cs r h
    obtain ⟨r', hsecret, rfl⟩ := Option.map_eq_some_iff.1 h
    obtain ⟨u, hu, rfl⟩ := dropWord_eq_some_iff.1 hsecret
    obtain ⟨w, hw, u', hu', hr'⟩ := exists_of_dropNameSuffix r'
    exact ⟨_, List.mem_map_of_mem hw, u ++ u', hu.append hu', by rw [List.append_assoc, ← hr']⟩
  dropName_append := by
    intro n u r hn hu hr
    obtain ⟨w, hw, rfl⟩ := List.mem_map.1 hn
    obtain ⟨u, u', rfl, hu, hu'⟩ := hu.exists_append
    have hsecret : dropWord "secret".toList (u ++ (u' ++ r)) = some (u' ++ r) :=
      dropWord_eq_some_iff.2 ⟨u, hu, rfl⟩
    show (dropWord "secret".toList (u ++ u' ++ r)).map dropNameSuffix = some r
    rw [List.append_assoc, hsecret, Option.map_some, dropNameSuffix_append hw hu' hr]
  isValue_eq_false := by
    intro c h
    show (!(isBlank c || isQuote c || c = ',' || c = '\x7d')) = false
    obtain h | h := h <;> simp [h]
  isValue_of_isPlain := id

def password : NamedAssignment where
  toAssignment := passwordAssignment
  names := ["password".toList]
  isNameChar := by decide
  exists_of_dropName := by
    intro cs r h
    obtain ⟨u, hu, rfl⟩ := dropWord_eq_some_iff.1 h
    exact ⟨_, List.mem_singleton_self _, u, hu, rfl⟩
  dropName_append := by
    intro n u r hn hu _
    rw [List.mem_singleton.1 hn] at hu
    exact dropWord_eq_some_iff.2 ⟨u, hu, rfl⟩
  isValue_eq_false := by
    intro c h
    show (!(isBlank c || isQuote c)) = false
    obtain h | h := h <;> simp [h]
  isValue_of_isPlain := by
    intro c h
    show (!(isBlank c || isQuote c)) = true
    simp only [isPlain, Bool.not_eq_true', Bool.or_eq_false_iff] at h
    simp [h.1.1]

end NamedAssignment

end StellarWallet.Redaction
