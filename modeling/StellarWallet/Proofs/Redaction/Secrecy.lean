import StellarWallet.Proofs.Redaction.Assignments
import StellarWallet.Proofs.Redaction.Words

/-!
Redacted texts tell nothing of the values that they hide.

A text with a secret value is compared with the same text with another one. Hiding takes the same
steps through both: what comes before the value may end in a head, or be part of an assignment that
takes the value in, but nothing in it depends on the value. A password may outlive the search for
secrets, which then leaves the same texts around both.
-/

namespace StellarWallet.Redaction

open Text

/-- A name, an equals sign, its value and what follows. -/
def assigned (k v r : List Char) : List Char := k ++ '=' :: (v ++ r)

lemma assigned_eq (k v r : List Char) : assigned k v r = (k ++ ['=']) ++ (v ++ r) := by
  simp [assigned]

namespace NamedAssignment

variable {a : NamedAssignment} {k v v' r p h x : List Char}

/-- The characters of a value, at least one. -/
structure IsValueText (a : NamedAssignment) (v : List Char) : Prop where
  ne_nil : v ≠ []
  isValue : ∀ c ∈ v, a.isValue c = true

lemma IsValueText.startsValue (hv : a.IsValueText v) (r : List Char) : a.StartsValue (v ++ r) := by
  cases v with
  | nil => exact absurd rfl hv.ne_nil
  | cons c v => exact ⟨c, rfl, hv.isValue c List.mem_cons_self⟩

lemma IsHead.eq_nil_of_isNameChar (hh : a.IsHead (p ++ x))
    (hx : ∀ c ∈ x, Redaction.isNameChar c = true) : x = [] := by
  by_contra hne
  have hlast : (p ++ x).getLast? = some (x.getLast hne) := by
    rw [List.getLast?_append_of_ne_nil _ hne, List.getLast?_eq_getLast_of_ne_nil hne]
  have hedge := isEdge_of_isNameChar (hx _ (List.getLast_mem hne))
  exact Bool.noConfusion (hedge.symm.trans (hh.isEdge_of_getLast? hlast))

/-- A head in such a text either ends before the assigned name or is the one before the value. -/
lemma IsHead.cases_assigned (hh : a.IsHead h) (hk : ∀ c ∈ k, Redaction.isNameChar c = true)
    (hv : a.IsValueText v) (he : p ++ assigned k v r = h ++ x) :
    (∃ p', p = h ++ p' ∧ x = p' ++ assigned k v r) ∨ (h = p ++ (k ++ ['=']) ∧ x = v ++ r) := by
  obtain ⟨w, rfl, hx⟩ | ⟨p', hp, hx⟩ := List.append_eq_append_iff.1 he
  · obtain ⟨z, rfl, hz⟩ | ⟨z, rfl, rfl⟩ := List.append_eq_append_iff.1 hx
    · cases z with
      | nil =>
        rw [List.append_nil] at hh
        obtain rfl := hh.eq_nil_of_isNameChar hk
        exact Or.inl ⟨[], by simp, hz.symm⟩
      | cons d z =>
        cases z with
        | nil => cases hz; exact Or.inr ⟨rfl, rfl⟩
        | cons e z =>
          obtain ⟨rfl, hy⟩ := List.cons.inj hz
          -- the value starts right after the sign, where a head has only blanks and quotes
          obtain ⟨c, hc, hvalue⟩ := hv.startsValue r
          rw [hy] at hc
          cases hc
          rw [← List.append_assoc] at hh
          have hgap := hh.isBlank_or_isQuote (by decide) e List.mem_cons_self
          exact Bool.noConfusion (hvalue.symm.trans (a.isValue_eq_false hgap))
    · obtain rfl := hh.eq_nil_of_isNameChar fun c hc => hk c (List.mem_append_left z hc)
      exact Or.inl ⟨[], by simp, rfl⟩
  · exact Or.inl ⟨p', hp, hx⟩

/-! ### One search -/

section

variable (hk : ∀ c ∈ k, Redaction.isNameChar c = true) (hv : a.IsValueText v)
  (hv' : a.IsValueText v') (hr : ∀ c, r.head? = some c → a.isValue c = false)

include hk hv hr in
/-- A value that reaches the assigned name goes on to the end of the assigned value. -/
lemma dropWhile_assigned (p : List Char) : (p ++ assigned k v r).dropWhile a.isValue
    = if (p.dropWhile a.isValue).isEmpty then r
      else p.dropWhile a.isValue ++ assigned k v r := by
  have hall : ∀ c ∈ k ++ '=' :: v, a.isValue c = true := by
    intro c hc
    obtain hc | hc := List.mem_append.1 hc
    · exact a.isValue_of_isPlain (isPlain_of_isNameChar (hk c hc))
    · obtain rfl | hc := List.mem_cons.1 hc
      · exact a.isValue_of_isPlain (by decide)
      · exact hv.isValue c hc
  have htail : (assigned k v r).dropWhile a.isValue = r := by
    rw [assigned, ← List.cons_append, ← List.append_assoc, List.dropWhile_append_of_pos hall,
      dropWhile_eq_self hr]
  rw [List.dropWhile_append, htail]

lemma head?_append_assigned (p k v v' r : List Char) :
    (p ++ assigned k v r).head? = (p ++ assigned k v' r).head? := by
  cases p <;> cases k <;> rfl

lemma StartsValue.assigned (h : a.StartsValue (p ++ assigned k v r)) :
    a.StartsValue (p ++ Redaction.assigned k v' r) := by
  obtain ⟨c, hc, hvalue⟩ := h
  exact ⟨c, (head?_append_assigned ..).symm.trans hc, hvalue⟩

include hv hr in
lemma hide_head_assigned (hh : a.IsHead (p ++ (k ++ ['=']))) :
    a.hide (p ++ assigned k v r) = p ++ (k ++ ['=']) ++ (mask ++ a.hide r) := by
  rw [assigned_eq, ← List.append_assoc, hide_append hh (hv.startsValue r),
    List.dropWhile_append_of_pos hv.isValue, dropWhile_eq_self hr]

include hk hv hv' in
lemma Begins.assigned (hb : a.Begins (p ++ assigned k v r)) :
    a.Begins (p ++ Redaction.assigned k v' r) := by
  obtain ⟨h, x, he, hh, hx⟩ := hb
  obtain ⟨p', rfl, rfl⟩ | ⟨rfl, rfl⟩ := hh.cases_assigned hk hv he
  · exact ⟨h, _, List.append_assoc .., hh, hx.assigned⟩
  · exact ⟨_, v' ++ r, by simp [Redaction.assigned], hh, hv'.startsValue r⟩

include hk hv hv' hr in
/-- What hiding makes of the two texts is related as it is without the text before them, in any way
that equal texts are and that equal beginnings do not change. -/
theorem hide_assigned_rel {Rel : List Char → List Char → Prop} (refl : ∀ x, Rel x x)
    (append : ∀ y {x x'}, Rel x x' → Rel (y ++ x) (y ++ x'))
    (hbase : Rel (a.hide (assigned k v r)) (a.hide (assigned k v' r))) (p : List Char) :
    Rel (a.hide (p ++ assigned k v r)) (a.hide (p ++ assigned k v' r)) := by
  induction hn : p.length using Nat.strongRecOn generalizing p with
  | ind n ih =>
    subst hn
    by_cases hb : a.Begins (p ++ assigned k v r)
    · obtain ⟨h, x, he, hh, hx⟩ := hb
      obtain ⟨p', rfl, rfl⟩ | ⟨rfl, rfl⟩ := hh.cases_assigned hk hv he
      · rw [List.append_assoc, List.append_assoc, hide_append hh hx, hide_append hh hx.assigned,
          dropWhile_assigned hk hv hr, dropWhile_assigned hk hv' hr]
        refine append h (append mask ?_)
        split
        · exact refl _
        · exact ih _ (hh.length_dropWhile_lt p') _ rfl
      · rw [hide_head_assigned hv hr hh, hide_head_assigned hv' hr hh]
        exact refl _
    · cases p with
      | nil => exact hbase
      | cons c p =>
        have hb' : ¬ a.Begins (c :: p ++ assigned k v' r) := fun h => hb (h.assigned hk hv' hv)
        rw [List.cons_append] at hb hb'
        rw [List.cons_append, List.cons_append, hide_cons hb, hide_cons hb']
        exact append [c] (ih p.length (Nat.lt_succ_self _) p rfl)

end

lemma isHead_of_spells {n : List Char} (hn : n ∈ a.names) (hk : Spells n k) :
    a.IsHead (k ++ ['=']) :=
  have hsign : IsSignPart ([] ++ ([] ++ '=' :: ([] ++ []))) :=
    .mk atMostOne_nil (by simp) (by decide) (by simp) atMostOne_nil
  ⟨n, hn, k, ['='], hk, hsign, rfl⟩

/-! ### Passwords in the search for secrets -/

/-- Characters that no assignment starts at are kept. -/
lemma hide_keep {x r : List Char} (h : ∀ u w, x = u ++ w → w ≠ [] → ¬ a.Begins (w ++ r)) :
    a.hide (x ++ r) = x ++ a.hide r := by
  induction x with
  | nil => rfl
  | cons c x ih =>
    have hc : ¬ a.Begins (c :: (x ++ r)) := h [] (c :: x) rfl (by simp)
    rw [List.cons_append, hide_cons hc, ih fun u w hx => h (c :: u) w (by rw [hx]; rfl)]
    rfl

end NamedAssignment

lemma Spells.exists_sameLetter {word cs : List Char} (h : Spells word cs) :
    ∀ w ∈ word, ∃ c ∈ cs, sameLetter w c = true := by
  induction h with
  | nil => simp
  | cons hc _ ih =>
    intro w hw
    obtain rfl | hw := List.mem_cons.1 hw
    · exact ⟨_, List.mem_cons_self, hc⟩
    · obtain ⟨c, hc, hwc⟩ := ih w hw
      exact ⟨c, List.mem_cons_of_mem _ hc, hwc⟩

lemma Spells.exists_letter {word cs : List Char} (h : Spells word cs) :
    ∀ c ∈ cs, ∃ w ∈ word, sameLetter w c = true := by
  induction h with
  | nil => simp
  | cons hc _ ih =>
    intro c hmem
    obtain rfl | hmem := List.mem_cons.1 hmem
    · exact ⟨_, List.mem_cons_self, hc⟩
    · obtain ⟨w, hw, hwc⟩ := ih c hmem
      exact ⟨w, List.mem_cons_of_mem _ hw, hwc⟩

/-- No `secret` stands in a `password`. -/
lemma not_infix_of_spells {u k : List Char} (hu : Spells "secret".toList u)
    (hk : Spells "password".toList k) : ¬ u <:+: k := by
  intro h
  obtain ⟨c, hc, hcc⟩ := hu.exists_sameLetter 'c' (by decide)
  obtain ⟨w, hw, hwc⟩ := hk.exists_letter c (h.subset hc)
  have hletters : ∀ w ∈ "password".toList, w.toNat < 128 ∧ w ≠ 'c' :=
    forall_mem_of_all (by decide)
  exact (hletters w hw).2 (sameLetter_inj (hletters w hw).1 (by decide) hwc hcc)

/-- The text holds no `secret`, in letters of either case. -/
def NoSecret (v : List Char) : Prop := ∀ u, Spells "secret".toList u → ¬ u <:+: v

lemma noSecret_of_letter {v : List Char} {w : Char} (hw : w ∈ "secret".toList)
    (h : ∀ c ∈ v, sameLetter w c = false) : NoSecret v := by
  intro u hu hv
  obtain ⟨c, hc, hwc⟩ := hu.exists_sameLetter w hw
  exact Bool.noConfusion ((h c (hv.subset hc)).symm.trans hwc)

/-- A blank or the end. -/
def StartsBlank (r : List Char) : Prop := ∀ c, r.head? = some c → isBlank c = true

namespace NamedAssignment

lemma secret_exists_prefix {cs : List Char} (h : secret.Begins cs) :
    ∃ u, Spells "secret".toList u ∧ u <+: cs := by
  obtain ⟨h, r, rfl, ⟨n, hn, u, g, hu, -, rfl⟩, -⟩ := h
  obtain ⟨w, -, rfl⟩ := List.mem_map.1 hn
  obtain ⟨u, u', rfl, hu, -⟩ := hu.exists_append
  exact ⟨u, hu, by simp only [List.append_assoc]; exact List.prefix_append u _⟩

/-- The search for secrets passes by the assignment of a password. -/
lemma hide_secret_assigned {k v r : List Char} (hk : Spells "password".toList k) (hv : NoSecret v)
    (hr : StartsBlank r) : secret.hide (assigned k v r) = assigned k v (secret.hide r) := by
  have hkeep : secret.hide ((k ++ '=' :: v) ++ r) = (k ++ '=' :: v) ++ secret.hide r := by
    refine hide_keep fun x w hx _ hb => ?_
    obtain ⟨u, hu, hprefix⟩ := secret_exists_prefix hb
    have hname := hu.isNameChar (by decide)
    have hw : u <+: w := by
      cases r with
      | nil => rwa [List.append_nil] at hprefix
      | cons c r =>
        refine prefix_of_append_cons (fun hc => ?_) w hprefix
        exact Bool.noConfusion ((isBlank_of_isNameChar (hname c hc)).symm.trans (hr c rfl))
    have hlies : u <:+: k ++ '=' :: v := hx ▸ hw.isInfix.trans (List.suffix_append x w).isInfix
    obtain h | h := (infix_append_cons_iff fun hc => absurd (hname '=' hc) (by decide)).1 hlies
    · exact not_infix_of_spells hu hk h
    · exact hv u hu h
  simpa [assigned] using hkeep

end NamedAssignment

/-- Two texts that are equal, or that differ in the value of one assignment and have a blank or
nothing after it. -/
inductive DifferInValue (k v v' : List Char) : List Char → List Char → Prop where
  | refl (x : List Char) : DifferInValue k v v' x x
  | assigned (p : List Char) {r : List Char} (hr : StartsBlank r) :
      DifferInValue k v v' (p ++ assigned k v r) (p ++ assigned k v' r)

lemma DifferInValue.append {k v v' : List Char} (y : List Char) {x x' : List Char}
    (h : DifferInValue k v v' x x') : DifferInValue k v v' (y ++ x) (y ++ x') := by
  cases h with
  | refl x => exact .refl (y ++ x)
  | assigned p hr =>
    rw [← List.append_assoc, ← List.append_assoc]
    exact .assigned (y ++ p) hr

/-! ### All searches -/

/-- A value that a secret may have: some characters, none of them a blank, a quote, a comma or a
closing brace, and not the word `secret` among them. -/
structure IsSecretValue (v : List Char) : Prop where
  ne_nil : v ≠ []
  isPlain : ∀ c ∈ v, isPlain c = true
  noSecret : NoSecret v

lemma IsSecretValue.isValueText {v : List Char} (hv : IsSecretValue v) (a : NamedAssignment) :
    a.IsValueText v := ⟨hv.ne_nil, fun c hc => a.isValue_of_isPlain (hv.isPlain c hc)⟩

/-- The names that redaction knows. -/
def sensitiveNames : List (List Char) :=
  NamedAssignment.secret.names ++ NamedAssignment.password.names

section

variable {n k v v' r : List Char} (hv : IsSecretValue v) (hv' : IsSecretValue v')
  (hr : StartsBlank r)

include hr in
lemma StartsBlank.not_isValue (a : NamedAssignment) :
    ∀ c, r.head? = some c → a.isValue c = false :=
  fun c hc => a.isValue_eq_false (Or.inl (hr c hc))

include hv hv' hr in
lemma hide_eq_of_mem {a : NamedAssignment} (hn : n ∈ a.names) (hk : Spells n k) (p : List Char) :
    a.hide (p ++ assigned k v r) = a.hide (p ++ assigned k v' r) := by
  have hname := hk.isNameChar (a.isNameChar n hn)
  have hh := NamedAssignment.isHead_of_spells hn hk
  refine NamedAssignment.hide_assigned_rel hname (hv.isValueText a) (hv'.isValueText a)
    (hr.not_isValue a) (fun _ => rfl) (fun y _ _ h => congrArg (y ++ ·) h) ?_ p
  have hbase : ∀ {w}, IsSecretValue w →
      a.hide (assigned k w r) = k ++ ['='] ++ (mask ++ a.hide r) := fun hw =>
    NamedAssignment.hide_head_assigned (p := []) (hw.isValueText a) (hr.not_isValue a) hh
  rw [hbase hv, hbase hv']

include hv hv' hr in
lemma hideAssigned_assigned (hn : n ∈ sensitiveNames) (hk : Spells n k) (p : List Char) :
    hideAssigned (p ++ assigned k v r) = hideAssigned (p ++ assigned k v' r) := by
  obtain hn | hn := List.mem_append.1 hn
  · exact congrArg passwordAssignment.hide (hide_eq_of_mem hv hv' hr hn hk p)
  · have hspells : Spells "password".toList k := List.mem_singleton.1 hn ▸ hk
    have hname := hk.isNameChar (NamedAssignment.password.isNameChar n hn)
    have hsecret : DifferInValue k v v' (NamedAssignment.secret.hide (p ++ assigned k v r))
        (NamedAssignment.secret.hide (p ++ assigned k v' r)) := by
      refine NamedAssignment.hide_assigned_rel hname (hv.isValueText _) (hv'.isValueText _)
        (hr.not_isValue _) .refl (fun y _ _ h => h.append y) ?_ p
      rw [NamedAssignment.hide_secret_assigned hspells hv.noSecret hr,
        NamedAssignment.hide_secret_assigned hspells hv'.noSecret hr]
      refine .assigned [] fun c hc => hr c ?_
      rwa [NamedAssignment.head?_hide] at hc
    have hpass : ∀ {x x'}, DifferInValue k v v' x x' →
        NamedAssignment.password.hide x = NamedAssignment.password.hide x' := by
      rintro _ _ (x | ⟨q, hr'⟩)
      · rfl
      · exact hide_eq_of_mem hv hv' hr' hn hk q
    exact hpass hsecret

end

/-- **The hidden value is not told.** Whatever stands before a sensitive name in letters of either
case, and whatever follows the blank after its value, a text is redacted to the same with one value
as with another, whether account keys are kept or not. -/
theorem redact_tells_no_value (keepAddresses : Bool) (p : String) {n : List Char}
    {k v v' r : String} (hn : n ∈ sensitiveNames) (hk : Spells n k.toList)
    (hv : IsSecretValue v.toList) (hv' : IsSecretValue v'.toList) (hr : StartsBlank r.toList) :
    redact keepAddresses (p ++ k ++ "=" ++ v ++ r)
      = redact keepAddresses (p ++ k ++ "=" ++ v' ++ r) := by
  have hchars : ∀ w : String, (p ++ k ++ "=" ++ w ++ r).toList
      = p.toList ++ assigned k.toList w.toList r.toList := fun w => by
    simp [assigned, String.toList_append]
  have hhidden := hideAssigned_assigned hv hv' hr hn hk p.toList
  unfold hideAssigned at hhidden
  rw [redact, redact, hchars, hchars]
  unfold redactChars
  rw [hhidden]

/-- A password after an unfinished name of a secret. -/
theorem two_passwords_look_alike :
    redact true ("user: anna, secret_" ++ "PassWord" ++ "=" ++ "hunter2" ++ " (again)")
      = redact true ("user: anna, secret_" ++ "PassWord" ++ "=" ++ "S3:=]x" ++ " (again)") :=
  redact_tells_no_value true "user: anna, secret_" (n := "password".toList) (by decide)
    (by unfold Spells; decide)
    ⟨by decide, forall_mem_of_all (by decide),
      noSecret_of_letter (w := 'c') (by decide) (forall_mem_of_all (by decide))⟩
    ⟨by decide, forall_mem_of_all (by decide),
      noSecret_of_letter (w := 'c') (by decide) (forall_mem_of_all (by decide))⟩
    fun c hc => by cases hc; decide

end StellarWallet.Redaction
