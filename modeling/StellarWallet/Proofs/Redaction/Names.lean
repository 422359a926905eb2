import Mathlib.Data.List.Forall2
import Mathlib.Data.List.TakeWhile
import Mathlib.Tactic.Common
import StellarWallet.Redaction.Assignment

/-!
The names and signs of sensitive assignments, as texts.

A name is a word in letters of either case; the word `secret` may have one of six endings. The sign
after it is a colon or an equals sign among blanks, with a quote on each side perhaps. No character
of a name can stand in a sign, so that there is one way only to read a name and what follows it.
-/

namespace StellarWallet.Redaction

open Text

/-! ### Characters -/

/-- A colon or an equals sign. -/
def isSign (c : Char) : Bool := c = ':' || c = '='

/-- A character that stands between a name and its value. -/
def isEdge (c : Char) : Bool := isBlank c || isQuote c || isSign c

/-- The code points of names: the letters, those that fold to one, a dash and an underscore. -/
def nameRanges : List (Nat × Nat) :=
  [(0x2D, 0x2D), (0x41, 0x5A), (0x5F, 0x5F), (0x61, 0x7A), (0x17F, 0x17F), (0x212A, 0x212A)]

def isNameChar (c : Char) : Bool := inRanges nameRanges c

lemma isNameChar_iff {c : Char} : isNameChar c = true ↔ c.toNat = 0x2D ∨
    (0x41 ≤ c.toNat ∧ c.toNat ≤ 0x5A) ∨ c.toNat = 0x5F ∨ (0x61 ≤ c.toNat ∧ c.toNat ≤ 0x7A) ∨
    c.toNat = 0x17F ∨ c.toNat = 0x212A := by
  simp only [isNameChar, nameRanges, inRanges, List.any_cons, List.any_nil, Bool.or_false,
    Bool.or_eq_true, Bool.and_eq_true, decide_eq_true_eq]
  omega

lemma isBlank_of_isNameChar {c : Char} (h : isNameChar c = true) : isBlank c = false := by
  rw [isNameChar_iff] at h
  rw [← Bool.not_eq_true, isBlank, inRanges_iff]
  simp only [blankRanges, List.mem_cons, List.not_mem_nil, or_false, exists_eq_or_imp,
    exists_eq_left]
  omega

lemma isSign_iff {c : Char} : isSign c = true ↔ c = ':' ∨ c = '=' := by simp [isSign]

lemma isQuote_iff {c : Char} : isQuote c = true ↔ c = '\'' ∨ c = '"' := by simp [isQuote]

lemma ne_of_isNameChar {c d : Char} (h : isNameChar c = true) (hd : isNameChar d = false) :
    c ≠ d := by
  rintro rfl
  exact Bool.noConfusion (h.symm.trans hd)

lemma isQuote_of_isNameChar {c : Char} (h : isNameChar c = true) : isQuote c = false := by
  simp [isQuote, ne_of_isNameChar h (d := '\'') (by decide),
    ne_of_isNameChar h (d := '"') (by decide)]

lemma isSign_of_isNameChar {c : Char} (h : isNameChar c = true) : isSign c = false := by
  simp [isSign, ne_of_isNameChar h (d := ':') (by decide),
    ne_of_isNameChar h (d := '=') (by decide)]

lemma isEdge_of_isNameChar {c : Char} (h : isNameChar c = true) : isEdge c = false := by
  rw [isEdge, isBlank_of_isNameChar h, isQuote_of_isNameChar h, isSign_of_isNameChar h]
  rfl

lemma isQuote_of_isBlank {c : Char} (h : isBlank c = true) : isQuote c = false := by
  rw [← Bool.not_eq_true, isQuote_iff]
  rintro (rfl | rfl) <;> exact absurd h (by decide)

lemma isBlank_of_isQuote {c : Char} (h : isQuote c = true) : isBlank c = false := by
  obtain rfl | rfl := isQuote_iff.1 h <;> decide

lemma isBlank_of_isSign {c : Char} (h : isSign c = true) : isBlank c = false := by
  obtain rfl | rfl := isSign_iff.1 h <;> decide

lemma isQuote_of_isSign {c : Char} (h : isSign c = true) : isQuote c = false := by
  obtain rfl | rfl := isSign_iff.1 h <;> decide

lemma isEdge_of_isBlank {c : Char} (h : isBlank c = true) : isEdge c = true := by simp [isEdge, h]

lemma isEdge_of_isQuote {c : Char} (h : isQuote c = true) : isEdge c = true := by simp [isEdge, h]

lemma isEdge_of_isSign {c : Char} (h : isSign c = true) : isEdge c = true := by simp [isEdge, h]

/-! ### Letters -/

lemma toLower_eq {c : Char} (h : ¬ (0x41 ≤ c.toNat ∧ c.toNat ≤ 0x5A)) : c.toLower = c :=
  dif_neg h

lemma toNat_toLower {c : Char} (h : 0x41 ≤ c.toNat ∧ c.toNat ≤ 0x5A) :
    c.toLower.toNat = c.toNat + 32 := by
  have hlower : c.toLower.val = c.val + 32 := by
    unfold Char.toLower
    exact congrArg Char.val (dif_pos h)
  show c.toLower.val.toNat = c.val.toNat + 32
  have hhigh : c.val.toNat ≤ 0x5A := h.2
  rw [hlower, UInt32.toNat_add]
  exact Nat.mod_eq_of_lt (by simp; omega)

lemma sameLetter_iff {w c : Char} : sameLetter w c = true ↔
    (c.toLower = w ∨ w = 's' ∧ c.toNat = 0x17F) ∨ w = 'k' ∧ c.toNat = 0x212A := by
  simp [sameLetter]

lemma isNameChar_of_sameLetter {w c : Char} (hw : isNameChar w = true)
    (h : sameLetter w c = true) : isNameChar c = true := by
  obtain (h | ⟨-, h⟩) | ⟨-, h⟩ := sameLetter_iff.1 h
  · by_cases hc : 0x41 ≤ c.toNat ∧ c.toNat ≤ 0x5A
    · exact isNameChar_iff.2 (by omega)
    · rwa [← toLower_eq hc, h]
  · exact isNameChar_iff.2 (by omega)
  · exact isNameChar_iff.2 (by omega)

/-- A character stands for one letter only. -/
lemma sameLetter_inj {v w c : Char} (hv : v.toNat < 128) (hw : w.toNat < 128)
    (hvc : sameLetter v c = true) (hwc : sameLetter w c = true) : v = w := by
  -- the two letters that fold are no small form of an ASCII letter
  have hascii : c.toLower = v ∨ c.toLower = w → c.toNat ≠ 0x17F ∧ c.toNat ≠ 0x212A := by
    intro h
    by_contra hc
    rw [toLower_eq (by omega)] at h
    obtain rfl | rfl := h <;> omega
  obtain (h | ⟨rfl, h⟩) | ⟨rfl, h⟩ := sameLetter_iff.1 hvc <;>
    obtain (h' | ⟨rfl, h'⟩) | ⟨rfl, h'⟩ := sameLetter_iff.1 hwc
  · exact h.symm.trans h'
  · exact absurd h' (hascii (Or.inl h)).1
  · exact absurd h' (hascii (Or.inl h)).2
  · exact absurd h (hascii (Or.inr h')).1
  · rfl
  · omega
  · exact absurd h (hascii (Or.inr h')).2
  · omega
  · rfl

/-! ### Names -/

/-- The letters of the word one by one, each in either case. -/
def Spells (word cs : List Char) : Prop := List.Forall₂ (fun w c => sameLetter w c = true) word cs

lemma Spells.append {v w as bs : List Char} (hv : Spells v as) (hw : Spells w bs) :
    Spells (v ++ w) (as ++ bs) := by
  induction hv with
  | nil => exact hw
  | cons h _ ih => exact .cons h ih

lemma Spells.exists_append {v w cs : List Char} (h : Spells (v ++ w) cs) :
    ∃ as bs, cs = as ++ bs ∧ Spells v as ∧ Spells w bs := by
  induction v generalizing cs with
  | nil => exact ⟨[], cs, rfl, .nil, h⟩
  | cons x v ih =>
    cases h with
    | cons hx h =>
      obtain ⟨as, bs, rfl, hv, hw⟩ := ih h
      exact ⟨_ :: as, bs, rfl, .cons hx hv, hw⟩

lemma Spells.isNameChar {word cs : List Char} (h : Spells word cs)
    (hword : word.all Redaction.isNameChar = true) : ∀ c ∈ cs, Redaction.isNameChar c = true := by
  induction h with
  | nil => simp
  | cons hc _ ih =>
    rw [List.all_cons, Bool.and_eq_true] at hword
    rw [List.forall_mem_cons]
    exact ⟨isNameChar_of_sameLetter hword.1 hc, ih hword.2⟩

lemma dropWord_eq_some_iff {word cs r : List Char} :
    dropWord word cs = some r ↔ ∃ u, Spells word u ∧ cs = u ++ r := by
  induction word generalizing cs with
  | nil =>
    rw [dropWord, Option.some.injEq]
    exact ⟨fun h => ⟨[], .nil, h⟩, fun ⟨u, hu, h⟩ => by cases hu; exact h⟩
  | cons w word ih =>
    cases cs with
    | nil =>
      refine ⟨fun h => (by cases h), fun ⟨u, hu, h⟩ => ?_⟩
      cases hu with
      | cons _ _ => cases h
    | cons c cs =>
      rw [dropWord]
      constructor
      · intro h
        split at h
        · next hc =>
          obtain ⟨u, hu, rfl⟩ := ih.1 h
          exact ⟨c :: u, .cons hc hu, rfl⟩
        · cases h
      · rintro ⟨_, hu, h⟩
        cases hu with
        | cons hc hu =>
          obtain ⟨rfl, rfl⟩ := List.cons.inj h
          rw [if_pos hc]
          exact ih.2 ⟨_, hu, rfl⟩

/-! ### Signs -/

/-- One character of `p`, or nothing. -/
def AtMostOne (p : Char → Bool) (cs : List Char) : Prop := cs.length ≤ 1 ∧ ∀ c ∈ cs, p c = true

/-- A sign among blanks, perhaps with a quote before them and another after them. -/
inductive IsSignPart : List Char → Prop where
  | mk {quote gap gap' quote' : List Char} {s : Char} (hquote : AtMostOne isQuote quote)
      (hgap : ∀ c ∈ gap, isBlank c = true) (hs : isSign s = true)
      (hgap' : ∀ c ∈ gap', isBlank c = true) (hquote' : AtMostOne isQuote quote') :
      IsSignPart (quote ++ (gap ++ s :: (gap' ++ quote')))

lemma atMostOne_nil {p : Char → Bool} : AtMostOne p [] := ⟨Nat.zero_le 1, by simp⟩

lemma atMostOne_singleton {p : Char → Bool} {c : Char} (hc : p c = true) : AtMostOne p [c] :=
  ⟨Nat.le_refl 1, by simpa using hc⟩

lemma exists_of_dropOne (p : Char → Bool) (cs : List Char) :
    ∃ x, AtMostOne p x ∧ cs = x ++ dropOne p cs := by
  cases cs with
  | nil => exact ⟨[], atMostOne_nil, rfl⟩
  | cons c r =>
    rw [dropOne]
    split
    · next hc => exact ⟨[c], atMostOne_singleton hc, rfl⟩
    · exact ⟨[], atMostOne_nil, rfl⟩

lemma dropOne_append {p : Char → Bool} {x r : List Char} (hx : AtMostOne p x)
    (hr : ∀ c, r.head? = some c → p c = false) : dropOne p (x ++ r) = r := by
  match x, hx with
  | [], _ =>
    cases r with
    | nil => rfl
    | cons c r => exact if_neg (by rw [hr c rfl]; exact Bool.false_ne_true)
  | [c], hx => exact if_pos (hx.2 c (List.mem_singleton_self c))

lemma dropWhile_eq_self {p : Char → Bool} {cs : List Char}
    (h : ∀ c, cs.head? = some c → p c = false) : cs.dropWhile p = cs := by
  cases cs with
  | nil => rfl
  | cons c r => exact List.dropWhile_cons_of_neg (by rw [h c rfl]; exact Bool.false_ne_true)

lemma exists_of_dropSign {cs r : List Char} (h : dropSign cs = some r) :
    ∃ g, IsSignPart g ∧ cs = g ++ r := by
  obtain ⟨quote, hquote, hcs⟩ := exists_of_dropOne isQuote cs
  rw [dropSign] at h
  split at h
  · next s rest hrest =>
    split at h
    · next hs =>
      obtain ⟨quote', hquote', hr⟩ := exists_of_dropOne isQuote (rest.dropWhile isBlank)
      cases h
      refine ⟨quote ++ ((dropOne isQuote cs).takeWhile isBlank
          ++ s :: (rest.takeWhile isBlank ++ quote')),
        .mk hquote (fun c hc => List.mem_takeWhile_imp hc) hs
          (fun c hc => List.mem_takeWhile_imp hc) hquote', ?_⟩
      rw [List.append_assoc, List.append_assoc, List.cons_append, List.append_assoc, ← hr,
        List.takeWhile_append_dropWhile, ← hrest, List.takeWhile_append_dropWhile, ← hcs]
    · cases h
  · cases h

lemma dropSign_append {g r : List Char} (hg : IsSignPart g)
    (hr : ∃ c, r.head? = some c ∧ isBlank c = false ∧ isQuote c = false) :
    dropSign (g ++ r) = some r := by
  obtain ⟨c, hc, hblank, hquote⟩ := hr
  obtain @⟨q, gap, gap', q', s, hq, hgap, hs, hgap', hq'⟩ := hg
  have hfirst : dropOne isQuote (q ++ (gap ++ s :: (gap' ++ q')) ++ r)
      = gap ++ s :: (gap' ++ (q' ++ r)) := by
    rw [List.append_assoc, dropOne_append hq]
    · simp
    · intro d hd
      cases gap with
      | nil => cases hd; exact isQuote_of_isSign hs
      | cons b gap => cases hd; exact isQuote_of_isBlank (hgap _ List.mem_cons_self)
  have hlast : (gap' ++ (q' ++ r)).dropWhile isBlank = q' ++ r := by
    rw [List.dropWhile_append_of_pos hgap']
    refine dropWhile_eq_self fun d hd => ?_
    cases q' with
    | nil => cases hc.symm.trans hd; exact hblank
    | cons b q' =>
      cases hd
      exact isBlank_of_isQuote (hq'.2 _ List.mem_cons_self)
  have hsign : (s = ':' || s = '=') = true := hs
  rw [dropSign, hfirst, List.dropWhile_append_of_pos hgap,
    List.dropWhile_cons_of_neg (by simp [isBlank_of_isSign hs])]
  dsimp only
  rw [if_pos hsign, hlast, dropOne_append hq']
  intro d hd
  cases hc.symm.trans hd
  exact hquote

lemma IsSignPart.isEdge {g : List Char} (h : IsSignPart g) : ∀ c ∈ g, isEdge c = true := by
  obtain @⟨quote, gap, gap', quote', s, hquote, hgap, hs, hgap', hquote'⟩ := h
  intro c hc
  simp only [List.mem_append, List.mem_cons] at hc
  obtain hc | hc | rfl | hc | hc := hc
  · exact isEdge_of_isQuote (hquote.2 c hc)
  · exact isEdge_of_isBlank (hgap c hc)
  · exact isEdge_of_isSign hs
  · exact isEdge_of_isBlank (hgap' c hc)
  · exact isEdge_of_isQuote (hquote'.2 c hc)

/-- There is one sign, with blanks and quotes around it. -/
lemma IsSignPart.exists_append {g : List Char} (h : IsSignPart g) :
    ∃ before s after, g = before ++ s :: after ∧ isSign s = true ∧
      (∀ c ∈ before, isSign c = false) ∧ ∀ c ∈ after, isBlank c = true ∨ isQuote c = true := by
  obtain @⟨quote, gap, gap', quote', s, hquote, hgap, hs, hgap', hquote'⟩ := h
  refine ⟨quote ++ gap, s, gap' ++ quote', (List.append_assoc ..).symm, hs, fun c hc => ?_,
    fun c hc => ?_⟩
  · rw [← Bool.not_eq_true]
    intro hsign
    obtain hc | hc := List.mem_append.1 hc
    · exact Bool.noConfusion ((isQuote_of_isSign hsign).symm.trans (hquote.2 c hc))
    · exact Bool.noConfusion ((isBlank_of_isSign hsign).symm.trans (hgap c hc))
  · exact (List.mem_append.1 hc).imp (hgap' c) (hquote'.2 c)

/-! ### Endings of names -/

lemma dropWord_eq_none {w : Char} {word cs : List Char}
    (h : ∀ c, cs.head? = some c → sameLetter w c = false) : dropWord (w :: word) cs = none := by
  cases cs with
  | nil => rfl
  | cons c r => rw [dropWord, if_neg (by simp [h c rfl])]

def isDash (c : Char) : Bool := c = '_' || c = '-'

lemma isDash_iff {c : Char} : isDash c = true ↔ c = '_' ∨ c = '-' := by simp [isDash]

lemma isDash_of_sameLetter {w c : Char} (hw : isDash w = true) (h : sameLetter w c = true) :
    isDash c = true := by
  have hcode : w.toNat = 95 ∨ w.toNat = 45 := by obtain rfl | rfl := isDash_iff.1 hw <;> decide
  have hc : c.toLower = w := by obtain rfl | rfl := isDash_iff.1 hw <;> simpa [sameLetter] using h
  have hsmall : ¬ (0x41 ≤ c.toNat ∧ c.toNat ≤ 0x5A) := by
    intro hcapital
    have hnat := toNat_toLower hcapital
    rw [hc] at hnat
    omega
  rwa [← toLower_eq hsmall, hc]

def dashes : List (List Char) := [[], ['-'], ['_']]

/-- What may follow the word `secret` in a name. -/
def nameSuffixes : List (List Char) :=
  [] :: dashes.flatMap fun d => [d ++ "key".toList, d ++ "seed".toList]

lemma mem_nameSuffixes {w : List Char} : w ∈ nameSuffixes ↔
    w = [] ∨ ∃ d ∈ dashes, w = d ++ "key".toList ∨ w = d ++ "seed".toList := by
  simp [nameSuffixes]

/-- A dash or nothing, spelled by itself. -/
lemma exists_spells_of_atMostOne {x : List Char} (hx : AtMostOne isDash x) :
    ∃ d ∈ dashes, Spells d x := by
  match x, hx with
  | [], _ => exact ⟨[], by decide, .nil⟩
  | [c], hx =>
    obtain rfl | rfl := isDash_iff.1 (hx.2 c (List.mem_singleton_self c))
    · exact ⟨['_'], by decide, .cons (by decide) .nil⟩
    · exact ⟨['-'], by decide, .cons (by decide) .nil⟩

lemma atMostOne_of_spells {d x : List Char} (hd : d ∈ dashes) (h : Spells d x) :
    AtMostOne isDash x := by
  simp only [dashes, List.mem_cons, List.not_mem_nil, or_false] at hd
  obtain rfl | rfl | rfl := hd
  · cases h
    exact atMostOne_nil
  all_goals
    obtain ⟨c, x, hc, hx, rfl⟩ := List.forall₂_cons_left_iff.1 h
    obtain rfl := List.forall₂_nil_left_iff.1 hx
    exact atMostOne_singleton (isDash_of_sameLetter (by decide) hc)

lemma dropNameSuffix_of_key {cs r : List Char}
    (h : dropWord "key".toList (dropOne isDash cs) = some r) : dropNameSuffix cs = r := by
  unfold isDash at h
  rw [dropNameSuffix, h]

lemma dropNameSuffix_of_no_key {cs : List Char}
    (h : dropWord "key".toList (dropOne isDash cs) = none) :
    dropNameSuffix cs = (dropWord "seed".toList (dropOne isDash cs)).getD cs := by
  unfold isDash at h ⊢
  rw [dropNameSuffix, h]

lemma exists_of_dropNameSuffix (cs : List Char) :
    ∃ w ∈ nameSuffixes, ∃ u, Spells w u ∧ cs = u ++ dropNameSuffix cs := by
  obtain ⟨x, hx, hcs⟩ := exists_of_dropOne isDash cs
  obtain ⟨d, hd, hdx⟩ := exists_spells_of_atMostOne hx
  have hword : ∀ {word r}, dropWord word (dropOne isDash cs) = some r →
      ∃ u, Spells (d ++ word) u ∧ cs = u ++ r := by
    intro word r h
    obtain ⟨u, hu, hr⟩ := dropWord_eq_some_iff.1 h
    exact ⟨x ++ u, hdx.append hu, by rw [List.append_assoc, ← hr, ← hcs]⟩
  -- a dash belongs to the name only if one of the words comes after it
  cases hkey : dropWord "key".toList (dropOne isDash cs) with
  | some r =>
    rw [dropNameSuffix_of_key hkey]
    exact ⟨_, mem_nameSuffixes.2 (Or.inr ⟨d, hd, Or.inl rfl⟩), hword hkey⟩
  | none =>
    rw [dropNameSuffix_of_no_key hkey]
    cases hseed : dropWord "seed".toList (dropOne isDash cs) with
    | some r => exact ⟨_, mem_nameSuffixes.2 (Or.inr ⟨d, hd, Or.inr rfl⟩), hword hseed⟩
    | none => exact ⟨[], mem_nameSuffixes.2 (Or.inl rfl), [], .nil, rfl⟩

lemma dropWord_of_isEdge {w : Char} {word r : List Char} (hw : isNameChar w = true)
    (hr : ∀ c, r.head? = some c → isEdge c = true) : dropWord (w :: word) r = none := by
  refine dropWord_eq_none fun c hc => ?_
  rw [← Bool.not_eq_true]
  intro h
  exact Bool.noConfusion
    ((isEdge_of_isNameChar (isNameChar_of_sameLetter hw h)).symm.trans (hr c hc))

/-- The first character of a spelled word stands for no other letter. -/
lemma sameLetter_eq_false {v w : Char} {word u r : List Char} (hu : Spells (w :: word) u)
    (hv : v.toNat < 128) (hw : w.toNat < 128) (hne : v ≠ w) :
    ∀ c, (u ++ r).head? = some c → sameLetter v c = false := by
  obtain ⟨c, u, hc, -, rfl⟩ := List.forall₂_cons_left_iff.1 hu
  intro d hd
  cases hd
  rw [← Bool.not_eq_true]
  exact fun h => hne (sameLetter_inj hv hw h hc)

lemma isDash_of_isEdge {c : Char} (h : isEdge c = true) : isDash c = false := by
  rw [← Bool.not_eq_true, isDash_iff]
  rintro (rfl | rfl) <;> exact absurd h (by decide)

lemma dropOne_isDash_append {w : Char} {d word x u r : List Char} (hd : d ∈ dashes)
    (hx : Spells d x) (hu : Spells (w :: word) u)
    (hw : sameLetter w '_' = false ∧ sameLetter w '-' = false) :
    dropOne isDash (x ++ u ++ r) = u ++ r := by
  obtain ⟨c, u, hc, -, rfl⟩ := List.forall₂_cons_left_iff.1 hu
  rw [List.append_assoc]
  refine dropOne_append (atMostOne_of_spells hd hx) fun c' hc' => ?_
  cases hc'
  rw [← Bool.not_eq_true, isDash_iff]
  rintro (rfl | rfl)
  · exact Bool.noConfusion (hw.1.symm.trans hc)
  · exact Bool.noConfusion (hw.2.symm.trans hc)

lemma dropNameSuffix_append {w u r : List Char} (hw : w ∈ nameSuffixes) (hu : Spells w u)
    (hr : ∀ c, r.head? = some c → isEdge c = true) : dropNameSuffix (u ++ r) = r := by
  obtain rfl | ⟨d, hd, rfl | rfl⟩ := mem_nameSuffixes.1 hw
  · cases hu
    have hbody : dropOne isDash ([] ++ r) = r :=
      dropOne_append atMostOne_nil fun c hc => isDash_of_isEdge (hr c hc)
    have hkey : dropWord "key".toList r = none := dropWord_of_isEdge (by decide) hr
    have hseed : dropWord "seed".toList r = none := dropWord_of_isEdge (by decide) hr
    rw [dropNameSuffix_of_no_key (by rw [hbody, hkey]), hbody, hseed]
    rfl
  · obtain ⟨x, u, rfl, hx, hu⟩ := hu.exists_append
    have hbody : dropOne isDash (x ++ u ++ r) = u ++ r :=
      dropOne_isDash_append hd hx hu (by decide)
    have hkey : dropWord "key".toList (u ++ r) = some r := dropWord_eq_some_iff.2 ⟨u, hu, rfl⟩
    exact dropNameSuffix_of_key (by rw [hbody, hkey])
  · obtain ⟨x, u, rfl, hx, hu⟩ := hu.exists_append
    have hbody : dropOne isDash (x ++ u ++ r) = u ++ r :=
      dropOne_isDash_append hd hx hu (by decide)
    have hkey : dropWord "key".toList (u ++ r) = none :=
      dropWord_eq_none (sameLetter_eq_false hu (by decide) (by decide) (by decide))
    have hseed : dropWord "seed".toList (u ++ r) = some r := dropWord_eq_some_iff.2 ⟨u, hu, rfl⟩
    rw [dropNameSuffix_of_no_key (by rw [hbody, hkey]), hbody, hseed]
    rfl

end StellarWallet.Redaction
