import Mathlib.Tactic.Common
import StellarWallet.Log.Format

/-!
What redaction does to the words of a text.

Masking puts the words of the mask in the place of the words that it is for and leaves all others
alone. The masks hold no keys, so no secret seed is left in a redacted text, and no account key
where those are masked as well; the plain lines of a log are such texts.
-/

namespace StellarWallet

namespace Text

/-- The runs of word characters between all others; there are empty ones where two others meet. -/
def runs (cs : List Char) : List (List Char) := cs.splitOnP fun c => !isWordChar c

/-- A word that stands in a text: a run of word characters with none before and none after it. -/
structure Stands (w cs : List Char) : Prop where
  ne_nil : w ≠ []
  isWord : ∀ c ∈ w, isWordChar c = true
  exists_append : ∃ before after, cs = before ++ w ++ after ∧
    (∀ c, before.getLast? = some c → isWordChar c = false) ∧
    (∀ c, after.head? = some c → isWordChar c = false)

lemma runs_of_isWord {w : List Char} (hw : ∀ c ∈ w, isWordChar c = true) : runs w = [w] :=
  List.splitOnP_eq_singleton fun c hc => by simp [hw c hc]

lemma runs_append_cons {c : Char} (hc : isWordChar c = false) (as bs : List Char) :
    runs (as ++ c :: bs) = runs as ++ runs bs :=
  List.splitOnP_append_cons as bs (by simp [hc])

lemma mem_runs_append {w after : List Char} (hw : ∀ c ∈ w, isWordChar c = true)
    (hafter : ∀ c, after.head? = some c → isWordChar c = false) : w ∈ runs (w ++ after) := by
  cases after with
  | nil => rw [List.append_nil, runs_of_isWord hw]; exact List.mem_singleton_self w
  | cons c r =>
    rw [runs_append_cons (hafter c rfl), runs_of_isWord hw]
    exact List.mem_append_left _ (List.mem_singleton_self w)

/-- The words of a text are among its runs. -/
lemma Stands.mem_runs {w cs : List Char} (h : Stands w cs) : w ∈ runs cs := by
  obtain ⟨before, after, rfl, hbefore, hafter⟩ := h.exists_append
  rcases List.eq_nil_or_concat before with rfl | ⟨b, c, rfl⟩
  · exact mem_runs_append h.isWord hafter
  · have hc : isWordChar c = false := hbefore c (by simp)
    rw [List.concat_eq_append, List.append_assoc, List.append_assoc, List.singleton_append,
      runs_append_cons hc]
    exact List.mem_append_right _ (mem_runs_append h.isWord hafter)

end Text

namespace Redaction

open Text

variable {p : List Char → Bool} {mask : List Char}

/-- What masking makes of a run. -/
def maskedRun (p : List Char → Bool) (mask w : List Char) : List (List Char) :=
  if p w then runs mask else [w]

lemma runs_maskWord {w : List Char} (hw : ∀ c ∈ w, isWordChar c = true) :
    runs (maskWord p mask w) = maskedRun p mask w := by
  unfold maskWord maskedRun
  split
  · rfl
  · exact runs_of_isWord hw

lemma runs_maskWordsFrom {w : List Char} (hw : ∀ c ∈ w, isWordChar c = true) (cs : List Char) :
    runs (maskWordsFrom p mask w cs) = (runs (w.reverse ++ cs)).flatMap (maskedRun p mask) := by
  induction cs generalizing w with
  | nil =>
    have hw' : ∀ c ∈ w.reverse, isWordChar c = true := by simpa using hw
    rw [maskWordsFrom, runs_maskWord hw', List.append_nil, runs_of_isWord hw',
      List.flatMap_singleton]
  | cons c r ih =>
    have hw' : ∀ c ∈ w.reverse, isWordChar c = true := by simpa using hw
    rw [maskWordsFrom]
    cases hc : isWordChar c with
    | true =>
      have hcw : ∀ x ∈ c :: w, isWordChar x = true := by simpa [hc] using hw
      rw [if_pos rfl, ih hcw, List.reverse_cons, List.append_assoc, List.singleton_append]
    | false =>
      rw [if_neg (by simp), runs_append_cons hc, runs_append_cons hc, List.flatMap_append,
        runs_maskWord hw', runs_of_isWord hw', List.flatMap_singleton, ih (by simp)]
      rfl

/-- The runs of a masked text are those of the text, with those of the mask where it was masked. -/
lemma runs_maskWords (p : List Char → Bool) (mask cs : List Char) :
    runs (maskWords p mask cs) = (runs cs).flatMap (maskedRun p mask) :=
  runs_maskWordsFrom (by simp) cs

/-- Masking leaves no word that it is for. -/
lemma not_mem_runs_maskWords (h : ∀ w ∈ runs mask, p w = false) (cs : List Char) :
    ∀ w ∈ runs (maskWords p mask cs), p w = false := by
  intro w hw
  rw [runs_maskWords, List.mem_flatMap] at hw
  obtain ⟨u, -, hu⟩ := hw
  unfold maskedRun at hu
  split at hu
  · exact h w hu
  · next hp => rw [List.mem_singleton.1 hu]; simpa using hp

/-- Masking brings in no words but those of the mask. -/
lemma maskWords_keeps {q : List Char → Bool} (h : ∀ w ∈ runs mask, q w = false) {cs : List Char}
    (hcs : ∀ w ∈ runs cs, q w = false) : ∀ w ∈ runs (maskWords p mask cs), q w = false := by
  intro w hw
  rw [runs_maskWords, List.mem_flatMap] at hw
  obtain ⟨u, hu, hw⟩ := hw
  unfold maskedRun at hw
  split at hw
  · exact h w hw
  · rw [List.mem_singleton.1 hw]
    exact hcs u hu

/-- Masking leaves every other word. -/
lemma mem_runs_maskWords {cs w : List Char} (hw : w ∈ runs cs) (hp : p w = false) :
    w ∈ runs (maskWords p mask cs) := by
  rw [runs_maskWords, List.mem_flatMap]
  exact ⟨w, hw, by simp [maskedRun, hp]⟩

lemma maskWordsFrom_eq_append {w : List Char} (hw : ∀ c ∈ w, isWordChar c = true)
    {cs : List Char} (h : ∀ u ∈ runs (w.reverse ++ cs), p u = false) :
    maskWordsFrom p mask w cs = w.reverse ++ cs := by
  induction cs generalizing w with
  | nil =>
    rw [List.append_nil, runs_of_isWord (by simpa using hw)] at h
    rw [maskWordsFrom, maskWord, h _ (List.mem_singleton_self _), List.append_nil]
    rfl
  | cons c r ih =>
    rw [maskWordsFrom]
    cases hc : isWordChar c with
    | true =>
      have hcw : ∀ x ∈ c :: w, isWordChar x = true := by simpa [hc] using hw
      have happend : (c :: w).reverse ++ r = w.reverse ++ c :: r := by simp
      rw [if_pos rfl, ih hcw (by rwa [happend]), happend]
    | false =>
      rw [runs_append_cons hc, runs_of_isWord (by simpa using hw)] at h
      have hrest : maskWordsFrom p mask [] r = r :=
        ih (by simp) fun u hu => h u (List.mem_append_right _ hu)
      rw [if_neg (by simp), maskWord, h _ (List.mem_append_left _ (List.mem_singleton_self _)),
        hrest]
      rfl

/-- A text without words to mask stays as it is. -/
lemma maskWords_eq_self {cs : List Char} (h : ∀ w ∈ runs cs, p w = false) :
    maskWords p mask cs = cs :=
  maskWordsFrom_eq_append (w := []) (by simp) h

/-! ### Keys -/

/-- A letter, and 55 characters of base32 after it. -/
def IsKey (initial : Char) (w : List Char) : Prop :=
  ∃ rest, w = initial :: rest ∧ rest.length = 55 ∧
    ∀ c ∈ rest, ('A' ≤ c ∧ c ≤ 'Z') ∨ ('2' ≤ c ∧ c ≤ '7')

/-- A key stands as a word in a text. -/
def HasKey (initial : Char) (s : String) : Prop :=
  ∃ w, Stands w s.toList ∧ IsKey initial w

lemma isKeyWord_iff {initial : Char} {w : List Char} :
    isKeyWord initial w = true ↔ IsKey initial w := by
  cases w with
  | nil => simp [isKeyWord, IsKey]
  | cons c r =>
    simp only [isKeyWord, isKeyChar, IsKey, List.cons.injEq, Bool.and_eq_true, Bool.or_eq_true,
      decide_eq_true_eq, List.all_eq_true]
    constructor
    · rintro ⟨⟨rfl, hlength⟩, hall⟩
      exact ⟨r, ⟨rfl, rfl⟩, hlength, hall⟩
    · rintro ⟨rest, ⟨rfl, rfl⟩, hlength, hall⟩
      exact ⟨⟨rfl, hlength⟩, hall⟩

lemma isKeyWord_eq_false_iff {initial : Char} {w : List Char} :
    isKeyWord initial w = false ↔ ¬ IsKey initial w := by
  rw [← isKeyWord_iff, Bool.not_eq_true]

/-- A mask too short for a key holds none. -/
lemma isKeyWord_of_mem_runs {initial : Char} (h : ∀ w ∈ runs mask, w.length ≠ 56) :
    ∀ w ∈ runs mask, isKeyWord initial w = false := by
  intro w hw
  rw [isKeyWord_eq_false_iff]
  rintro ⟨rest, rfl, hlength, -⟩
  exact h _ hw (by rw [List.length_cons, hlength])

lemma not_isKeyWord_seedMask (initial : Char) :
    ∀ w ∈ runs seedMask, isKeyWord initial w = false := isKeyWord_of_mem_runs (by decide)

lemma not_isKeyWord_addressMask (initial : Char) :
    ∀ w ∈ runs addressMask, isKeyWord initial w = false := isKeyWord_of_mem_runs (by decide)

lemma not_hasKey_of_runs {initial : Char} {cs : List Char}
    (h : ∀ w ∈ runs cs, isKeyWord initial w = false) : ¬ HasKey initial (String.ofList cs) := by
  rintro ⟨w, hw, hk⟩
  rw [String.toList_ofList] at hw
  exact isKeyWord_eq_false_iff.1 (h w hw.mem_runs) hk

/-- A text with the values of sensitive names hidden. -/
def hideAssigned (cs : List Char) : List Char := passwordAssignment.hide (secretAssignment.hide cs)

lemma not_seed_redactChars (keepAddresses : Bool) (cs : List Char) :
    ∀ w ∈ runs (redactChars keepAddresses cs), isKeyWord 'S' w = false := by
  have hseeds := not_mem_runs_maskWords (not_isKeyWord_seedMask 'S') (hideAssigned cs)
  unfold redactChars
  dsimp only
  split
  · exact hseeds
  · exact maskWords_keeps (not_isKeyWord_addressMask 'S') hseeds

lemma not_address_redactChars (cs : List Char) :
    ∀ w ∈ runs (redactChars false cs), isKeyWord 'G' w = false :=
  not_mem_runs_maskWords (not_isKeyWord_addressMask 'G') _

lemma not_hasSeed_redact (keepAddresses : Bool) (s : String) :
    ¬ HasKey 'S' (redact keepAddresses s) :=
  not_hasKey_of_runs (not_seed_redactChars keepAddresses s.toList)

lemma not_hasAddress_redact (s : String) : ¬ HasKey 'G' (redact false s) :=
  not_hasKey_of_runs (not_address_redactChars s.toList)

lemma mem_runs_redact (keepAddresses : Bool) (s : String) {w : List Char}
    (hw : w ∈ runs (hideAssigned s.toList)) (hs : ¬ IsKey 'S' w)
    (hg : keepAddresses = false → ¬ IsKey 'G' w) : w ∈ runs (redact keepAddresses s).toList := by
  have hseeds : w ∈ runs (maskWords (isKeyWord 'S') seedMask (hideAssigned s.toList)) :=
    mem_runs_maskWords hw (isKeyWord_eq_false_iff.2 hs)
  rw [redact, String.toList_ofList, redactChars]
  cases keepAddresses with
  | true => exact hseeds
  | false => exact mem_runs_maskWords hseeds (isKeyWord_eq_false_iff.2 (hg rfl))

/-- **No key survives.** Whatever a text holds, no secret seed stands as a word in what redaction
makes of it, and no account key where those are not kept; nor is there one in a plain line that a
format with redaction makes of a record, whatever the record holds. Only keys go that way: when the
values of sensitive names are hidden, every other word stays. -/
theorem redact_leaves_no_key (keepAddresses : Bool) (s : String) (f : LogFormat) (now : Instant)
    (r : LogRecord) :
    ¬ HasKey 'S' (redact keepAddresses s) ∧ ¬ HasKey 'G' (redact false s) ∧
      ¬ HasKey 'S' ({ f with style := .plain, sanitize := true }.line now r) ∧
      ¬ HasKey 'G'
        ({ f with style := .plain, sanitize := true, keepAddresses := false }.line now r) ∧
      ∀ w ∈ runs (hideAssigned s.toList), ¬ IsKey 'S' w → (keepAddresses = false → ¬ IsKey 'G' w) →
        w ∈ runs (redact keepAddresses s).toList :=
  ⟨not_hasSeed_redact keepAddresses s, not_hasAddress_redact s,
    not_hasSeed_redact f.keepAddresses _, not_hasAddress_redact _,
    fun _ hw hs hg => mem_runs_redact keepAddresses s hw hs hg⟩

end Redaction

end StellarWallet
