import StellarWallet.Proofs.Failure.Refusals
import StellarWallet.Proofs.Redaction.Words

/-!
Secret seeds in reasons, and the cut that brings them back.

A line is redacted before it is cut to 160 characters. Redaction leaves no seed that stands as a
word, but the cut can end a longer word after the 56 characters of a seed, which then stands. That
is the only way a seed comes into the reason that is given for a fault.
-/

namespace StellarWallet

namespace Text

lemma isWordChar_of_isBlank {c : Char} (h : isBlank c = true) : isWordChar c = false := by
  have hall : ∀ n ∈ blankRanges.flatMap fun r => List.range' r.1 (r.2 + 1 - r.1),
      isWordChar (Char.ofNat n) = false := by decide +kernel
  obtain ⟨r, hr, hfirst, hlast⟩ := inRanges_iff.1 h
  have := hall c.toNat (List.mem_flatMap.2 ⟨r, hr, List.mem_range'_1.2 ⟨hfirst, by omega⟩⟩)
  rwa [Char.ofNat_toNat] at this

section

variable {w cs rest : List Char}

/-- A word still stands in a text that goes on with no word character. -/
lemma Stands.append (h : Stands w cs) (hrest : ∀ c, rest.head? = some c → isWordChar c = false) :
    Stands w (cs ++ rest) := by
  obtain ⟨before, after, rfl, hbefore, hafter⟩ := h.exists_append
  refine ⟨h.ne_nil, h.isWord, before, after ++ rest, by simp, hbefore, fun c hc => ?_⟩
  cases after with
  | nil => exact hrest c hc
  | cons d after => exact hafter c hc

/-- A word that stands in a text stands in it without the end, if no word character is there. -/
lemma Stands.of_append (h : Stands w (cs ++ rest)) (hrest : ∀ c ∈ rest, isWordChar c = false) :
    Stands w cs := by
  obtain ⟨before, after, he, hbefore, hafter⟩ := h.exists_append
  obtain ⟨gap, hleft, hright⟩ | ⟨gap, hleft, hright⟩ := List.append_eq_append_iff.1 he
  · -- The end would start within the word, whose last character is then no word character.
    obtain rfl | ⟨g, c, rfl⟩ := List.eq_nil_or_concat gap
    · exact ⟨h.ne_nil, h.isWord, before, [], by simpa using hleft.symm, hbefore, by simp⟩
    · have hlast : (before ++ w).getLast? = some c := by
        rw [hleft, List.concat_eq_append, ← List.append_assoc, List.getLast?_concat]
      have hc : c ∈ w := by
        rw [List.getLast?_append_of_ne_nil before h.ne_nil] at hlast
        exact List.mem_of_getLast? hlast
      have hword : isWordChar c = false := hrest c (by simp [hright])
      rw [h.isWord c hc] at hword
      cases hword
  · refine ⟨h.ne_nil, h.isWord, before, gap, hleft, hbefore, fun c hc => hafter c ?_⟩
    rw [hright, List.head?_append, hc, Option.some_or]

/-- A word that stands in a text stands in whatever goes on from it, or ends it. -/
lemma Stands.cases_append (h : Stands w cs) (rest : List Char) : Stands w (cs ++ rest) ∨
    ∃ before, cs = before ++ w ∧ ∀ c, before.getLast? = some c → isWordChar c = false := by
  obtain ⟨before, after, rfl, hbefore, hafter⟩ := h.exists_append
  cases after with
  | nil => exact Or.inr ⟨before, by simp, hbefore⟩
  | cons d after =>
    exact Or.inl ⟨h.ne_nil, h.isWord, before, d :: after ++ rest, by simp, hbefore, hafter⟩

end

end Text

namespace Redaction

open Text

lemma isWordChar_of_isKey {initial : Char} (hinitial : isWordChar initial = true) {w : List Char}
    (h : IsKey initial w) : ∀ c ∈ w, isWordChar c = true := by
  obtain ⟨rest, rfl, -, hall⟩ := h
  intro c hc
  obtain rfl | hc := List.mem_cons.1 hc
  · exact hinitial
  · obtain ⟨hfirst, hlast⟩ | ⟨hfirst, hlast⟩ := hall c hc
    · have hupper : c.isUpper = true := decide_eq_true ⟨hfirst, hlast⟩
      have halpha : c.isAlpha = true := Bool.or_eq_true_iff.2 (Or.inl hupper)
      have hbound : c.toNat ≤ 90 := hlast
      exact isWordChar_of_isAlphanum (by simp [Char.isAlphanum, halpha]) (by omega)
    · have hbounds : 50 ≤ c.toNat ∧ c.toNat ≤ 55 := ⟨hfirst, hlast⟩
      have hdigits : '0'.toNat = 48 ∧ '9'.toNat = 57 := ⟨rfl, rfl⟩
      have hdigit : c.isDigit = true := Char.isDigit_iff_toNat.2 (by omega)
      exact isWordChar_of_isAlphanum (by simp [Char.isAlphanum, hdigit]) (by omega)

end Redaction

namespace Reason

open Text Redaction

/-- The first line of a message, redacted, before it is cut. -/
def shownLine (message : String) : List Char :=
  redactChars true (firstLine (strip message.toList))

/-- The line is longer than what is shown, and what is left of it ends with a secret seed, the start
of a longer word. -/
structure CutsSeed (line : List Char) : Prop where
  isLong : 160 < line.length
  exists_append : ∃ before seed c after, line = before ++ seed ++ c :: after ∧
    (before ++ seed).length = 157 ∧ IsKey 'S' seed ∧ isWordChar c = true ∧
    ∀ d, before.getLast? = some d → isWordChar d = false

lemma cutTo_of_long {line : List Char} (h : 160 < line.length) :
    cutTo line = stripEnd (line.take 157) ++ ['.', '.', '.'] := if_pos h

lemma isWordChar_of_mem_dots : ∀ c ∈ ['.', '.', '.'], isWordChar c = false := by
  simp only [List.mem_cons, List.not_mem_nil, or_false, or_self]
  rintro _ rfl
  decide

/-- A seed that stands in a cut line but not in the line has come from the cut. -/
lemma cutsSeed_of_stands {line w : List Char} (hclean : ¬ Stands w line)
    (hw : Stands w (cutTo line)) (hkey : IsKey 'S' w) : CutsSeed line := by
  by_cases hlong : 160 < line.length
  · rw [cutTo_of_long hlong] at hw
    obtain ⟨blanks, htake, hblanks⟩ := exists_dropped isBlank (line.take 157)
    have hkept : Stands w (line.take 157) := by
      rw [htake]
      refine (hw.of_append isWordChar_of_mem_dots).append fun c hc => ?_
      exact isWordChar_of_isBlank (hblanks c (List.mem_of_head? hc))
    have hline : line.take 157 ++ line.drop 157 = line := List.take_append_drop 157 line
    obtain hwhole | ⟨before, hbefore, hstart⟩ := hkept.cases_append (line.drop 157)
    · rw [hline] at hwhole
      exact absurd hwhole hclean
    · cases hrest : line.drop 157 with
      | nil =>
        have := List.drop_eq_nil_iff.1 hrest
        omega
      | cons c after =>
        refine ⟨hlong, before, w, c, after, ?_, ?_, hkey, ?_, hstart⟩
        · rw [← hbefore, ← hrest, hline]
        · rw [← hbefore, List.length_take]
          omega
        · by_contra hc
          refine hclean ?_
          rw [← hline, hrest]
          refine hkept.append ?_
          rintro _ ⟨⟩
          exact Bool.eq_false_iff.2 hc
  · have hshort : cutTo line = line := if_neg hlong
    rw [hshort] at hw
    exact absurd hw hclean

/-- A line that is cut within such a word shows the seed. -/
lemma CutsSeed.exists_stands {line : List Char} (h : CutsSeed line) :
    ∃ w, Stands w (cutTo line) ∧ IsKey 'S' w := by
  obtain ⟨before, seed, c, after, hline, hlength, hkey, -, hbefore⟩ := h.exists_append
  have hword : ∀ d ∈ seed, isWordChar d = true := isWordChar_of_isKey (by decide) hkey
  have hne : seed ≠ [] := by
    obtain ⟨rest, rfl, -⟩ := hkey
    simp
  have htake : line.take 157 = before ++ seed := by
    rw [hline, ← hlength]
    exact List.take_left
  have hstrip : stripEnd (before ++ seed) = before ++ seed := by
    refine List.rdropWhile_eq_self_iff.2 fun hl hblank => ?_
    have hlast : (before ++ seed).getLast hl ∈ seed := by
      rw [List.getLast_append_of_ne_nil hl hne]
      exact List.getLast_mem hne
    have := hword _ hlast
    rw [isWordChar_of_isBlank hblank] at this
    cases this
  refine ⟨seed, ⟨hne, hword, before, ['.', '.', '.'], ?_, hbefore, ?_⟩, hkey⟩
  · rw [cutTo_of_long h.isLong, htake, hstrip]
  · rintro _ ⟨⟩
    decide

lemma not_stands_shownLine {message : String} {w : List Char} (hkey : IsKey 'S' w) :
    ¬ Stands w (shownLine message) := by
  intro hw
  refine not_hasSeed_redact true (String.ofList (firstLine (strip message.toList))) ⟨w, ?_, hkey⟩
  rwa [redact, String.toList_ofList, String.toList_ofList]

lemma hasSeed_shorten_iff {message : String} :
    HasKey 'S' (shorten message) ↔ CutsSeed (shownLine message) := by
  have hshorten : (shorten message).toList = cutTo (shownLine message) := String.toList_ofList
  rw [HasKey, hshorten]
  constructor
  · rintro ⟨w, hw, hkey⟩
    exact cutsSeed_of_stands (not_stands_shownLine hkey) hw hkey
  · exact CutsSeed.exists_stands

/-- A text without a run of 56 word characters holds no seed. -/
lemma not_hasSeed_of_short {s : String} (h : ∀ w ∈ runs s.toList, w.length ≠ 56) :
    ¬ HasKey 'S' s := by
  have hkey : ∀ w ∈ runs s.toList, isKeyWord 'S' w = false := isKeyWord_of_mem_runs h
  have := not_hasKey_of_runs hkey
  rwa [String.ofList_toList] at this

lemma not_hasSeed_explanation : ∀ e ∈ Explanation.all, ¬ HasKey 'S' e.message := by
  have hruns : ∀ e ∈ Explanation.all, ∀ w ∈ runs e.message.toList, w.length ≠ 56 := by
    decide +kernel
  exact fun e he => not_hasSeed_of_short (hruns e he)

lemma hasSeed_orElse_iff (s : String) :
    HasKey 'S' (orElse s unexplained) ↔ HasKey 'S' s := by
  unfold orElse
  split
  · next hempty =>
    rw [hempty]
    exact iff_of_false (not_hasSeed_of_short (by decide)) (not_hasSeed_of_short (by decide))
  · rfl

/-- The reason of a failed request holds no seed. -/
lemma not_hasSeed_of_not_isOrdinary {fault : Fault} (h : fault.kind ≠ .transaction)
    (hkind : fault.kind.isOrdinary = false) : ¬ HasKey 'S' (ofFault fault) := by
  unfold FaultKind.isOrdinary at hkind
  split at hkind
  · next htransaction => exact absurd htransaction h
  · next hnetwork =>
    unfold ofFault
    rw [hnetwork]
    dsimp only
    split
    · next e he => exact not_hasSeed_explanation e (List.mem_of_find?_eq_some he)
    · exact not_hasSeed_of_short (by decide +kernel)
  · cases hkind

/-- **The cut is the only leak.** Unless a fault carries a reason of its own, the reason that is
given for it holds a secret seed just if its message is told as it is, and its line is cut within a
longer word after the 56 characters of a seed. -/
theorem reason_has_seed_iff {fault : Fault} (h : fault.kind ≠ .transaction) :
    HasKey 'S' (ofFailure (.raised fault)) ↔ fault.kind.isOrdinary = true ∧
      Explanation.ledgerReason? fault.message = none ∧ CutsSeed (shownLine fault.message) := by
  rw [ofFailure]
  cases hkind : fault.kind.isOrdinary with
  | false => simpa using not_hasSeed_of_not_isOrdinary h hkind
  | true =>
    rw [ofFault_of_isOrdinary hkind]
    cases hreason : Explanation.ledgerReason? fault.message with
    | some reason =>
      obtain ⟨e, he, -, rfl⟩ := Explanation.exists_find?_of_ledgerReason? hreason
      simpa using not_hasSeed_explanation e (List.mem_of_mem_filter he)
    | none =>
      rw [Option.getD_none, hasSeed_orElse_iff, hasSeed_shorten_iff]
      simp

/-- A seed in a short message is redacted. -/
theorem no_seed_in_short_reason :
    let fault : Fault :=
      ⟨.runtime, "bad signer SBBBBBBBBBBBBBBBBBBBBBBBBBBBBBBBBBBBBBBBBBBBBBBBBBBBBBBB\nretry"⟩
    fault.kind ≠ .transaction ∧ ¬ HasKey 'S' (ofFailure (.raised fault)) := by
  intro fault
  have hkind : fault.kind ≠ .transaction := by decide
  have hshort : (shownLine fault.message).length ≤ 160 := by decide +kernel
  refine ⟨hkind, fun hseed => ?_⟩
  have := ((reason_has_seed_iff hkind).1 hseed).2.2.isLong
  omega

/-- A longer word that starts with a seed, after a hundred other characters: the word is not
redacted, and the seed is all that the cut leaves of it. -/
theorem seed_at_the_cut :
    let seed := 'S' :: List.replicate 55 'A'
    let filling := List.replicate 100 'x' ++ [' ']
    let fault : Fault := ⟨.runtime, String.ofList (filling ++ seed ++ "_old".toList)⟩
    fault.kind ≠ .transaction ∧
      ofFailure (.raised fault) = String.ofList (filling ++ seed ++ "...".toList) ∧
      HasKey 'S' (ofFailure (.raised fault)) := by
  intro seed filling fault
  have hmessage : fault.message.toList = filling ++ seed ++ "_old".toList := String.toList_ofList
  have hnone : Explanation.ledgerReason? fault.message = none := by
    rw [Explanation.ledgerReason?_eq, hmessage]
    decide +kernel
  have hshort : shorten fault.message = String.ofList (filling ++ seed ++ "...".toList) := by
    rw [shorten, hmessage]
    exact congrArg String.ofList (by decide +kernel)
  have hreason : ofFailure (.raised fault)
      = String.ofList (filling ++ seed ++ "...".toList) := by
    rw [ofFailure, ofFault_of_isOrdinary rfl, hnone, hshort, Option.getD_none, orElse, if_neg]
    simp [filling, String.ofList_eq_empty_iff]
  have hword : seed.all isWordChar = true := by decide
  have hstands : Stands seed (filling ++ seed ++ "...".toList) := by
    refine ⟨by decide, List.all_eq_true.1 hword, filling, "...".toList, rfl, ?_, ?_⟩
    · intro c hc
      rw [List.getLast?_concat] at hc
      cases hc
      decide
    · rintro _ ⟨⟩
      decide
  refine ⟨by decide, hreason, seed, ?_, isKeyWord_iff.1 (by decide)⟩
  rwa [hreason, String.toList_ofList]

end Reason

end StellarWallet
