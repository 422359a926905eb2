import StellarWallet.Proofs.Json.RoundTrip
import StellarWallet.Proofs.Storage.Atomicity
import StellarWallet.Proofs.Storage.Refusal
import StellarWallet.Proofs.Text.Utf8

/-!
What was written to a storage is what it reads.

The text of a value is printable ASCII, so that it survives both the encoding of files and the
unification of line ends.
-/

namespace StellarWallet

/-- The character is printable ASCII. -/
def IsPlainChar (c : Char) : Prop := 32 ≤ c.toNat ∧ c.toNat < 127

instance (c : Char) : Decidable (IsPlainChar c) := inferInstanceAs (Decidable (_ ∧ _))

/-- The text is printable ASCII. -/
def IsPlainText (cs : List Char) : Prop := ∀ c ∈ cs, IsPlainChar c

instance (cs : List Char) : Decidable (IsPlainText cs) := List.decidableBAll _ _

lemma IsPlainText.cons {c : Char} {cs : List Char} (hc : IsPlainChar c) (h : IsPlainText cs) :
    IsPlainText (c :: cs) := List.forall_mem_cons.2 ⟨hc, h⟩

lemma IsPlainText.append {cs ds : List Char} (h : IsPlainText cs) (h' : IsPlainText ds) :
    IsPlainText (cs ++ ds) := List.forall_mem_append.2 ⟨h, h'⟩

lemma IsPlainText.return_notMem {cs : List Char} (h : IsPlainText cs) : '\r' ∉ cs := fun hmem =>
  absurd (h '\r' hmem) (by decide)

namespace Json

lemma isPlainChar_of_isDigit {c : Char} (h : c.isDigit = true) : IsPlainChar c := by
  obtain ⟨hl, hu⟩ := Char.isDigit_iff_toNat.1 h
  have hzero : '0'.toNat = 48 := rfl
  have hnine : '9'.toNat = 57 := rfl
  exact ⟨by omega, by omega⟩

lemma isPlainChar_of_isNumeralChar {c : Char} (h : IsNumeralChar c) : IsPlainChar c := by
  have hall : IsPlainText ['.', 'e', '+', '-'] := by decide
  rcases h with h | h
  · exact isPlainChar_of_isDigit h
  · exact hall c h

lemma isPlainChar_hexDigit (n : Nat) : IsPlainChar (hexDigit n) := by
  have h : ∀ m < 16, IsPlainChar (Nat.digitChar m) := by decide
  exact h (n % 16) (Nat.mod_lt n (by decide))

lemma isPlainText_unitEscape (n : Nat) : IsPlainText (unitEscape n) := by
  have hdigits : IsPlainText
      [hexDigit (n / 4096), hexDigit (n / 256), hexDigit (n / 16), hexDigit n] := by
    simp only [IsPlainText, List.forall_mem_cons, isPlainChar_hexDigit, true_and]
    exact List.forall_mem_nil _
  have hstart : IsPlainText ['\\', 'u'] := by decide
  exact hstart.append hdigits

lemma isPlainText_escapeChar (c : Char) : IsPlainText (escapeChar c) := by
  unfold escapeChar
  split
  · decide
  split
  · decide
  split
  · decide
  split
  · decide
  split
  · decide
  split
  · decide
  split
  · decide
  split
  · next h => exact List.forall_mem_singleton.2 h
  split
  · exact isPlainText_unitEscape _
  · exact (isPlainText_unitEscape _).append (isPlainText_unitEscape _)

lemma isPlainText_quote (s : String) : IsPlainText (quote s) := by
  have hescaped : IsPlainText (s.toList.flatMap escapeChar) := by
    intro c hc
    obtain ⟨x, -, hx⟩ := List.mem_flatMap.1 hc
    exact isPlainText_escapeChar x c hx
  exact (hescaped.append (by decide)).cons (by decide)

lemma isPlainText_toDigits (n : Nat) : IsPlainText (Nat.toDigits 10 n) := fun _ hc =>
  isPlainChar_of_isDigit (Nat.isDigit_of_mem_toDigits (by decide) (by decide) hc)

lemma isPlainText_numberText (n : Number) : IsPlainText (numberText n) := by
  cases n with
  | whole n =>
    rw [numberText_whole]
    split
    · exact isPlainText_toDigits _
    · exact (isPlainText_toDigits _).cons (by decide)
  | real x =>
    cases x with
    | nan => decide
    | infinite negative => cases negative <;> decide
    | finite negative m q canonical =>
      intro c hc
      exact isPlainChar_of_isNumeralChar (isNumeralChar_finite negative m q canonical c hc)

mutual
/-- The text of a value is printable. -/
theorem isPlainText_encode (v : Value) : IsPlainText (encode v) := by
  cases v with
  | null => decide
  | bool b => cases b <;> decide
  | number n => exact isPlainText_numberText n
  | text s => exact isPlainText_quote s
  | bytes bs => exact List.forall_mem_nil _
  | list items =>
    rw [encode]
    exact ((isPlainText_encodeItems items).append (by decide)).cons (by decide)
  | object fields =>
    rw [encode]
    exact ((isPlainText_encodeFields fields).append (by decide)).cons (by decide)

theorem isPlainText_encodeItems (items : List Value) : IsPlainText (encodeItems items) := by
  match items with
  | [] => exact List.forall_mem_nil _
  | [v] =>
    rw [encodeItems]
    exact isPlainText_encode v
  | v :: w :: r =>
    have hrest := (isPlainText_encodeItems (w :: r)).cons (c := ' ') (by decide)
    rw [encodeItems_cons_cons]
    exact (isPlainText_encode v).append (hrest.cons (by decide))

theorem isPlainText_encodeFields (fields : List (String × Value)) :
    IsPlainText (encodeFields fields) := by
  match fields with
  | [] => exact List.forall_mem_nil _
  | [(k, v)] =>
    have hv := (isPlainText_encode v).cons (c := ' ') (by decide)
    rw [encodeFields_singleton]
    exact (isPlainText_quote k).append (hv.cons (by decide))
  | (k, v) :: f :: r =>
    have hrest := (isPlainText_encodeFields (f :: r)).cons (c := ' ') (by decide)
    have hv := ((isPlainText_encode v).append (hrest.cons (by decide : IsPlainChar ','))).cons
      (c := ' ') (by decide)
    rw [encodeFields_cons_cons]
    exact (isPlainText_quote k).append (hv.cons (by decide))
end

lemma eq_of_write? {v : Value} {text : String} (h : write? v = some text) :
    text = String.ofList (encode v) := by
  unfold write? at h
  split at h
  · exact (Option.some.inj h).symm
  · cases h

end Json

/-! ### Files -/

namespace SlotFile

lemma unifyLineEnds_eq_self {cs : List Char} (h : '\r' ∉ cs) : unifyLineEnds cs = cs := by
  induction cs with
  | nil => rfl
  | cons c r ih =>
    obtain ⟨hc, hr⟩ := List.ne_and_not_mem_of_not_mem_cons h
    rw [unifyLineEnds, ih hr]
    · intro r' hr'
      exact absurd hr'.symm hc
    · exact Ne.symm hc

lemma text?_encode {s : String} (h : IsPlainText s.toList) :
    text? (Utf8.encode s.toList) = some s := by
  rw [text?, Utf8.decode_encode, Option.map_some, unifyLineEnds_eq_self h.return_notMem,
    String.ofList_toList]

/-- A text that was written is read as its file shows it. -/
lemma get_set_eq {d : Directory} {key text : String} (h : (set d key text).1 = .ok ()) :
    get (set d key text).2 key = .ok (text? (Utf8.encode text.toList)) := by
  unfold set at h ⊢
  split at h
  · cases h
  · next drafted hdraft =>
    obtain rfl := Directory.eq_of_write hdraft
    split at h
    · cases h
    · next moved hmove =>
      have hitem : Directory.item?
          (Fields.put (draftName key) (.file (Utf8.encode text.toList)) d) (draftName key)
          = some (.file (Utf8.encode text.toList)) := Fields.lookup_put_self _ _ _
      obtain ⟨hnone, -⟩ | ⟨e, he, hfits, rfl⟩ := Directory.eq_of_move hmove
      · cases hnone.symm.trans hitem
      · obtain rfl := Option.some.inj (he.symm.trans hitem)
        have hmoved (d' : Directory) :
            Directory.item? (Fields.put (name key) (.file (Utf8.encode text.toList)) d') (name key)
              = some (.file (Utf8.encode text.toList)) := Fields.lookup_put_self _ _ _
        rw [get, hfits, hmoved]
        rfl

lemma get_set {d : Directory} {key text : String} (hp : IsPlainText text.toList)
    (h : (set d key text).1 = .ok ()) : get (set d key text).2 key = .ok (some text) := by
  rw [get_set_eq h, text?_encode hp]

end SlotFile

namespace Storage

lemma get_set {s : Storage} {key text : String} (hp : IsPlainText text.toList)
    (h : (s.set key text).1 = .ok ()) : (s.set key text).2.get key = .ok (some text) := by
  unfold set at h ⊢
  split at h
  · cases h
  · split at h
    · unfold get
      dsimp only
      rw [Fields.lookup_put_self]
    · unfold get
      exact SlotFile.get_set hp h

/-- A value that was written is there as its JSON text. -/
lemma get_writeJson {s : Storage} {key : String} {v : Value} (h : (s.writeJson key v).1 = .ok ()) :
    ∃ text, Json.write? v = some text ∧ (s.writeJson key v).2.get key = .ok (some text) := by
  unfold writeJson at h ⊢
  split at h
  · next text ht =>
    have hp : IsPlainText text.toList := by
      rw [Json.eq_of_write? ht, String.toList_ofList]
      exact Json.isPlainText_encode v
    exact ⟨text, ht, get_set hp h⟩
  · cases h

/-- **What was written is read.** -/
theorem readJson_writeJson {s : Storage} {key : String} {v : Value}
    (hv : v.IsPlain Json.IsReadable s.reader.depth) (h : (s.writeJson key v).1 = .ok ()) :
    (s.writeJson key v).2.readJson key = .ok v := by
  obtain ⟨text, ht, hget⟩ := get_writeJson h
  have hread : s.reader.read text = .ok v := by
    rw [Json.eq_of_write? ht, Json.Reader.read, String.toList_ofList, Json.decode_encode hv]
  rw [readJson, hget, ok_bind, reader_writeJson]
  change readText s.reader text = .ok v
  rw [readText, hread]

end Storage

end StellarWallet
