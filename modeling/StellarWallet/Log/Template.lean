import StellarWallet.Failure.Fault
import StellarWallet.Number.Scientific
import StellarWallet.Value.Display

/-!
Message templates.

A template is text with directives, each a percent sign, what to take (the next argument, or a field
of the one argument), how wide and how precise to show it, and a letter for the form. Directives
are worked off from left to right, and the first one that does not fit its argument is the fault.
-/

namespace StellarWallet

/-- Why a template and its arguments do not go together. -/
inductive TemplateFault where
  | tooFewArguments
  | tooManyArguments
  | noFields
  | missingField (name : String)
  | wrongArgument
  | incompleteName
  | incomplete
  | widthTooBig
  | precisionTooBig
  | unknownForm (c : Char) (index : Nat)
  | notANumber
  | outOfRange
  /-- Half a pair of units, which no text that is written can hold. -/
  | halfCharacter
  deriving DecidableEq, Repr

namespace TemplateFault

/-- An unknown form, quoted if it is plain ASCII. -/
def formText (c : Char) : String :=
  let shown := if 31 ≤ c.toNat ∧ c.toNat < 126 then c else '?'
  "'" ++ String.singleton shown ++ "' (0x" ++ String.ofList (Nat.toDigits 16 c.toNat) ++ ")"

def toFault : TemplateFault → Fault
  | .missingField name => ⟨.missingKey, (Value.text name).literal⟩
  | .incompleteName => ⟨.invalidValue, "incomplete format key"⟩
  | .incomplete => ⟨.invalidValue, "incomplete format"⟩
  | .widthTooBig => ⟨.invalidValue, "width too big"⟩
  | .precisionTooBig => ⟨.invalidValue, "precision too big"⟩
  | .unknownForm c index =>
    ⟨.invalidValue, "unsupported format character " ++ formText c ++ " at index " ++ toString index⟩
  | .notANumber => ⟨.invalidValue, "cannot convert float NaN to integer"⟩
  | .outOfRange => ⟨.overflow, ""⟩
  | _ => ⟨.wrongType, ""⟩

end TemplateFault

/-! ### Reading templates -/

/-- A width or a precision. -/
inductive Measure where
  | none
  | fixed (n : Nat)
  | argument

structure Directive where
  /-- The field to take; the inner `none` is a name without its closing parenthesis. -/
  field : Option (Option String) := .none
  flags : List Char := []
  width : Measure := .none
  precision : Measure := .none
  /-- The form and its place in the template; `none` when the template ends before it. -/
  form : Option (Char × Nat) := .none

inductive TemplatePiece where
  | text (c : Char)
  | directive (d : Directive)

namespace Directive

/-- A name up to the parenthesis that closes it. -/
def readName : (depth : Nat) → List Char → Option (List Char × List Char)
  | _, [] => none
  | depth, c :: r =>
    if c = ')' then
      match depth with
      | 0 => some ([], r)
      | depth + 1 => (readName depth r).map fun (n, rest) => (c :: n, rest)
    else (readName (if c = '(' then depth + 1 else depth) r).map fun (n, rest) => (c :: n, rest)

def isFlag (c : Char) : Bool := c = '-' || c = '+' || c = ' ' || c = '#' || c = '0'

/-- A measure at the start of a text. -/
def readMeasure (cs : List Char) : Measure × List Char :=
  match cs with
  | '*' :: r => (.argument, r)
  | _ =>
    match cs.takeWhile Char.isDigit with
    | [] => (.none, cs)
    | ds => (.fixed (Nat.ofDigitChars 10 ds 0), cs.dropWhile Char.isDigit)

/-- A precision after a point; a point alone is a precision of zero. -/
def readPrecision (cs : List Char) : Measure × List Char :=
  match cs with
  | '.' :: r =>
    match readMeasure r with
    | (.none, r) => (.fixed 0, r)
    | found => found
  | _ => (.none, cs)

/-- A letter for a size, which changes nothing. -/
def dropSize : List Char → List Char
  | 'h' :: r | 'l' :: r | 'L' :: r => r
  | cs => cs

/-- A directive after its percent sign; `size` is the length of the whole template. -/
def read (size : Nat) (cs : List Char) : Directive × List Char :=
  let named : Option (Option String) × List Char :=
    match cs with
    | '(' :: r =>
      match readName 0 r with
      | some (n, rest) => (some (some (String.ofList n)), rest)
      | none => (some .none, [])
    | _ => (.none, cs)
  let flags := named.2.takeWhile isFlag
  let (width, rest) := readMeasure (named.2.dropWhile isFlag)
  let (precision, rest) := readPrecision rest
  match dropSize rest with
  | [] => ({ field := named.1, flags, width, precision }, [])
  | c :: r => ({ field := named.1, flags, width, precision, form := some (c, size - r.length - 1) }, r)

end Directive

/-- The pieces of a template. -/
def TemplatePiece.readAll (size : Nat) : (fuel : Nat) → List Char → List TemplatePiece
  | 0, _ => []
  | _, [] => []
  | fuel + 1, '%' :: r =>
    match r with
    | '%' :: r => .text '%' :: readAll size fuel r
    | _ =>
      let (d, rest) := Directive.read size r
      .directive d :: readAll size fuel rest
  | fuel + 1, c :: r => .text c :: readAll size fuel r

/-! ### Showing values -/

/-- The forms of a directive. -/
structure Form where
  letter : Char
  flags : List Char
  width : Option Nat
  precision : Option Nat
  /-- Where in the template the letter stands. -/
  index : Nat

namespace Form

def has (f : Form) (flag : Char) : Bool := f.flags.contains flag

def isWhole (f : Form) : Bool := f.letter ∈ ['d', 'i', 'u', 'o', 'x', 'X']

def isReal (f : Form) : Bool := f.letter ∈ ['e', 'E', 'f', 'F', 'g', 'G']

def isText (f : Form) : Bool := f.letter ∈ ['s', 'r', 'a']

/-- A sign may stand in front. -/
def isSigned (f : Form) : Bool := f.isWhole || f.isReal

/-- The whole number to show. -/
def wholeOf (f : Form) : Value → Except TemplateFault Int
  | .bool b => .ok (if b then 1 else 0)
  | .number (.whole n) => .ok n
  | .number (.real x) =>
    if f.letter ∈ ['o', 'x', 'X'] then .error .wrongArgument
    else match x with
      | .nan => .error .notANumber
      | .infinite _ => .error .outOfRange
      | x => .ok (x.truncate?.getD 0)
  | _ => .error .wrongArgument

/-- The base of a form and the two characters that mark it. -/
def base (f : Form) : Nat × List Char :=
  match f.letter with
  | 'o' => (8, ['0', 'o'])
  | 'x' => (16, ['0', 'x'])
  | 'X' => (16, ['0', 'X'])
  | _ => (10, [])

/-- The mark of the base is written. -/
def isMarked (f : Form) : Bool := f.has '#' && f.letter ∈ ['o', 'x', 'X']

def upperIf (b : Bool) (cs : List Char) : List Char := if b then cs.map Char.toUpper else cs

/-- A whole number: at least as many digits as the precision asks for. -/
def wholeText (f : Form) (n : Int) : List Char :=
  let (base, mark) := f.base
  let ds := upperIf (f.letter = 'X') (Nat.toDigits base n.natAbs)
  let zeros := List.replicate (f.precision.getD 0 - ds.length) '0'
  (if n < 0 then ['-'] else []) ++ (if f.isMarked then mark else []) ++ zeros ++ ds

/-- The binary64 number to show. -/
def realOf : Value → Except TemplateFault Binary64
  | .bool b => .ok (.ofInt (if b then 1 else 0))
  | .number n =>
    match n.toBinary64 with
    | .ok x => .ok x
    | .error _ => .error .outOfRange
  | _ => .error .wrongArgument

/-- A binary64 number; six digits unless the precision says otherwise. -/
def realText (f : Form) (x : Binary64) : List Char :=
  let p := f.precision.getD 6
  let digits (m : Nat) (q : Int) : List Char :=
    match f.letter.toLower with
    | 'e' => Binary64.scientificText (f.has '#') p m q
    | 'f' => Binary64.fixedText (f.has '#') p m q
    | _ => Binary64.generalText (f.has '#') p m q
  upperIf f.letter.isUpper <| match x with
    | .nan => "nan".toList
    | .infinite negative => (if negative then "-inf" else "inf").toList
    | .finite negative m q _ => (if negative then ['-'] else []) ++ digits m q

/-- One character: a text of one, or a code point. -/
def characterOf : Value → Except TemplateFault Char
  | .text s =>
    match s.toList with
    | [c] => .ok c
    | _ => .error .wrongArgument
  | .bool b => .ok (Char.ofNat (if b then 1 else 0))
  | .number (.whole n) =>
    if n < 0 ∨ 0x110000 ≤ n then .error .outOfRange
    else if n.toNat.isValidChar then .ok (Char.ofNat n.toNat)
    else .error .halfCharacter
  | _ => .error .wrongArgument

/-- A text in ASCII, with escapes for all other characters. -/
def asciiText (s : String) : List Char :=
  s.toList.flatMap fun c =>
    if c.toNat < 128 then [c]
    else if c.toNat < 0x100 then '\\' :: 'x' :: Text.hexPadded 2 c.toNat
    else if c.toNat < 0x10000 then '\\' :: 'u' :: Text.hexPadded 4 c.toNat
    else '\\' :: 'U' :: Text.hexPadded 8 c.toNat

/-- A value in its form, before it is fitted to the width. -/
def body (f : Form) (v : Value) : Except TemplateFault (List Char) :=
  match f.letter with
  | 's' => .ok v.display.toList
  | 'r' => .ok v.literal.toList
  | 'a' => .ok (asciiText v.literal)
  | 'c' => (characterOf v).map ([·])
  | _ =>
    if f.isWhole then (f.wholeOf v).map f.wholeText
    else if f.isReal then (realOf v).map f.realText
    else .error (.unknownForm f.letter f.index)

/-- A text with its sign apart, or the sign that a flag asks for. -/
def splitSign (f : Form) (cs : List Char) : List Char × List Char :=
  let asked := if f.has '+' then ['+'] else if f.has ' ' then [' '] else []
  if f.isSigned then
    match cs with
    | '-' :: r => (['-'], r)
    | '+' :: r => (['+'], r)
    | _ => (asked, cs)
  else ([], cs)

/-- A text fitted to the width: blanks in front, zeros between sign and digits, or blanks behind. -/
def fit (f : Form) (cs : List Char) : List Char :=
  let cs := if f.isText then cs.take (f.precision.getD cs.length) else cs
  let (sign, cs) := f.splitSign cs
  let (mark, cs) := if f.isMarked then (cs.take 2, cs.drop 2) else ([], cs)
  let missing := f.width.getD 0 - (sign.length + mark.length + cs.length)
  if f.isSigned && f.has '0' then
    if f.has '-' then sign ++ mark ++ cs ++ List.replicate missing ' '
    else sign ++ mark ++ List.replicate missing '0' ++ cs
  else if f.has '-' then sign ++ mark ++ cs ++ List.replicate missing ' '
  else List.replicate missing ' ' ++ sign ++ mark ++ cs

end Form

/-! ### Filling in -/

/-- What directives take their values from: a sequence, or the fields of one object. With an object,
the value that the last name chose, or at first the object itself, may be taken once. -/
inductive TemplateArguments where
  | sequence (rest : List Value)
  | fields (all : List (String × Value)) (next : Option Value)

namespace TemplateArguments

/-- The arguments of a message: a single object that is not empty gives its fields. -/
def ofList : List Value → TemplateArguments
  | [.object fs] => if fs.isEmpty then .sequence [.object fs] else .fields fs (some (.object fs))
  | vs => .sequence vs

/-- Takes the next value. -/
def next : TemplateArguments → Except TemplateFault (Value × TemplateArguments)
  | .sequence (v :: r) => .ok (v, .sequence r)
  | .fields all (some v) => .ok (v, .fields all none)
  | _ => .error .tooFewArguments

/-- Chooses a field. -/
def choose (name : Option String) : TemplateArguments → Except TemplateFault TemplateArguments
  | .sequence _ => .error .noFields
  | .fields all _ =>
    match name with
    | none => .error .incompleteName
    | some name =>
      match Fields.lookup name all with
      | some v => .ok (.fields all (some v))
      | none => .error (.missingField name)

def maxWidth : Nat := twoTo 63 - 1

def maxPrecision : Nat := twoTo 31 - 1

/-- The measure that an argument gives. -/
def measureOf : Value → Except TemplateFault Int
  | .bool b => .ok (if b then 1 else 0)
  | .number (.whole n) => .ok n
  | _ => .error .wrongArgument

/-- A width, and whether it asks for blanks behind. -/
def width (args : TemplateArguments) (m : Measure) :
    Except TemplateFault (Option Nat × Bool × TemplateArguments) :=
  match m with
  | .none => .ok (none, false, args)
  | .fixed n => if maxWidth < n then .error .widthTooBig else .ok (some n, false, args)
  | .argument => do
    let (v, args) ← args.next
    let n ← measureOf v
    if maxWidth < n.natAbs then .error .outOfRange
    else .ok (some n.natAbs, n < 0, args)

/-- A precision; a negative one counts as zero. -/
def precision (args : TemplateArguments) (m : Measure) :
    Except TemplateFault (Option Nat × TemplateArguments) :=
  match m with
  | .none => .ok (none, args)
  | .fixed n => if maxPrecision < n then .error .precisionTooBig else .ok (some n, args)
  | .argument => do
    let (v, args) ← args.next
    let n ← measureOf v
    if maxPrecision < n.natAbs then .error .outOfRange
    else .ok (some n.toNat, args)

end TemplateArguments

/-- The text of a directive, and the arguments that are left. -/
def Directive.fill (d : Directive) (args : TemplateArguments) :
    Except TemplateFault (List Char × TemplateArguments) := do
  let args ← match d.field with
    | some name => args.choose name
    | none => pure args
  let (width, behind, args) ← args.width d.width
  let (precision, args) ← args.precision d.precision
  match d.form with
  | none => throw .incomplete
  | some (letter, index) =>
    let (v, args) ← args.next
    let flags := if behind then '-' :: d.flags else d.flags
    let form : Form := ⟨letter, flags, width, precision, index⟩
    return (form.fit (← form.body v), args)

/-- The text of the pieces. -/
def TemplatePiece.fillAll : List TemplatePiece → TemplateArguments →
    Except TemplateFault (List Char)
  | [], .sequence (_ :: _) => .error .tooManyArguments
  | [], _ => .ok []
  | .text c :: r, args => (fillAll r args).map (c :: ·)
  | .directive d :: r, args => do
    let (cs, args) ← d.fill args
    return cs ++ (← fillAll r args)

/-- A message made of a template and its arguments; without arguments it is the template itself. -/
def fillTemplate (template : String) (args : List Value) : Except TemplateFault String :=
  if args.isEmpty then .ok template
  else
    let cs := template.toList
    (TemplatePiece.fillAll (TemplatePiece.readAll cs.length cs.length cs)
      (TemplateArguments.ofList args)).map String.ofList

end StellarWallet
