import StellarWallet.Text.Search
import StellarWallet.Text.Word
import StellarWallet.Value.Fields

/-!
Grammars of command lines: options with one or two dashes, and arguments by their position.

A long option may be cut short as long as only one fits, and may carry its value behind an equals
sign. Negative numbers and words with a blank are arguments, and so is all that follows two dashes.
A run of arguments settles every rule that it reaches: an optional rule at its end that gets nothing
gets nothing later either.
-/

namespace StellarWallet.CommandLine

/-- How the reading of a command line ends without a command. -/
inductive UsageEnd where
  | help
  | wrong
  deriving DecidableEq, Repr

/-- The exit code. -/
def UsageEnd.code : UsageEnd → Nat
  | .help => 0
  | .wrong => 2

inductive OptionRole where
  | help
  /-- Stands alone. -/
  | flag
  /-- Takes a value, and not every one. -/
  | value (accepts : String → Bool)

structure OptionRule where
  /-- Its spellings, with dashes. -/
  names : List String
  key : String
  role : OptionRole

structure ArgumentRule where
  key : String
  required : Bool := true
  accepts : String → Bool := fun _ => true

structure Grammar where
  options : List OptionRule := []
  arguments : List ArgumentRule := []

inductive Word where
  | argument (s : String)
  /-- Two dashes, after which all words are arguments. -/
  | separator
  /-- An option, maybe with a text: `joined` directly behind its letter, else behind an equals
  sign. -/
  | option (rule : OptionRule) (joined : Bool) (given : Option String)
  | unknown

def Word.isPlain : Word → Bool
  | .argument _ | .separator => true
  | _ => false

/-- The option that every grammar has. -/
def helpRule : OptionRule := ⟨["-h", "--help"], "help", .help⟩

/-- The word is a minus sign and a decimal numeral; a line feed may end it. -/
def isNegativeNumber (cs : List Char) : Bool :=
  let digits (cs : List Char) : Bool := cs.all fun c => (Text.digitValue? c).isSome
  match cs with
  | '-' :: r =>
    let r := if r.getLast? = some '\n' then r.dropLast else r
    match Text.cut '.' r with
    | (whole, none) => whole ≠ [] && digits whole
    | (whole, some places) => digits whole && places ≠ [] && digits places
  | _ => false

namespace Grammar

def rules (g : Grammar) : List OptionRule := helpRule :: g.options

/-- The rule of an exact spelling. -/
def rule? (g : Grammar) (name : List Char) : Option OptionRule :=
  g.rules.find? fun r => r.names.contains (String.ofList name)

/-- The options that a word with a dash may stand for, when it is none of the spellings. -/
def candidates (g : Grammar) (cs : List Char) : List Word :=
  match cs with
  | '-' :: '-' :: _ =>
    let (start, given) := Text.cut '=' cs
    g.rules.flatMap fun r =>
      (r.names.filter fun n => start.isPrefixOf n.toList).map fun _ =>
        .option r false (given.map String.ofList)
  | _ =>
    g.rules.flatMap fun r =>
      (r.names.filter fun n => n.toList = cs.take 2).map fun _ =>
        .option r true (some (String.ofList (cs.drop 2)))

/-- A word that starts with a dash, is no spelling of an option and carries no value of one. -/
def dashed (g : Grammar) (cs : List Char) : Except UsageEnd Word :=
  match g.candidates cs with
  | [w] => .ok w
  | _ :: _ => .error .wrong
  | [] =>
    .ok (if isNegativeNumber cs || cs.contains ' ' then .argument (String.ofList cs) else .unknown)

/-- What a word stands for. -/
def word (g : Grammar) (s : String) : Except UsageEnd Word :=
  let cs := s.toList
  if cs.head? ≠ some '-' || cs.length = 1 then .ok (.argument s)
  else match g.rule? cs, Text.cut '=' cs with
    | some r, _ => .ok (.option r false none)
    | none, (name, some given) =>
      match g.rule? name with
      | some r => .ok (.option r false (some (String.ofList given)))
      | none => g.dashed cs
    | none, _ => g.dashed cs

/-- What the words of a command line stand for. -/
def words (g : Grammar) : List String → Except UsageEnd (List Word)
  | [] => .ok []
  | s :: r =>
    if s = "--" then .ok (.separator :: r.map .argument)
    else do
      let w ← g.word s
      return w :: (← words g r)

end Grammar

/-- What was read from a command line so far. -/
structure Reading where
  /-- The rules of arguments that are not settled yet. -/
  arguments : List ArgumentRule
  values : List (String × String) := []
  /-- There was a word without a meaning. -/
  surplus : Bool := false

namespace Reading

/-- Sets a value if its rule accepts it. -/
def put (st : Reading) (key : String) (accepts : String → Bool) (s : String) :
    Except UsageEnd Reading :=
  if accepts s then .ok { st with values := Fields.put key s st.values } else .error .wrong

def isSeparator : Word → Bool
  | .separator => true
  | _ => false

/-- Settles rules with the run of arguments at the front of the words; the words after it. Two
dashes in the place of an argument give it nothing, unless the separator stands before them. -/
def settle (st : Reading) : List ArgumentRule → List Word → Except UsageEnd (Reading × List Word)
  | [], words => .ok ({ st with arguments := [] }, words)
  | rule :: rules, words =>
    match words.dropWhile isSeparator with
    | .argument s :: rest => do
      let given := s ≠ "--" || words.head?.any isSeparator
      let st ← if given then st.put rule.key rule.accepts s else pure st
      settle st rules (rest.dropWhile isSeparator)
    | rest =>
      if rule.required then .ok ({ st with arguments := rule :: rules }, words)
      else settle st rules rest

/-- A text directly behind the letter of an option without a value may repeat the letter; what
follows then is ignored, but begins with no dash and no equals sign. -/
def isLetters (rule : OptionRule) (given : String) : Bool :=
  match given.toList.dropWhile fun c => rule.names.contains (String.ofList ['-', c]) with
  | [] => true
  | c :: _ => c ≠ '-' && c ≠ '='

/-- What an option without a value does. -/
def raise (st : Reading) (rule : OptionRule) : Except UsageEnd Reading :=
  match rule.role with
  | .flag => .ok { st with values := Fields.put rule.key "" st.values }
  | _ => .error .help

/-- Reads an option, given the word after it; the answer says how many words it took as a value. -/
def option (st : Reading) (rule : OptionRule) (joined : Bool) (given : Option String)
    (next : Option Word) : Except UsageEnd (Reading × Nat) :=
  match rule.role, given, next with
  | .value accepts, some s, _ => return (← st.put rule.key accepts s, 0)
  | .value accepts, none, some (.argument s) => return (← st.put rule.key accepts s, 1)
  | .value _, none, _ => .error .wrong
  | _, none, _ => return (← st.raise rule, 0)
  | _, some s, _ =>
    if joined && isLetters rule s then return (← st.raise rule, 0) else .error .wrong

/-- Reads the words, one option or one run of arguments at a time. -/
def run (st : Reading) (words : List Word) : Except UsageEnd Reading :=
  match words with
  | [] => .ok st
  | .unknown :: rest => run { st with surplus := true } rest
  | .option rule joined given :: rest => do
    let (st, used) ← st.option rule joined given rest.head?
    run st (rest.drop used)
  | w :: rest => do
    let (st, left) ← st.settle st.arguments (w :: rest)
    if _h : left.length < (w :: rest).length then run st left
    else run { st with surplus := true } rest
termination_by words.length
decreasing_by
  · simp only [List.length_cons]; omega
  · simp only [List.length_cons, List.length_drop]; omega
  · assumption
  · simp only [List.length_cons]; omega

end Reading

namespace Grammar

/-- Reads the words after the name of a command: the values, and whether all words had a meaning. -/
def read (g : Grammar) (args : List String) : Except UsageEnd (List (String × String) × Bool) := do
  let words ← g.words args
  let st ← Reading.run { arguments := g.arguments } words
  if st.arguments.any (·.required) then throw .wrong
  return (st.values, !st.surplus)

end Grammar

end StellarWallet.CommandLine
