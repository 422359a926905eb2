import StellarWallet.Value.Basic
import StellarWallet.Text.Quoted

/-!
Values as messages show them.

A text is shown bare on its own and quoted inside a list, an object or a complaint about it.
-/

namespace StellarWallet.Value

mutual
/-- A value with quotes around its texts. -/
def literal : Value → String
  | .null => "None"
  | .bool b => if b then "True" else "False"
  | .number n => n.text
  | .text s => Text.quoted s
  | .bytes bs => Text.quotedBytes bs
  | .list items => "[" ++ literalItems items ++ "]"
  | .object fields => "\x7b" ++ literalFields fields ++ "\x7d"

def literalItems : List Value → String
  | [] => ""
  | [v] => literal v
  | v :: r => literal v ++ ", " ++ literalItems r

def literalFields : List (String × Value) → String
  | [] => ""
  | [(k, v)] => Text.quoted k ++ ": " ++ literal v
  | (k, v) :: r => Text.quoted k ++ ": " ++ literal v ++ ", " ++ literalFields r
end

/-- A value on its own. -/
def display : Value → String
  | .text s => s
  | v => v.literal

/-- The name of the kind of a value. -/
def typeName : Value → String
  | .null => "NoneType"
  | .bool _ => "bool"
  | .number (.whole _) => "int"
  | .number (.real _) => "float"
  | .text _ => "str"
  | .bytes _ => "bytes"
  | .list _ => "list"
  | .object _ => "dict"

end StellarWallet.Value
