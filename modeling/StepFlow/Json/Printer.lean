import StepFlow.Decimal.Notation
import StepFlow.Json.Value
import StepFlow.Text.Quoted

/-!
# Writing JSON

The compact text of a value: no blanks, the entries of an object in their order, text as it is
but for quotes, backslashes and controls.

## Main definitions

* `Value.render`: the text of a value.
-/

namespace StepFlow.Json

/-- How one character is written inside a JSON string. -/
def escapeChar (c : Char) : List Char :=
  match c with
  | '"' => ['\\', '"']
  | '\\' => ['\\', '\\']
  | '\n' => ['\\', 'n']
  | '\r' => ['\\', 'r']
  | '\t' => ['\\', 't']
  | '\x08' => ['\\', 'b']
  | '\x0c' => ['\\', 'f']
  | c =>
    if c.toNat < 16 then '\\' :: 'u' :: '0' :: '0' :: '0' :: Nat.toDigits 16 c.toNat
    else if c.toNat < 32 then '\\' :: 'u' :: '0' :: '0' :: Nat.toDigits 16 c.toNat
    else [c]

/-- The text of a JSON string. -/
def renderText (s : String) : String :=
  "\"" ++ String.ofList (s.toList.flatMap escapeChar) ++ "\""

namespace Value

mutual

/-- The compact text of a value. -/
def render : Value → String
  | null => "null"
  | bool true => "true"
  | bool false => "false"
  | int n => toString n
  | float x => Decimal.render x
  | str s => renderText s
  | arr items => "[" ++ renderItems items ++ "]"
  | obj entries => "\x7b" ++ renderEntries entries ++ "\x7d"

/-- The texts of the items, separated by commas. -/
def renderItems : List Value → String
  | [] => ""
  | [v] => v.render
  | v :: rest => v.render ++ "," ++ renderItems rest

/-- The texts of the entries, separated by commas. -/
def renderEntries : List (String × Value) → String
  | [] => ""
  | [(key, v)] => renderText key ++ ":" ++ v.render
  | (key, v) :: rest => renderText key ++ ":" ++ v.render ++ "," ++ renderEntries rest

end

end Value

end StepFlow.Json
