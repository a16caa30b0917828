import StepFlow.Text.Printable

/-!
# Quoted text

How a text is shown inside a message: between double quotes, with an escape for each character
that would not be seen as itself.

## Main definitions

* `hexDigits`: the digits of a number to base sixteen, in small letters.
* `quote`: the quoted form of a text.
-/

namespace StepFlow.Text

/-- The digits of `n` to base sixteen, without leading zeros. -/
def hexDigits (n : Nat) : String :=
  String.ofList (Nat.toDigits 16 n)

/-- How one character is shown inside double quotes. -/
def escape (c : Char) : String :=
  match c with
  | '\x00' => "\\0"
  | '\t' => "\\t"
  | '\r' => "\\r"
  | '\n' => "\\n"
  | '\\' => "\\\\"
  | '"' => "\\\""
  | c => if isPrintable c then c.toString else "\\u\x7b" ++ hexDigits c.toNat ++ "\x7d"

/-- A text between double quotes, its unseen characters escaped. -/
def quote (s : String) : String :=
  "\"" ++ String.join (s.toList.map escape) ++ "\""

end StepFlow.Text
