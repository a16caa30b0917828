/-!
# Blank characters and letter case

What counts as white space in ids, names and settings, and the ASCII folding of letters.

## Main definitions

* `isBlank`: the Unicode property White_Space.
* `trim`: a text without its leading and trailing blank characters.
* `fold`: a text with its ASCII capitals made small.
-/

namespace StepFlow.Text

/-- The code points of the Unicode property White_Space, as inclusive ranges. -/
def blankRanges : List (Nat × Nat) :=
  [(0x09, 0x0D), (0x20, 0x20), (0x85, 0x85), (0xA0, 0xA0), (0x1680, 0x1680), (0x2000, 0x200A),
   (0x2028, 0x2029), (0x202F, 0x202F), (0x205F, 0x205F), (0x3000, 0x3000)]

/-- Whether a character is white space. -/
def isBlank (c : Char) : Bool :=
  blankRanges.any fun (first, last) => first ≤ c.toNat && c.toNat ≤ last

/-- Whether a text holds nothing but white space; the empty text does. -/
def isBlankText (s : String) : Bool :=
  s.toList.all isBlank

/-- Drops the blank characters at the end of a list. -/
def dropBlankEnd (cs : List Char) : List Char :=
  (cs.reverse.dropWhile isBlank).reverse

/-- A text without its leading and trailing white space. -/
def trim (s : String) : String :=
  String.ofList (dropBlankEnd (s.toList.dropWhile isBlank))

/-- Makes the letters `A` to `Z` small and keeps every other character. -/
def fold (s : String) : String :=
  String.ofList (s.toList.map Char.toLower)

end StepFlow.Text
