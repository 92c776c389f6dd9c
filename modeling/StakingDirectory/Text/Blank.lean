/-
**Blank characters.**

A character is blank if it has the Unicode property `White_Space`:

* `isBlank` decides it by the twenty-five code points of `blankRanges`;
* `trim` drops the blanks at both ends of a text.
-/

namespace StakingDirectory.Text

/-- The code points with the property `White_Space`, as ranges with both ends included. -/
def blankRanges : List (Nat × Nat) :=
  [(0x09, 0x0d), (0x20, 0x20), (0x85, 0x85), (0xa0, 0xa0), (0x1680, 0x1680), (0x2000, 0x200a),
   (0x2028, 0x2029), (0x202f, 0x202f), (0x205f, 0x205f), (0x3000, 0x3000)]

/-- Whether a character is blank. -/
def isBlank (char : Char) : Bool :=
  blankRanges.any fun range => range.1 ≤ char.toNat && char.toNat ≤ range.2

/-- The characters without the blanks at the end. -/
def trimEnd (text : List Char) : List Char :=
  (text.reverse.dropWhile isBlank).reverse

/-- The text without the blanks at both ends. -/
def trim (text : String) : String :=
  String.ofList (trimEnd (text.toList.dropWhile isBlank))

/-- Whether the text has a character that is not blank. -/
def hasInk (text : String) : Bool :=
  text.toList.any fun char => !isBlank char

end StakingDirectory.Text
