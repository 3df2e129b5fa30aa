/-!
# Blank characters

The characters of the Unicode property White_Space, and trimming a text at either end.
-/

namespace CodeAtlas.Text

/-- Whether `c` has the Unicode property White_Space. -/
def isBlank (c : Char) : Bool :=
  let n := c.toNat
  (9 ≤ n && n ≤ 13) || n == 0x20 || n == 0x85 || n == 0xA0 || n == 0x1680 ||
    (0x2000 ≤ n && n ≤ 0x200A) || n == 0x2028 || n == 0x2029 || n == 0x202F ||
    n == 0x205F || n == 0x3000

/-- The text without its leading blanks. -/
def trimStart (cs : List Char) : List Char := cs.dropWhile isBlank

/-- The list without the elements at its end that satisfy `p`. -/
def dropEndWhile {α : Type} (p : α → Bool) (xs : List α) : List α :=
  (xs.reverse.dropWhile p).reverse

/-- The text without its trailing blanks. -/
def trimEnd (cs : List Char) : List Char := dropEndWhile isBlank cs

/-- The text without blanks at either end. -/
def trim (cs : List Char) : List Char := trimEnd (trimStart cs)

/-- Whether the text holds blanks only. -/
def isBlankLine (cs : List Char) : Bool := cs.all isBlank

end CodeAtlas.Text
