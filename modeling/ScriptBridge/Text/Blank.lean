/-!
# Blank characters

`isBlank` is the Unicode property White_Space. `trimBlank` drops blanks, and byte order marks with
them, from both ends of a text.
-/

namespace ScriptBridge.Text

/-- The Unicode property White_Space. -/
def isBlank (c : Char) : Bool :=
  let n := c.val.toNat
  (9 ≤ n && n ≤ 13) || n == 0x20 || n == 0x85 || n == 0xa0 || n == 0x1680
    || (0x2000 ≤ n && n ≤ 0x200a) || n == 0x2028 || n == 0x2029 || n == 0x202f || n == 0x205f
    || n == 0x3000

/-- White space, or the byte order mark. -/
def isBlankOrMark (c : Char) : Bool := isBlank c || c == '\uFEFF'

/-- The characters without those at either end that satisfy `p`. -/
def trimWhere (p : Char → Bool) (cs : List Char) : List Char :=
  ((cs.dropWhile p).reverse.dropWhile p).reverse

end ScriptBridge.Text
