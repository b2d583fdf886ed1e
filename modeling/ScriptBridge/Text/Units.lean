/-!
# UTF-16 units

Scripts count and index the characters of a text in 16-bit units: a character outside the basic
plane is two units, a surrogate pair.

* `unitCount`: the number of units.
* `unitAt?`: the character that a single unit stands for; half of a pair reads as U+FFFD.
-/

namespace ScriptBridge.Text

/-- The units of one character, as characters of their own. -/
def unitsOf (c : Char) : List Char :=
  if c.val.toNat < 0x10000 then [c] else ['\uFFFD', '\uFFFD']

/-- The length of a text in units of 16 bits. -/
def unitCount (s : String) : Nat := (s.toList.flatMap unitsOf).length

/-- The unit at an index. -/
def unitAt? (s : String) (i : Nat) : Option Char := (s.toList.flatMap unitsOf)[i]?

end ScriptBridge.Text
