/-!
# Lines

`lines` cuts a text at line feeds. A carriage return before a line feed belongs to the line end, and a
text that ends in a line feed has no empty line after it.
-/

namespace ScriptBridge.Text

/-- A line from its characters in reverse order, without a carriage return at its end. -/
def finishLine : List Char → String
  | '\r' :: line => String.ofList line.reverse
  | line => String.ofList line.reverse

/-- The lines of a text after the characters of the first one, given in reverse order. -/
def linesFrom : List Char → List Char → List String
  | [], [] => []
  | line, [] => [String.ofList line.reverse]
  | line, '\n' :: rest => finishLine line :: linesFrom [] rest
  | line, c :: rest => linesFrom (c :: line) rest

def lines (s : String) : List String := linesFrom [] s.toList

end ScriptBridge.Text
