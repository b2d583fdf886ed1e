import ScriptBridge.Text.Printable

/-!
# Quoted text

`quoted` shows a text between double quotes: quotes, backslashes and the usual controls are escaped
with a backslash, and characters that cannot be shown alone by their code point.
-/

namespace ScriptBridge.Text

def hexDigit (n : Nat) : Char := if n < 10 then Char.ofNat (48 + n) else Char.ofNat (87 + n)

/-- Lower-case hexadecimal digits, without leading zeros. -/
def hexDigits (n : Nat) : String := String.ofList ((Nat.toDigits 16 n).map Char.toLower)

/-- One byte as two hexadecimal digits. -/
def hexByte (b : UInt8) : String :=
  String.ofList [hexDigit (b.toNat / 16), hexDigit (b.toNat % 16)]

def escapeChar (c : Char) : String :=
  match c with
  | '\x00' => "\\0"
  | '\t' => "\\t"
  | '\r' => "\\r"
  | '\n' => "\\n"
  | '"' => "\\\""
  | '\\' => "\\\\"
  | c =>
    if isCombining c || !isPrintable c then "\\u\x7b" ++ hexDigits c.val.toNat ++ "\x7d"
    else c.toString

/-- A text in double quotes, with escapes for what would not show. -/
def quoted (s : String) : String := "\"" ++ String.join (s.toList.map escapeChar) ++ "\""

end ScriptBridge.Text
