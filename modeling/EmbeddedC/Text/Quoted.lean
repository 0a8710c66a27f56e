import EmbeddedC.Text.Printable
import EmbeddedC.Text.Utf8

/-!
# Quoted text

Texts that a message quotes stand in double quotes, with one spelling for each character: a short
escape, the character itself where it is printable on its own, or its code point in hexadecimal.
Quoted bytes need not be text; a byte that is none is shown as two hexadecimal digits.
-/

namespace EmbeddedC.Text

def hex (n : Nat) : String :=
  String.ofList (Nat.toDigits 16 n)

/-- A character as a quoted text shows it. -/
def escape (c : Char) : String :=
  if c = '\x00' then "\\0"
  else if c = '\t' then "\\t"
  else if c = '\r' then "\\r"
  else if c = '\n' then "\\n"
  else if c = '\\' then "\\\\"
  else if c = '"' then "\\\""
  else if isPrintable c && !extendsGrapheme c then c.toString
  else "\\u\x7b" ++ hex c.toNat ++ "\x7d"

def quoted (s : String) : String :=
  "\"" ++ String.join (s.toList.map escape) ++ "\""

private def upperHexDigit (n : Nat) : Char :=
  if n < 10 then Char.ofNat (48 + n) else Char.ofNat (55 + n)

private def escapeByte (b : UInt8) : String :=
  "\\x" ++ String.ofList [upperHexDigit (b.toNat / 16), upperHexDigit (b.toNat % 16)]

private def escapePiece : Utf8.Piece → String
  | .scalar c => escape c
  | .broken bytes => String.join (bytes.map escapeByte)

def quotedBytes (bytes : List UInt8) : String :=
  "\"" ++ String.join ((Utf8.pieces bytes).map escapePiece) ++ "\""

end EmbeddedC.Text
