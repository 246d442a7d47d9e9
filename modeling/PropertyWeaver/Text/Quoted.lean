import PropertyWeaver.Text.Invisible

/-!
# Quoted text

A quoted text stands between double quotes. Control characters with a short name, the backslash and
the quote are escaped by a backslash, and every other character without a visible shape is written
as its code point.
-/

set_option autoImplicit false

namespace PropertyWeaver.Text

def hex (n : Nat) : String :=
  String.ofList (Nat.toDigits 16 n)

/-- Hexadecimal digits after the `0x` mark, padded with zeros to at least `width` digits. -/
def markedHex (width : Nat) (n : Nat) : String :=
  let digits := Nat.toDigits 16 n
  "0x" ++ String.ofList (List.replicate (width - digits.length) '0' ++ digits)

/-- Decimal digits padded with zeros to at least `width` digits. -/
def paddedDecimal (width : Nat) (n : Nat) : String :=
  let digits := Nat.toDigits 10 n
  String.ofList (List.replicate (width - digits.length) '0' ++ digits)

def escape (c : Char) : String :=
  match c with
  | '\x00' => "\\0"
  | '\t' => "\\t"
  | '\r' => "\\r"
  | '\n' => "\\n"
  | '\\' => "\\\\"
  | '"' => "\\\""
  | c => if isInvisible c then "\\u\x7b" ++ hex c.toNat ++ "\x7d" else c.toString

/-- A text between double quotes, as listings show a string and messages a file path. -/
def quoted (text : String) : String :=
  "\"" ++ String.join (text.toList.map escape) ++ "\""

def bracketed (items : List String) : String :=
  "[" ++ ", ".intercalate items ++ "]"

end PropertyWeaver.Text
