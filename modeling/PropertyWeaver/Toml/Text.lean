import PropertyWeaver.Toml.Scanner

/-!
# TOML strings and keys

Basic strings know escapes, literal strings do not; both have a form over several lines.
-/

set_option autoImplicit false

namespace PropertyWeaver.Toml

open Scanner

def hexDigit? (c : Char) : Option Nat :=
  if '0' ≤ c ∧ c ≤ '9' then some (c.toNat - '0'.toNat)
  else if 'a' ≤ c ∧ c ≤ 'f' then some (c.toNat - 'a'.toNat + 10)
  else if 'A' ≤ c ∧ c ≤ 'F' then some (c.toNat - 'A'.toNat + 10)
  else none

/-- The character with a code point of exactly `digits` hexadecimal digits. Surrogates and numbers
beyond the code space are refused. -/
def codePoint (digits : Nat) : Scanner Char := do
  let spelled ← (List.range digits).mapM fun _ => one (fun c => (hexDigit? c).isSome)
  let n := spelled.foldl (fun n c => 16 * n + (hexDigit? c).getD 0) 0
  if n.isValidChar then return Char.ofNat n else failure

def escaped : Scanner Char := do
  char '\\'
  let c ← one fun _ => true
  match c with
  | 'b' => return '\x08'
  | 't' => return '\t'
  | 'n' => return '\n'
  | 'f' => return '\x0c'
  | 'r' => return '\r'
  | '"' => return '"'
  | '\\' => return '\\'
  | 'u' => codePoint 4
  | 'U' => codePoint 8
  | _ => failure

def basicString : Scanner String := do
  char '"'
  let plain := one fun c => isPrintable c && c != '"' && c != '\\'
  let content ← many (plain <|> escaped)
  char '"'
  return String.ofList content

def literalString : Scanner String := do
  char '\''
  let content ← run fun c => isPrintable c && c != '\''
  char '\''
  return String.ofList content

/-- A backslash before a line end: it and all blanks up to the next text vanish. -/
def lineContinuation : Scanner (List Char) := do
  char '\\'
  blanks
  newline
  let blank : Scanner Unit := do
    let _ ← run1 isBlank
  let _ ← many (newline <|> blank)
  return []

/-- A quote that does not begin a run of three. -/
def loneQuote (quote : Char) : Scanner (List Char) := do
  if (← rest).take 3 = [quote, quote, quote] then
    failure
  else
    char quote
    return [quote]

/-- A string between runs of three quotes. A line end right after the opening run does not count,
and up to two quotes may stand before the closing run. -/
def multiline (quote : Char) (piece : Scanner (List Char)) : Scanner String := do
  let fence := [quote, quote, quote]
  literal fence
  let _ ← perhaps newline
  let content ← many (piece <|> loneQuote quote)
  let run := (← rest).takeWhile (· = quote)
  let extra := List.replicate (min 2 (run.length - 3)) quote
  literal (extra ++ fence)
  return String.ofList (content.flatten ++ extra)

/-- A line end inside a string, which always counts as a line feed. -/
def lineFeed : Scanner (List Char) := do
  newline
  return ['\n']

def multilineBasicString : Scanner String :=
  let plain := do return [← one fun c => isPrintable c && c != '"' && c != '\\']
  multiline '"' (plain <|> lineFeed <|> lineContinuation <|> (do return [← escaped]))

def multilineLiteralString : Scanner String :=
  let plain := do return [← one fun c => isPrintable c && c != '\'']
  multiline '\'' (plain <|> lineFeed)

def anyString : Scanner String :=
  multilineBasicString <|> basicString <|> multilineLiteralString <|> literalString

def isBareKeyChar (c : Char) : Bool := c.isAlphanum || c = '-' || c = '_'

/-- One part of a key, in quotes or bare. Only the quoted forms may be empty. -/
def simpleKey : Scanner String := do
  match (← rest).head? with
  | some '"' => basicString
  | some '\'' => literalString
  | _ => return String.ofList (← run1 isBareKeyChar)

/-- Values and keys that nest this deep are refused. -/
def nestingLimit : Nat := 80

/-- A key of parts joined by dots. Blanks may stand around each part. -/
def dottedKey : Scanner (List String) := do
  let part : Scanner String := do
    blanks
    let key ← simpleKey
    blanks
    return key
  let parts ← separated1 part (char '.')
  if parts.length < nestingLimit then return parts else failure

end PropertyWeaver.Toml
