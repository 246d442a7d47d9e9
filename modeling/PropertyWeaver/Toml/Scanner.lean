/-!
# Scanning TOML text

A scanner takes characters off the front of a text or fails. An alternative that fails leaves the
text to the next one.
-/

set_option autoImplicit false

namespace PropertyWeaver.Toml

abbrev Scanner := StateT (List Char) Option

namespace Scanner

def one (accepts : Char → Bool) : Scanner Char := fun text =>
  match text with
  | c :: rest => if accepts c then some (c, rest) else none
  | [] => none

def char (c : Char) : Scanner Unit := do
  let _ ← one (· = c)

def literal (expected : List Char) : Scanner Unit := expected.forM char

def run (accepts : Char → Bool) : Scanner (List Char) := fun text =>
  some (text.takeWhile accepts, text.dropWhile accepts)

def run1 (accepts : Char → Bool) : Scanner (List Char) := do
  let first ← one accepts
  return first :: (← run accepts)

def atEnd : Scanner Unit := fun text => if text.isEmpty then some ((), text) else none

def rest : Scanner (List Char) := get

def perhaps {α : Type} (item : Scanner α) : Scanner (Option α) :=
  (some <$> item) <|> pure none

def manyUpTo {α : Type} (item : Scanner α) : (limit : Nat) → Scanner (List α)
  | 0 => return []
  | limit + 1 => do
      match ← perhaps item with
      | some first => return first :: (← manyUpTo item limit)
      | none => return []

/-- Items until one fails. Each item is expected to take a character, so the length of the text
bounds their number. -/
def many {α : Type} (item : Scanner α) : Scanner (List α) := do
  manyUpTo item (← rest).length

def separated1 {α : Type} (item : Scanner α) (separator : Scanner Unit) : Scanner (List α) := do
  let first ← item
  return first :: (← many (do separator; item))

def separated {α : Type} (item : Scanner α) (separator : Scanner Unit) : Scanner (List α) :=
  separated1 item separator <|> pure []

/-- The text that an item takes. -/
def spelling {α : Type} (item : Scanner α) : Scanner (List Char) := do
  let before ← rest
  let _ ← item
  let after ← rest
  return before.take (before.length - after.length)

/-! ## Blanks -/

def isBlank (c : Char) : Bool := c = ' ' || c = '\t'

/-- Characters that may stand in comments and strings: the tab and all but controls. -/
def isPrintable (c : Char) : Bool :=
  c = '\t' || (0x20 ≤ c.toNat && c.toNat != 0x7F)

def blanks : Scanner Unit := do
  let _ ← run isBlank

def newline : Scanner Unit := literal ['\n'] <|> literal ['\r', '\n']

def comment : Scanner Unit := do
  char '#'
  let _ ← run isPrintable

def lineEnd : Scanner Unit := do
  blanks
  let _ ← perhaps comment
  newline <|> atEnd

def blankLines : Scanner Unit := do
  let blank : Scanner Unit := do
    let _ ← run1 isBlank
  let line : Scanner Unit := do
    let _ ← perhaps comment
    newline
  let _ ← many (blank <|> line)

end Scanner

end PropertyWeaver.Toml
