import PropertyWeaver.Toml.Number

/-!
# TOML documents

A document is read line by line into a tree of tables. Keys may be defined once only, tables may not
be defined again, and the text has to be read to its end.
-/

set_option autoImplicit false

namespace PropertyWeaver.Toml

open Scanner

def boolean : Scanner Value :=
  (do literal "true".toList; return .boolean true) <|>
    (do literal "false".toList; return .boolean false)

/-- A list of values in brackets, over any number of lines, perhaps with a comma at the end. -/
def array (item : Scanner Value) : Scanner Value := do
  char '['
  let items ← separated (do blankLines; let value ← item; blankLines; return value) (char ',')
  if !items.isEmpty then
    let _ ← perhaps (char ',')
  blankLines
  char ']'
  return .array items

/-- A key, an equals sign and a value. The key is split into its path and its last part. -/
def keyValue (item : Scanner Value) : Scanner (List String × String × Value) := do
  let key ← dottedKey
  char '='
  blanks
  let value ← item
  return (key.dropLast, key.getLastD "", value)

def inlineTable (item : Scanner Value) : Scanner Value := do
  char '\x7b'
  let pairs ← separated (do let pair ← keyValue item; blanks; return pair) (char ',')
  blanks
  char '\x7d'
  let entries ← StateT.lift (pairs.foldlM
    (fun entries (path, key, value) => Entries.insert path key value .defined entries)
    ([] : Entries))
  return .table (entriesToValues entries)

/-- A value in which arrays and tables nest at most `depth` deep. -/
def nestedValue (depth : Nat) : Scanner Value :=
  let scalar := (do return .string (← anyString)) <|> boolean <|> number
  match depth with
  | 0 => scalar
  | depth + 1 => scalar <|> array (nestedValue depth) <|> inlineTable (nestedValue depth)

def value : Scanner Value := nestedValue (nestingLimit - 1)

inductive Line where
  | blank
  | header (key : List String)
  | elementHeader (key : List String)
  | entry (path : List String) (key : String) (value : Value)
  deriving Inhabited

def line : Scanner Line := do
  blanks
  match ← rest with
  | '#' :: _ => do
      lineEnd
      return .blank
  | '\n' :: _ | '\r' :: _ => do
      newline
      return .blank
  | '[' :: '[' :: _ => do
      literal ['[', '[']
      let key ← dottedKey
      literal [']', ']']
      lineEnd
      return .elementHeader key
  | '[' :: _ => do
      char '['
      let key ← dottedKey
      char ']'
      lineEnd
      return .header key
  | _ => do
      let (path, key, value) ← keyValue value
      lineEnd
      return .entry path key value

/-- All lines, up to the end of the text. A byte order mark in front does not count. -/
def lines : Scanner (List Line) := do
  let _ ← perhaps (char '\ufeff')
  let lines ← many line
  blanks
  atEnd
  return lines

/-- An unfinished document: the root table and the path of the table that entries go to. -/
structure Document where
  root : Entries
  current : List String
  deriving Inhabited

namespace Document

def add (document : Document) : Line → Option Document
  | .blank => some document
  | .header key => do
      let root ← Entries.modify false (Entries.defineTable (key.getLastD "")) key.dropLast
        .defined document.root
      return ⟨root, key⟩
  | .elementHeader key => do
      let root ← Entries.modify false (Entries.defineElement (key.getLastD "")) key.dropLast
        .defined document.root
      return ⟨root, key⟩
  | .entry path key value => do
      let root ← Entries.modify false (Entries.insert path key value) document.current .defined
        document.root
      return { document with root := root }

end Document

/-- The root table of a document; `none` if the text is not a TOML document. -/
def parse? (text : String) : Option Value := do
  let (lines, _) ← StateT.run lines text.toList
  let document ← lines.foldlM Document.add ⟨[], []⟩
  return .table (entriesToValues document.root)

end PropertyWeaver.Toml
