/-!
# TOML values

A TOML document is a tree of tables. While it is read, a table remembers how it came to be, because
that decides who may add to it: a header may complete a table that so far only stood on the path of
other headers, and a dotted key may extend only tables that headers or dotted keys have implied.
-/

set_option autoImplicit false

namespace PropertyWeaver.Toml

/-- A value. Floats and dates are kept as they are spelled. -/
inductive Value where
  | string (text : String)
  | integer (n : Int)
  | float (literal : String)
  | boolean (value : Bool)
  | dateTime (literal : String)
  | array (items : List Value)
  | table (entries : List (String × Value))
  deriving Inhabited

/-- How a table came to be: implied by the path of a header, implied by a dotted key, or defined by
a header of its own. The root counts as defined. -/
inductive Origin where
  | implied
  | dotted
  | defined
  deriving DecidableEq, Repr

inductive Item where
  | value (value : Value)
  | table (origin : Origin) (entries : List (String × Item))
  | tables (elements : List (List (String × Item)))
  deriving Inhabited

/-- The keys of an unfinished table, in the order in which they appeared. -/
abbrev Entries := List (String × Item)

namespace Entries

def set (entries : Entries) (key : String) (item : Item) : Entries :=
  match entries with
  | [] => [(key, item)]
  | (known, old) :: rest =>
      if known = key then (key, item) :: rest else (known, old) :: set rest key item

/-- Applies a change to the table at a path, creating the tables on the way. An array of tables
stands for its last element. A path of a dotted key may not enter a table that is already defined.
-/
def modify (dotted : Bool) (change : Origin → Entries → Option Entries) :
    (path : List String) → Origin → Entries → Option Entries
  | [], origin, entries => change origin entries
  | key :: path, _, entries =>
      match entries.lookup key with
      | none => do
          let origin := if dotted then .dotted else .implied
          let inner ← modify dotted change path origin []
          return set entries key (.table origin inner)
      | some (.value _) => none
      | some (.table origin inner) =>
          if dotted && origin = .defined then none
          else do
            let inner ← modify dotted change path origin inner
            return set entries key (.table origin inner)
      | some (.tables elements) => do
          let inner ← modify dotted change path .defined (elements.getLastD [])
          return set entries key (.tables (elements.dropLast ++ [inner]))

/-- Adds a new key. The last table on the path of a dotted key has to be implied by dotted keys. -/
def insertLast (isDotted : Bool) (key : String) (value : Value) (origin : Origin)
    (entries : Entries) : Option Entries :=
  if isDotted != (origin = .dotted : Bool) then none
  else if (entries.lookup key).isSome then none
  else some (set entries key (.value value))

def insert (path : List String) (key : String) (value : Value) :
    Origin → Entries → Option Entries :=
  modify true (insertLast (!path.isEmpty) key value) path

/-- Defines a table by its header. A table that is only implied by headers keeps its keys. -/
def defineTable (key : String) (_ : Origin) (entries : Entries) : Option Entries :=
  match entries.lookup key with
  | none => some (set entries key (.table .defined []))
  | some (.table .implied inner) => some (set entries key (.table .defined inner))
  | some _ => none

def defineElement (key : String) (_ : Origin) (entries : Entries) : Option Entries :=
  match entries.lookup key with
  | none => some (set entries key (.tables [[]]))
  | some (.tables elements) => some (set entries key (.tables (elements ++ [[]])))
  | some _ => none

end Entries

mutual

def Item.toValue : Item → Value
  | .value value => value
  | .table _ entries => .table (entriesToValues entries)
  | .tables elements => .array (elementsToValues elements)

def entriesToValues : List (String × Item) → List (String × Value)
  | [] => []
  | (key, item) :: rest => (key, item.toValue) :: entriesToValues rest

def elementsToValues : List (List (String × Item)) → List Value
  | [] => []
  | entries :: rest => .table (entriesToValues entries) :: elementsToValues rest

end

end PropertyWeaver.Toml
