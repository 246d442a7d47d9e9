import PropertyWeaver.Image.Bytes

/-!
# Files

A file system is a finite table of the files and directories below the working directory, named by
the components of their paths. The directories that enclose the working directory are known to be
directories and no more.
Writing a file and renaming one can fail: for the reasons that the table shows, and for any further
path that `failingWrites` or `failingRenames` names. A failed operation that changes nothing says so in
its equations.
-/

set_option autoImplicit false

namespace PropertyWeaver

inductive FileFault where
  | noSuchFile
  | notDirectory
  | isDirectory
  | noSpace
  deriving DecidableEq, Repr

def FileFault.message : FileFault → String
  | .noSuchFile => "No such file or directory (os error 2)"
  | .notDirectory => "Not a directory (os error 20)"
  | .isDirectory => "Is a directory (os error 21)"
  | .noSpace => "No space left on device (os error 28)"

/-- Components of a path below the working directory. -/
abbrev Path := List String

namespace Path

def splitSlashes : List Char → List (List Char)
  | [] => [[]]
  | c :: rest =>
      match splitSlashes rest with
      | [] => [[c]]
      | first :: others => if c = '/' then [] :: first :: others else (c :: first) :: others

/-- The components of a text, empty ones and dots included. -/
def components (text : String) : List String :=
  (splitSlashes text.toList).map String.ofList

/-- The path that a text without double dots names. -/
def ofText (text : String) : Path :=
  (components text).filter fun component => component ≠ "" ∧ component ≠ "."

/-- A name inside a directory. An empty directory text adds nothing, and a name from the root of all
directories stands for itself. -/
def join (directory name : String) : String :=
  if name.startsWith "/" || directory.isEmpty then name
  else if directory.endsWith "/" then directory ++ name
  else directory ++ "/" ++ name

def splitName (text : String) : String × String :=
  match (splitSlashes text.toList).reverse with
  | [] => ("", "")
  | name :: parents =>
      let kept := (parents.dropWhile fun part => part = [] || part = ['.']).reverse
      let leading := if kept.isEmpty && parents.getLast? = some ['.'] then [['.']] else kept
      ("/".intercalate (leading.map String.ofList), String.ofList name)

def sibling (text suffix : String) : String :=
  let (parent, name) := splitName text
  join parent (name ++ suffix)

/-- Whether a name comes before another: by the code points of their first different characters. -/
def nameBefore (left right : String) : Bool :=
  List.lex left.toList right.toList fun c d => c.toNat < d.toNat

def before (left right : Path) : Bool :=
  List.lex left right nameBefore

end Path

/-- Where the components of a text lead: to a path below the working directory, or to a directory
that encloses the working directory. -/
inductive Place where
  | enclosing
  | within (path : Path)
  deriving DecidableEq, Repr

inductive FileEntry where
  | file (content : Bytes)
  | directory
  deriving DecidableEq

/-- The bytes of a file; a directory has none. -/
def FileEntry.content : FileEntry → Bytes
  | .file content => content
  | .directory => []

/-- Files and directories, with the paths at which writing or renaming fails beyond what the table
itself forbids. A write that fails for want of space leaves the first part of the content. -/
structure FileSystem where
  entries : List (Path × FileEntry)
  failingWrites : List (Path × Nat)
  failingRenames : List Path
  deriving DecidableEq

namespace FileSystem

def empty : FileSystem := ⟨[], [], []⟩

/-- What is at a path. The working directory itself is always there. -/
def entry? (files : FileSystem) (path : Path) : Option FileEntry :=
  if path = [] then some .directory else files.entries.lookup path

/-- What is at a place. Outside the working directory only the directories that enclose it are
known. -/
def entryAt? (files : FileSystem) : Place → Option FileEntry
  | .enclosing => some .directory
  | .within path => files.entry? path

def put (files : FileSystem) (path : Path) (entry : FileEntry) : FileSystem :=
  { files with entries := (path, entry) :: files.entries.filter fun (known, _) => known ≠ path }

def remove (files : FileSystem) (path : Path) : FileSystem :=
  { files with entries := files.entries.filter fun (known, _) => known ≠ path }

/-- Puts an entry at a path and makes the directories above it. -/
def create (files : FileSystem) (path : Path) (entry : FileEntry) : FileSystem :=
  let parents := (List.range path.length).map path.take
  (parents.foldl
    (fun files parent =>
      if (files.entry? parent).isSome then files else files.put parent .directory)
    files).put path entry

/-- Where components lead from a place. Empty components and single dots stay there, two dots go up,
and the directory above the outermost one is that directory itself. A component can only be followed
from a directory, and a name is not known in a directory that encloses the working directory. -/
def follow (files : FileSystem) (place : Place) :
    (components : List String) → Except FileFault Place
  | [] => .ok place
  | component :: rest =>
      match files.entryAt? place with
      | none => .error .noSuchFile
      | some (.file _) => .error .notDirectory
      | some .directory =>
          if component = "" ∨ component = "." then files.follow place rest
          else
            match place with
            | .enclosing =>
                if component = ".." then files.follow .enclosing rest else .error .noSuchFile
            | .within path =>
                if component ≠ ".." then files.follow (.within (path ++ [component])) rest
                else if path = [] then files.follow .enclosing rest
                else files.follow (.within path.dropLast) rest

/-- The place that a text names; what is there may be missing, but the directory above is not. The
empty text names nothing, and a text that begins with a slash is followed from the root of all
directories. -/
def locate (files : FileSystem) (text : String) : Except FileFault Place :=
  if text.isEmpty then .error .noSuchFile
  else
    files.follow (if text.startsWith "/" then .enclosing else .within []) (Path.components text)

def read (files : FileSystem) (text : String) : Except FileFault Bytes := do
  match files.entryAt? (← files.locate text) with
  | some (.file content) => return content
  | some .directory => throw .isDirectory
  | none => throw .noSuchFile

def isFile (files : FileSystem) (text : String) : Bool :=
  match files.read text with
  | .ok _ => true
  | .error _ => false

/-- Writes a file, which need not exist but whose directory must. -/
def write (files : FileSystem) (text : String) (content : Bytes) :
    Except FileFault Unit × FileSystem :=
  match files.locate text with
  | .error fault => (.error fault, files)
  | .ok .enclosing => (.error .isDirectory, files)
  | .ok (.within path) =>
      if files.entry? path = some .directory then
        (.error .isDirectory, files)
      else
        match files.failingWrites.lookup path with
        | some written => (.error .noSpace, files.put path (.file (content.take written)))
        | none => (.ok (), files.put path (.file content))

/-- Moves a file over another one. A failed move changes nothing. -/
def rename (files : FileSystem) (source target : String) : Except FileFault Unit × FileSystem :=
  match files.locate source, files.locate target with
  | .ok (.within source), .ok (.within target) =>
      match files.entry? source with
      | some (.file content) =>
          if files.entry? target = some .directory then
            (.error .isDirectory, files)
          else if target ∈ files.failingRenames then
            (.error .noSpace, files)
          else
            (.ok (), (files.remove source).put target (.file content))
      | _ => (.error .noSuchFile, files)
  | .error fault, _ | _, .error fault => (.error fault, files)
  | .ok _, .ok _ => (.error .isDirectory, files)

/-- Every entry, sorted by path, each directory right before its content. -/
def listing (files : FileSystem) : List (Path × FileEntry) :=
  files.entries.mergeSort fun left right => !Path.before right.1 left.1

end FileSystem

end PropertyWeaver
