import PropertyWeaver.Configuration.Basic
import PropertyWeaver.Image.Basic
import PropertyWeaver.Storage.FileSystem

/-!
# Finding modules

A resolver holds the modules that a target refers to. They are registered in memory or read from the
search directories, where the module `name` is the file `name.swm`.
-/

set_option autoImplicit false

namespace PropertyWeaver

inductive StorageError where
  | moduleNotFound (name : String) (searched : List String)
  | image (error : ImageError)
  | file (path : String) (fault : FileFault)
  deriving DecidableEq, Repr

def StorageError.message : StorageError → String
  | .moduleNotFound name searched =>
      "module " ++ name ++ " not found (searched: " ++
        Text.bracketed (searched.map Text.quoted) ++ ")"
  | .image error => "module error: " ++ error.message
  | .file path fault => path ++ ": " ++ fault.message

/-! ## Module files -/

def FileSystem.readModule (files : FileSystem) (path : String) : Except StorageError Module :=
  match files.read path with
  | .error fault => .error (.file path fault)
  | .ok image => (Module.decode image).mapError .image

/-- Writes a module over a file: first to a file next to it, which then replaces it. The file keeps
its content unless both steps succeed. -/
def FileSystem.saveModule (files : FileSystem) (path : String) (module : Module) :
    Except StorageError Unit × FileSystem :=
  let draft := Path.sibling path ".tmp"
  match files.write draft module.encode with
  | (.error fault, files) => (.error (.file draft fault), files)
  | (.ok (), files) =>
      match files.rename draft path with
      | (.error fault, files) => (.error (.file path fault), files)
      | (.ok (), files) => (.ok (), files)

/-! ## Resolver -/

/-- The search directories, and the modules at hand by the name under which they are found. -/
structure Resolver where
  searchPaths : List String
  modules : List (String × Module)
  deriving DecidableEq

namespace Resolver

def empty : Resolver := ⟨[], []⟩

def addSearchPath (resolver : Resolver) (path : String) : Resolver :=
  { resolver with searchPaths := resolver.searchPaths ++ [path] }

def find? (resolver : Resolver) (name : String) : Option Module :=
  resolver.modules.lookup name

def insert (resolver : Resolver) (name : String) (module : Module) : Resolver :=
  { resolver with
    modules := (name, module) :: resolver.modules.filter fun (known, _) => known ≠ name }

def register (resolver : Resolver) (module : Module) : Resolver :=
  resolver.insert module.name module

def isLoaded (resolver : Resolver) (name : String) : Bool :=
  (resolver.find? name).isSome

/-- The files in which a module may be, in the order in which they are tried. -/
def candidates (resolver : Resolver) (name : String) : List String :=
  resolver.searchPaths.map fun directory => Path.join directory (name ++ ".swm")

def locate (resolver : Resolver) (files : FileSystem) (name : String) :
    Except StorageError String :=
  match (resolver.candidates name).find? files.isFile with
  | some path => .ok path
  | none => .error (.moduleNotFound name resolver.searchPaths)

/-- The module under a name, read from its file if it is not at hand. A module that was read is kept
under the name that was asked for. -/
def load (resolver : Resolver) (files : FileSystem) (name : String) :
    Except StorageError (Module × Resolver) :=
  match resolver.find? name with
  | some module => .ok (module, resolver)
  | none => do
      let path ← resolver.locate files name
      let module ← files.readModule path
      return (module, resolver.insert name module)

/-! ## Loading what a target needs -/

/-- A bound on the number of references that the modules at hand and in the files can hold. A
reference in an image takes at least one byte. -/
def referenceBound (resolver : Resolver) (files : FileSystem) : Nat :=
  (resolver.modules.flatMap fun (_, module) => module.references).length +
    (files.entries.flatMap fun (_, entry) => entry.content).length

/-- Loads the pending modules and all they refer to, the last pending name first. A name is loaded
once, and the target itself not at all. After an error the modules loaded before it are kept.
`budget` bounds the number of names taken. -/
def loadAll (files : FileSystem) (target : String) :
    (budget : Nat) → (pending seen : List String) → Resolver → Except StorageError Unit × Resolver
  | 0, _, _, resolver => (.ok (), resolver)
  | budget + 1, pending, seen, resolver =>
      match pending with
      | [] => (.ok (), resolver)
      | name :: pending =>
          if name = target ∨ name ∈ seen then
            loadAll files target budget pending seen resolver
          else
            match resolver.load files name with
            | .error error => (.error error, resolver)
            | .ok (module, resolver) =>
                loadAll files target budget (module.references.reverse ++ pending) (name :: seen)
                  resolver

/-- Loads every module that a target needs: the core module, the runtime module, the modules it
refers to and the modules those refer to. Each name that is taken for the first time adds the
references of one module, which bounds the number of names. -/
def preload (resolver : Resolver) (files : FileSystem) (target : Module)
    (configuration : Configuration) : Except StorageError Unit × Resolver :=
  let runtime := configuration.runtime
  let pending := runtime.coreModule :: runtime.module :: target.references.reverse
  let names := pending.length + resolver.referenceBound files
  loadAll files target.name (names + names * names) pending [] resolver

end Resolver

end PropertyWeaver
