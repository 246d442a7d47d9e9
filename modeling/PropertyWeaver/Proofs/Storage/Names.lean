import PropertyWeaver.Proofs.Metadata.References
import PropertyWeaver.Proofs.Storage.Loading

/-!
# Names of modules at hand

A module that is registered is at hand under its own name, and one that has been read under the name
that was asked for. The two agree unless a file holds a module of another name. Where they agree, a type
that has been found is found again by what the target writes for it.
-/

set_option autoImplicit false

namespace PropertyWeaver

namespace Resolver

/-- A resolver that calls have made of the empty one. The files that a call may read are listed, those of
the last call first. -/
inductive Reached : List FileSystem → Resolver → Prop where
  | empty : Reached [] .empty
  | addSearchPath {history : List FileSystem} {resolver : Resolver} (path : String) :
      Reached history resolver → Reached history (resolver.addSearchPath path)
  | register {history : List FileSystem} {resolver : Resolver} (module : Module) :
      Reached history resolver → Reached history (resolver.register module)
  | load {history : List FileSystem} {resolver after : Resolver} {files : FileSystem} {name : String}
      {module : Module} : Reached history resolver →
      resolver.load files name = .ok (module, after) → Reached (files :: history) after
  | preload {history : List FileSystem} {resolver : Resolver} (files : FileSystem) (target : Module)
      (configuration : Configuration) : Reached history resolver →
      Reached (files :: history) (resolver.preload files target configuration).2

variable {history : List FileSystem} {resolver after : Resolver} {files : FileSystem}
  {name : String} {module : Module}

/-- A module that some call may have read for a name. -/
def Reads (history : List FileSystem) (resolver : Resolver) (name : String) (module : Module) : Prop :=
  ∃ files ∈ history, ∃ path ∈ resolver.candidates name, files.readModule path = .ok module

/-- Every module is at hand under its own name or under a name for which it may have been read. -/
def Accounts (history : List FileSystem) (resolver : Resolver) : Prop :=
  ∀ name module, resolver.find? name = some module →
    module.name = name ∨ resolver.Reads history name module

private theorem Reads.weaken {history' : List FileSystem} {resolver' : Resolver}
    (read : resolver.Reads history name module) (calls : history ⊆ history')
    (directories : resolver.searchPaths ⊆ resolver'.searchPaths) :
    resolver'.Reads history' name module := by
  obtain ⟨files, seen, path, candidate, holds⟩ := read
  exact ⟨files, calls seen, path, List.map_subset _ directories candidate, holds⟩

private theorem Accounts.weaken {history' : List FileSystem} (accounts : resolver.Accounts history)
    (calls : history ⊆ history') : resolver.Accounts history' :=
  fun name module found =>
    (accounts name module found).imp_right fun read => read.weaken calls (List.Subset.refl _)

private theorem Accounts.load (accounts : resolver.Accounts history) (seen : files ∈ history)
    (loaded : resolver.load files name = .ok (module, after)) : after.Accounts history := by
  rcases load_eq_ok.mp loaded with ⟨-, rfl⟩ | ⟨-, path, located, read, rfl⟩
  · exact accounts
  · intro other stored found
    rw [find?_insert] at found
    split at found
    · next same =>
      subst same
      obtain rfl := Option.some.inj found
      exact .inr ⟨files, seen, path, mem_candidates_of_locate located, read⟩
    · exact accounts other stored found

private theorem Reached.accounts
    (reached : resolver.Reached history) : resolver.Accounts history := by
  induction reached with
  | empty =>
      intro name module found
      cases found
  | addSearchPath path _ hypothesis =>
      intro name module found
      exact (hypothesis name module found).imp_right fun read =>
        read.weaken (List.Subset.refl _) (List.subset_append_left ..)
  | @register _ resolver module _ hypothesis =>
      intro name stored found
      rw [Resolver.register, find?_insert] at found
      split at found
      · next same =>
        obtain rfl := Option.some.inj found
        exact .inl same.symm
      · exact hypothesis name stored found
  | load _ loaded hypothesis =>
      exact (hypothesis.weaken (List.subset_cons_self ..)).load List.mem_cons_self loaded
  | preload files target configuration _ hypothesis =>
      exact loadAll_preserves (fun accounts loaded => accounts.load List.mem_cons_self loaded)
        target.name _ _ _ (hypothesis.weaken (List.subset_cons_self ..))

end Resolver

/-- If a call finds under each name at hand only modules of that name, every module is at hand under its
own name, and every type that has been found is found again by its scope and name and by its signature. -/
theorem Resolver.Reached.names_agree {history : List FileSystem} {resolver : Resolver}
    (reached : resolver.Reached history)
    (named : ∀ name module, resolver.isLoaded name = true → resolver.Reads history name module →
      module.name = name) :
    resolver.OwnNames ∧
    ∀ (target : Module) (coreModule : String) (type : LocatedType),
      (∃ scope fullName, Metadata.findType? ⟨target, resolver, coreModule⟩ scope fullName = some type) ∨
        (∃ derived, Metadata.base? ⟨target, resolver, coreModule⟩ derived = some type) →
      Metadata.findType? ⟨target, resolver, coreModule⟩ type.scope type.fullName = some type ∧
        Metadata.resolveSig? ⟨target, resolver, coreModule⟩ none type.sig = some type := by
  have names : resolver.OwnNames := by
    intro name module found
    rcases reached.accounts name module found with own | read
    · exact own
    · exact named name module (Option.isSome_of_mem found) read
  refine ⟨names, fun target coreModule type found => ?_⟩
  have again : Metadata.Finds ⟨target, resolver, coreModule⟩ type := by
    rcases found with ⟨scope, fullName, located⟩ | ⟨derived, base⟩
    · exact Metadata.finds_of_findType? names located
    · obtain ⟨sig, -, resolved⟩ := Option.bind_eq_some_iff.mp base
      exact Metadata.finds_of_resolveSig? names resolved
  exact ⟨Metadata.finds_iff.mp again, again⟩

/-! A library of one type, in a file of its name and in a file of another one. -/

def gadgetType : TypeDef := ⟨"Demo", "Gadget", 0, none, [], [], [], [], []⟩

def gadgetModule (name : String) : Module :=
  ⟨Module.expectedMagic, Module.expectedVersion, 0, name, [], [gadgetType], []⟩

def storedGadgetModule (name : String) : Module :=
  { gadgetModule name with checksum := Digest.sha256 (gadgetModule name).payload }

def gadgetFiles (name : String) : FileSystem :=
  FileSystem.empty.create ["lib", "Lib.swm"] (.file (gadgetModule name).encode)

def gadgetResolver (name : String) : Resolver :=
  (Resolver.empty.addSearchPath "lib").insert "Lib" (storedGadgetModule name)

private theorem readModule_gadgetFiles :
    (gadgetFiles "Lib").readModule "lib/Lib.swm" = .ok (storedGadgetModule "Lib") ∧
      (gadgetFiles "Other").readModule "lib/Lib.swm" = .ok (storedGadgetModule "Other") := by
  decide +kernel

private theorem candidates_gadgetResolver :
    (Resolver.empty.addSearchPath "lib").candidates "Lib" = ["lib/Lib.swm"] := by
  decide +kernel

private theorem reached_gadgetResolver {name : String}
    (read : (gadgetFiles name).readModule "lib/Lib.swm" = .ok (storedGadgetModule name))
    (present : (gadgetFiles name).isFile "lib/Lib.swm" = true) :
    (gadgetResolver name).Reached [gadgetFiles name] := by
  refine .load (.addSearchPath "lib" .empty) (Resolver.load_eq_ok.mpr (.inr ⟨rfl, "lib/Lib.swm", ?_,
    read, rfl⟩))
  rw [Resolver.locate, candidates_gadgetResolver, List.find?_cons_of_pos present]

theorem names_agree_gadgetResolver :
    (gadgetResolver "Lib").OwnNames ∧
      Metadata.findType? ⟨gadgetModule "App", gadgetResolver "Lib", "Core"⟩ (some "Lib") "Demo.Gadget" =
        some ⟨gadgetType, some "Lib"⟩ ∧
      Metadata.resolveSig? ⟨gadgetModule "App", gadgetResolver "Lib", "Core"⟩ none
        (LocatedType.sig ⟨gadgetType, some "Lib"⟩) = some ⟨gadgetType, some "Lib"⟩ := by
  have read := readModule_gadgetFiles.1
  have reached := reached_gadgetResolver read (by decide +kernel)
  have named : ∀ name module, (gadgetResolver "Lib").isLoaded name = true →
      (gadgetResolver "Lib").Reads [gadgetFiles "Lib"] name module → module.name = name := by
    rintro name module loaded ⟨files, seen, path, candidate, holds⟩
    obtain rfl := List.mem_singleton.mp seen
    rw [Resolver.isLoaded, gadgetResolver, Resolver.find?_insert] at loaded
    split at loaded
    · next same =>
      subst same
      change path ∈ (Resolver.empty.addSearchPath "lib").candidates "Lib" at candidate
      rw [candidates_gadgetResolver] at candidate
      obtain rfl := List.mem_singleton.mp candidate
      obtain rfl := Except.ok.inj (read.symm.trans holds)
      rfl
    · cases loaded
  obtain ⟨own, again⟩ := reached.names_agree named
  have found : Metadata.findType? ⟨gadgetModule "App", gadgetResolver "Lib", "Core"⟩ (some "Lib")
      "Demo.Gadget" = some ⟨gadgetType, some "Lib"⟩ := by decide
  exact ⟨own, found, (again _ _ _ (.inl ⟨_, _, found⟩)).2⟩

/-- A file may hold a module of another name than its own. The type that is found there is not found by
what the target writes for it. -/
theorem Resolver.Reached.names_differ :
    ∃ history resolver, resolver.Reached history ∧ ¬ resolver.OwnNames ∧
      ∃ type, Metadata.findType? ⟨gadgetModule "App", resolver, "Core"⟩ (some "Lib") "Demo.Gadget" =
          some type ∧
        Metadata.findType? ⟨gadgetModule "App", resolver, "Core"⟩ type.scope type.fullName = none ∧
        Metadata.resolveSig? ⟨gadgetModule "App", resolver, "Core"⟩ none type.sig = none := by
  refine ⟨[gadgetFiles "Other"], gadgetResolver "Other",
    reached_gadgetResolver readModule_gadgetFiles.2 (by decide +kernel), fun names => ?_,
    ⟨gadgetType, some "Other"⟩, by decide, by decide, by decide⟩
  have stored : (gadgetResolver "Other").find? "Lib" = some (storedGadgetModule "Other") := rfl
  exact absurd (names "Lib" _ stored) (by decide)

end PropertyWeaver
