import Mathlib.Data.List.Perm.Subperm
import PropertyWeaver.Proofs.Image.Bounds
import PropertyWeaver.Proofs.Storage.Files

/-!
# Preloading as a closure

A preload that succeeds leaves every module at hand that the target refers to, directly or through other
modules. Its budget does not run out: each name is taken once, and each time at most all references that
there are become pending. A preload for which everything is at hand loads nothing.
-/

set_option autoImplicit false

namespace PropertyWeaver

namespace Resolver

variable {files : FileSystem} {target name : String} {names pending seen : List String}
  {resolver after : Resolver} {module : Module}

/-- Every known name but the target's has a module at hand, which refers to known names alone. -/
def Covers (resolver : Resolver) (target : String) (known : String → Prop) : Prop :=
  ∀ name, known name → name ≠ target → ∃ module, resolver.find? name = some module ∧
    ∀ reference ∈ module.references, known reference

/-- What modules at hand and in files refer to comes from a list of names. -/
structure Draws (files : FileSystem) (names : List String) (resolver : Resolver) : Prop where
  stored : ∀ name module, resolver.find? name = some module → module.references.Sublist names
  files : ∀ path module, files.readModule path = .ok module → module.references.Sublist names

private theorem Draws.load (draws : resolver.Draws files names)
    (loaded : resolver.load files name = .ok (module, after)) :
    module.references.Sublist names ∧ after.Draws files names := by
  rcases load_eq_ok.mp loaded with ⟨here, rfl⟩ | ⟨-, path, -, read, rfl⟩
  · exact ⟨draws.stored name module here, draws⟩
  · have few := draws.files path module read
    refine ⟨few, fun other stored found => ?_, draws.files⟩
    rw [find?_insert] at found
    split at found
    · obtain rfl := Option.some.inj found
      exact few
    · exact draws.stored other stored found

/-- What holds while names are taken: they come from a list, each is taken once, and a name that has been
taken has a module at hand that refers to the target, to pending names and to names that have been
taken. -/
structure Walks (files : FileSystem) (names : List String) (target : String)
    (pending seen : List String) (resolver : Resolver) : Prop where
  draws : resolver.Draws files names
  listed : pending ⊆ names
  taken : seen ⊆ names
  once : seen.Nodup
  covered : ∀ name ∈ seen, ∃ module, resolver.find? name = some module ∧
    ∀ reference ∈ module.references, reference = target ∨ reference ∈ pending ∨ reference ∈ seen

/-- What the names cost that are pending or may become so. -/
def cost (names pending seen : List String) : Nat :=
  pending.length + (names.length - seen.length) * names.length

private theorem Walks.skip (walks : Walks files names target (name :: pending) seen resolver)
    (idle : name = target ∨ name ∈ seen) : Walks files names target pending seen resolver := by
  refine ⟨walks.draws, (List.cons_subset.mp walks.listed).2, walks.taken, walks.once, ?_⟩
  intro other member
  obtain ⟨module, found, refers⟩ := walks.covered other member
  refine ⟨module, found, fun reference named => ?_⟩
  rcases refers reference named with own | waits | done
  · exact .inl own
  · rcases List.mem_cons.mp waits with rfl | waits
    · exact idle.imp_right .inr
    · exact .inr (.inl waits)
  · exact .inr (.inr done)

private theorem Walks.take (walks : Walks files names target (name :: pending) seen resolver)
    (unseen : name ∉ seen) (loaded : resolver.load files name = .ok (module, after)) :
    Walks files names target (module.references.reverse ++ pending) (name :: seen) after := by
  obtain ⟨here, rest⟩ := List.cons_subset.mp walks.listed
  obtain ⟨few, draws⟩ := walks.draws.load loaded
  refine ⟨draws, List.append_subset.mpr ⟨fun reference named =>
    few.subset (List.mem_reverse.mp named), rest⟩, List.cons_subset.mpr ⟨here, walks.taken⟩,
    List.nodup_cons.mpr ⟨unseen, walks.once⟩, fun other member => ?_⟩
  rcases List.mem_cons.mp member with rfl | member
  · exact ⟨module, find?_of_load loaded, fun reference named =>
      .inr (.inl (List.mem_append_left _ (List.mem_reverse.mpr named)))⟩
  · obtain ⟨module', found, refers⟩ := walks.covered other member
    refine ⟨module', find?_load_of_some loaded found, fun reference named => ?_⟩
    rcases refers reference named with own | waits | done
    · exact .inl own
    · rcases List.mem_cons.mp waits with rfl | waits
      · exact .inr (.inr List.mem_cons_self)
      · exact .inr (.inl (List.mem_append_right _ waits))
    · exact .inr (.inr (List.mem_cons_of_mem _ done))

private theorem Walks.cost_take (walks : Walks files names target (name :: pending) seen resolver)
    (unseen : name ∉ seen) (loaded : resolver.load files name = .ok (module, after)) :
    cost names (module.references.reverse ++ pending) (name :: seen) <
      cost names (name :: pending) seen := by
  have few := (walks.draws.load loaded).1.length_le
  -- The name that is taken is a new one of the names, so at least one of them has been left.
  have next := walks.take unseen loaded
  have room := (List.subperm_of_subset next.once next.taken).length_le
  rw [List.length_cons] at room
  obtain ⟨rest, left⟩ : ∃ rest, names.length - seen.length = rest + 1 :=
    ⟨names.length - seen.length - 1, by omega⟩
  have less : names.length - (seen.length + 1) = rest := by omega
  simp only [cost, List.length_append, List.length_reverse, List.length_cons, left, less, Nat.succ_mul]
  omega

/-- Names that have been reached: all that were pending or had been taken, and all that those refer
to. -/
structure Reaches (target : String) (pending seen : List String) (after : Resolver)
    (reached : List String) : Prop where
  pending : ∀ name ∈ pending, name = target ∨ name ∈ reached
  seen : ∀ name ∈ seen, name ∈ reached
  closed : ∀ name ∈ reached, ∃ module, after.find? name = some module ∧
    ∀ reference ∈ module.references, reference = target ∨ reference ∈ reached

private theorem Walks.reaches (walks : Walks files names target [] seen resolver) :
    Reaches target [] seen resolver seen :=
  ⟨by simp, fun _ member => member, by simpa using walks.covered⟩

/-! ## Taking names until none is pending -/

/-- The loop over pending names without a bound on their number. A derivation is a run that ends. -/
inductive Loads (files : FileSystem) (target : String) :
    (pending seen : List String) → Resolver → Except StorageError Unit × Resolver → Prop
  | done {seen : List String} {resolver : Resolver} :
      Loads files target [] seen resolver (.ok (), resolver)
  | skip {name : String} {pending seen : List String} {resolver : Resolver}
      {outcome : Except StorageError Unit × Resolver} (idle : name = target ∨ name ∈ seen)
      (rest : Loads files target pending seen resolver outcome) :
      Loads files target (name :: pending) seen resolver outcome
  | fail {name : String} {pending seen : List String} {resolver : Resolver} {error : StorageError}
      (fresh : ¬ (name = target ∨ name ∈ seen)) (failed : resolver.load files name = .error error) :
      Loads files target (name :: pending) seen resolver (.error error, resolver)
  | take {name : String} {pending seen : List String} {resolver after : Resolver} {module : Module}
      {outcome : Except StorageError Unit × Resolver} (fresh : ¬ (name = target ∨ name ∈ seen))
      (loaded : resolver.load files name = .ok (module, after))
      (rest : Loads files target (module.references.reverse ++ pending) (name :: seen) after outcome) :
      Loads files target (name :: pending) seen resolver outcome

theorem Loads.unique {first second : Except StorageError Unit × Resolver}
    (left : Loads files target pending seen resolver first)
    (right : Loads files target pending seen resolver second) : first = second := by
  induction left with
  | done =>
      cases right with
      | done => rfl
  | skip idle _ hypothesis =>
      cases right with
      | skip _ rest => exact hypothesis rest
      | fail fresh _ => exact absurd idle fresh
      | take fresh _ _ => exact absurd idle fresh
  | fail fresh failed =>
      cases right with
      | skip idle _ => exact absurd idle fresh
      | fail _ failed' =>
          obtain rfl := Except.error.inj (failed.symm.trans failed')
          rfl
      | take _ loaded _ => cases failed.symm.trans loaded
  | take fresh loaded _ hypothesis =>
      cases right with
      | skip idle _ => exact absurd idle fresh
      | fail _ failed => cases failed.symm.trans loaded
      | take _ loaded' rest =>
          obtain ⟨rfl, rfl⟩ := Prod.mk.inj (Except.ok.inj (loaded.symm.trans loaded'))
          exact hypothesis rest

/-- A walk whose budget pays for all names runs to its end. -/
theorem Walks.loads {budget : Nat} (walks : Walks files names target pending seen resolver)
    (enough : cost names pending seen ≤ budget) :
    Loads files target pending seen resolver (resolver.loadAll files target budget pending seen) := by
  induction budget generalizing pending seen resolver with
  | zero =>
      -- The budget pays for what is pending, so it runs out only when nothing is.
      obtain rfl : pending = [] := by
        rw [cost] at enough
        exact List.length_eq_zero_iff.mp (by omega)
      exact .done
  | succ budget hypothesis =>
      cases pending with
      | nil => exact .done
      | cons name pending =>
          unfold loadAll
          by_cases idle : name = target ∨ name ∈ seen
          · have cheaper : cost names pending seen ≤ budget := by
              simp only [cost, List.length_cons] at enough ⊢
              omega
            simp only [if_pos idle]
            exact .skip idle (hypothesis (walks.skip idle) cheaper)
          · have unseen := (not_or.mp idle).2
            simp only [if_neg idle]
            cases loaded : resolver.load files name with
            | error error => exact .fail idle loaded
            | ok result =>
                obtain ⟨module, after⟩ := result
                have cheaper := walks.cost_take unseen loaded
                exact .take idle loaded (hypothesis (walks.take unseen loaded) (by omega))

/-- A walk that ends without an error has taken all names. -/
theorem Walks.exists_reaches {outcome : Except StorageError Unit × Resolver}
    (walks : Walks files names target pending seen resolver)
    (loads : Loads files target pending seen resolver outcome) (succeeds : outcome = (.ok (), after)) :
    ∃ reached, Reaches target pending seen after reached := by
  induction loads with
  | done =>
      obtain ⟨-, rfl⟩ := Prod.mk.inj succeeds
      exact ⟨_, walks.reaches⟩
  | skip idle _ hypothesis =>
      obtain ⟨reached, reaches⟩ := hypothesis (walks.skip idle) succeeds
      exact ⟨reached, List.forall_mem_cons.mpr ⟨idle.imp_right (reaches.seen _), reaches.pending⟩,
        reaches.seen, reaches.closed⟩
  | fail _ _ => cases succeeds
  | take fresh loaded _ hypothesis =>
      obtain ⟨reached, reaches⟩ := hypothesis (walks.take (not_or.mp fresh).2 loaded) succeeds
      obtain ⟨here, earlier⟩ := List.forall_mem_cons.mp reaches.seen
      exact ⟨reached, List.forall_mem_cons.mpr ⟨.inr here, fun other member =>
        reaches.pending other (List.mem_append_right _ member)⟩, earlier, reaches.closed⟩

/-! ## The names that there are -/

def referencesOf (content : Bytes) : List String :=
  ((Module.decode content).toOption.map Module.references).getD []

private theorem length_referencesOf (content : Bytes) :
    (referencesOf content).length ≤ content.length := by
  unfold referencesOf
  cases read : Module.decode content with
  | error error => exact Nat.zero_le _
  | ok module =>
      have bounded := Module.nodes_le_of_decode read
      simp only [Module.nodesOfTables] at bounded
      change module.references.length ≤ content.length
      omega

/-- The names that may come up: what the target needs, and what modules at hand and in files refer
to. -/
def namesAround (pending : List String) (files : FileSystem) (resolver : Resolver) : List String :=
  pending ++ (resolver.modules.flatMap fun entry => entry.2.references) ++
    files.entries.flatMap fun entry => referencesOf entry.2.content

private theorem sublist_flatMap {α β : Type} {items : List α} {item : α} (f : α → List β)
    (member : item ∈ items) : (f item).Sublist (items.flatMap f) := by
  rw [List.flatMap_def]
  exact List.sublist_flatten_of_mem (List.mem_map_of_mem member)

private theorem draws_namesAround (pending : List String) (files : FileSystem)
    (resolver : Resolver) :
    resolver.Draws files (namesAround pending files resolver) := by
  refine ⟨fun name module found => ?_, fun path module read => ?_⟩
  · have part := sublist_flatMap (fun entry : String × Module => entry.2.references)
      (mem_of_lookup found)
    exact (part.trans (List.sublist_append_right ..)).trans (List.sublist_append_left ..)
  · obtain ⟨image, holds, decoded⟩ := FileSystem.readModule_eq_ok.mp read
    obtain ⟨place, -, stored⟩ := FileSystem.read_eq_ok.mp holds
    have found : files.entries.lookup place = some (.file image) := by
      unfold FileSystem.entry? at stored
      split at stored
      · cases stored
      · exact stored
    have part := sublist_flatMap (fun entry : Path × FileEntry => referencesOf entry.2.content)
      (mem_of_lookup found)
    have same : referencesOf image = module.references := by
      rw [referencesOf, decoded]
      rfl
    rw [← same]
    exact part.trans (List.sublist_append_right ..)

private theorem length_namesAround (pending : List String) (files : FileSystem)
    (resolver : Resolver) :
    (namesAround pending files resolver).length ≤ pending.length + resolver.referenceBound files := by
  have shorter : ∀ entries : List (Path × FileEntry),
      (entries.flatMap fun entry => referencesOf entry.2.content).length ≤
        (entries.flatMap fun entry => entry.2.content).length := by
    intro entries
    induction entries with
    | nil => exact Nat.le_refl _
    | cons entry entries hypothesis =>
        have here := length_referencesOf entry.2.content
        simp only [List.flatMap_cons, List.length_append]
        omega
  have stored := shorter files.entries
  simp only [namesAround, referenceBound, List.length_append]
  omega

/-! ## What a preload leaves -/

variable {target : Module} {configuration : Configuration} {known : String → Prop}

/-- The names that a preload starts with, the last one to be taken first. -/
def roots (target : Module) (configuration : Configuration) : List String :=
  configuration.runtime.coreModule :: configuration.runtime.module :: target.references.reverse

theorem walks_roots (files : FileSystem) (target : Module) (configuration : Configuration)
    (resolver : Resolver) :
    Walks files (namesAround (roots target configuration) files resolver) target.name
      (roots target configuration) [] resolver where
  draws := draws_namesAround (roots target configuration) files resolver
  listed _ member := List.mem_append_left _ (List.mem_append_left _ member)
  taken := List.nil_subset _
  once := List.nodup_nil
  covered _ member := nomatch member

/-- The budget of a preload does not run out. -/
theorem loads_preload (files : FileSystem) (target : Module) (configuration : Configuration)
    (resolver : Resolver) :
    Loads files target.name (roots target configuration) [] resolver
      (resolver.preload files target configuration) := by
  refine (walks_roots files target configuration resolver).loads ?_
  have few := length_namesAround (roots target configuration) files resolver
  exact Nat.add_le_add (Nat.le_add_right _ _) (Nat.mul_le_mul few few)

theorem covers_of_preload
    (loaded : resolver.preload files target configuration = (.ok (), after)) :
    ∃ known : String → Prop, after.Covers target.name known ∧ known target.name ∧
      known configuration.runtime.coreModule ∧ known configuration.runtime.module ∧
      ∀ reference ∈ target.references, known reference := by
  obtain ⟨reached, reaches⟩ := (walks_roots files target configuration resolver).exists_reaches
    (loads_preload files target configuration resolver) loaded
  obtain ⟨core, runs, rest⟩ : (_ ∧ _ ∧ _) := by
    simpa only [roots, List.forall_mem_cons, List.mem_reverse] using reaches.pending
  refine ⟨fun name => name = target.name ∨ name ∈ reached, ?_, .inl rfl, core, runs, rest⟩
  exact fun name known other => reaches.closed name (known.resolve_left other)

private theorem loadAll_of_covers {budget : Nat} {target : String}
    (covers : resolver.Covers target known) (listed : ∀ name ∈ pending, known name) :
    resolver.loadAll files target budget pending seen = (.ok (), resolver) := by
  induction budget generalizing pending seen with
  | zero => rfl
  | succ budget hypothesis =>
      cases pending with
      | nil => rfl
      | cons name pending =>
          obtain ⟨here, rest⟩ := List.forall_mem_cons.mp listed
          unfold loadAll
          by_cases idle : name = target ∨ name ∈ seen
          · simp only [if_pos idle]
            exact hypothesis rest
          · obtain ⟨module, found, refers⟩ := covers name here (not_or.mp idle).1
            have loaded : resolver.load files name = .ok (module, resolver) :=
              load_eq_ok.mpr (.inl ⟨found, rfl⟩)
            simp only [if_neg idle, loaded]
            refine hypothesis fun other member => ?_
            rcases List.mem_append.mp member with named | waits
            · exact refers other (List.mem_reverse.mp named)
            · exact rest other waits

theorem preload_of_covers (covers : resolver.Covers target.name known)
    (core : known configuration.runtime.coreModule) (runtime : known configuration.runtime.module)
    (listed : ∀ reference ∈ target.references, known reference) (files : FileSystem) :
    resolver.preload files target configuration = (.ok (), resolver) := by
  refine loadAll_of_covers covers ?_
  simpa only [List.forall_mem_cons, List.mem_reverse] using ⟨core, runtime, listed⟩

/-- A preload depends on the name of a target and on its references alone. -/
theorem preload_congr {other : Module} (name : target.name = other.name)
    (references : target.references = other.references) :
    resolver.preload files target configuration = resolver.preload files other configuration := by
  simp only [preload, name, references]

theorem preload_of_nil (bare : resolver.searchPaths = []) :
    (resolver.preload files target configuration).2 = resolver := by
  have kept : resolver = (resolver.preload files target configuration).2 := by
    refine loadAll_preserves (fun same loaded => ?_) target.name _ _ _ rfl
    subst same
    exact (eq_of_load_of_nil bare loaded).symm
  exact kept.symm

end Resolver

end PropertyWeaver
