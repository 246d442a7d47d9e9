import PropertyWeaver.Metadata.Basic
import PropertyWeaver.Proofs.Storage.Preloading

/-!
# What a preload loads

A name is needed if the target refers to it, if the configuration names it, or if a module that is needed
refers to it. A preload loads needed modules only. If it succeeds it has loaded all of them, and if it
fails it is for one of them.
-/

set_option autoImplicit false

namespace PropertyWeaver

namespace Resolver

/-- The names that are reached from the target, its runtime module and its core module by following the
references of modules. The target's own name means the target. -/
inductive Needed (after : Resolver) (target : Module) (configuration : Configuration) : String → Prop
  | reference {name : String} (listed : name ∈ target.references) : Needed after target configuration name
  | runtime : Needed after target configuration configuration.runtime.module
  | core : Needed after target configuration configuration.runtime.coreModule
  | further {name reference : String} {module : Module} {scope : Option String}
      (needed : Needed after target configuration name)
      (means : Metadata.module? ⟨target, after, configuration.runtime.coreModule⟩ (some name) =
        some (module, scope))
      (listed : reference ∈ module.references) : Needed after target configuration reference

variable {files : FileSystem} {target module : Module} {configuration : Configuration}
  {name own : String} {pending seen : List String} {resolver after : Resolver} {error : StorageError}
  {outcome : Except StorageError Unit × Resolver} {needed : String → Prop}

private theorem Needed.root (listed : name ∈ roots target configuration) :
    Needed after target configuration name := by
  rcases List.mem_cons.mp listed with rfl | listed
  · exact .core
  · rcases List.mem_cons.mp listed with rfl | listed
    · exact .runtime
    · exact .reference (List.mem_reverse.mp listed)

private theorem Needed.stored (needed : Needed after target configuration name)
    (other : name ≠ target.name) (found : after.find? name = some module) {reference : String}
    (listed : reference ∈ module.references) : Needed after target configuration reference := by
  have means : Metadata.module? ⟨target, after, configuration.runtime.coreModule⟩ (some name) =
      some (module, some module.name) := by
    rw [Metadata.module?, if_neg other, found, Option.map_some]
  exact .further needed means listed

private theorem load_eq_error :
    resolver.load files name = .error error ↔
      resolver.find? name = none ∧ (resolver.locate files name = .error error ∨
        ∃ path, resolver.locate files name = .ok path ∧ files.readModule path = .error error) := by
  unfold load
  cases resolver.find? name with
  | some stored => simp
  | none =>
      cases resolver.locate files name with
      | error error => simp
      | ok path =>
          cases read : files.readModule path with
          | error error => simp [read]
          | ok module => simp [read]

private theorem locate_congr (same : after.searchPaths = resolver.searchPaths) (name : String) :
    after.locate files name = resolver.locate files name := by
  rw [locate, locate, candidates, candidates, same]

private theorem find?_load_of_ne (loaded : resolver.load files name = .ok (module, after))
    {other : String} (different : other ≠ name) : after.find? other = resolver.find? other := by
  rcases load_eq_ok.mp loaded with ⟨-, rfl⟩ | ⟨-, _, -, -, rfl⟩
  · rfl
  · rw [find?_insert, if_neg different]

private theorem searchPaths_load (loaded : resolver.load files name = .ok (module, after)) :
    after.searchPaths = resolver.searchPaths := by
  rcases load_eq_ok.mp loaded with ⟨-, rfl⟩ | ⟨-, _, -, -, rfl⟩
  · rfl
  · rfl

namespace Loads

private theorem searchPaths (loads : Loads files own pending seen resolver outcome) :
    outcome.2.searchPaths = resolver.searchPaths := by
  induction loads with
  | done => rfl
  | skip _ _ hypothesis => exact hypothesis
  | fail _ _ => rfl
  | take _ loaded _ hypothesis => exact hypothesis.trans (searchPaths_load loaded)

private theorem keeps (loads : Loads files own pending seen resolver outcome)
    (here : resolver.find? name = some module) : outcome.2.find? name = some module := by
  induction loads with
  | done => exact here
  | skip _ _ hypothesis => exact hypothesis here
  | fail _ _ => exact here
  | take _ loaded _ hypothesis => exact hypothesis (find?_load_of_some loaded here)

section Needed

variable (loads : Loads files own pending seen resolver outcome)
  (pending_needed : ∀ name ∈ pending, needed name)
  (follows : ∀ name module, needed name → name ≠ own → outcome.2.find? name = some module →
    ∀ reference ∈ module.references, needed reference)

include loads pending_needed follows

/-- What has been loaded comes from its file, and it has been needed. -/
theorem loaded (absent : resolver.find? name = none) (found : outcome.2.find? name = some module) :
    name ≠ own ∧ needed name ∧
      ∃ path, resolver.locate files name = .ok path ∧ files.readModule path = .ok module := by
  induction loads with
  | done =>
      rw [absent] at found
      cases found
  | skip _ _ hypothesis =>
      exact hypothesis (List.forall_mem_cons.mp pending_needed).2 follows absent found
  | fail _ _ =>
      rw [absent] at found
      cases found
  | @take taken pending seen resolver between module' outcome fresh loaded rest hypothesis =>
      obtain ⟨here, others⟩ := List.forall_mem_cons.mp pending_needed
      have stored := rest.keeps (find?_of_load loaded)
      by_cases same : name = taken
      · subst same
        obtain rfl := Option.some.inj (stored.symm.trans found)
        rcases load_eq_ok.mp loaded with ⟨known, -⟩ | ⟨-, path, located, read, -⟩
        · rw [absent] at known
          cases known
        · exact ⟨(not_or.mp fresh).1, here, path, located, read⟩
      · have absent' := (find?_load_of_ne loaded same).trans absent
        rw [← locate_congr (searchPaths_load loaded)]
        refine hypothesis (List.forall_mem_append.mpr ⟨fun reference listed => ?_, others⟩) follows
          absent' found
        exact follows taken module' here (not_or.mp fresh).1 stored reference
          (List.mem_reverse.mp listed)

private theorem failed (fails : outcome.1 = .error error) :
    ∃ name, needed name ∧ name ≠ own ∧ outcome.2.load files name = .error error := by
  induction loads with
  | done => cases fails
  | skip _ _ hypothesis =>
      exact hypothesis (List.forall_mem_cons.mp pending_needed).2 follows fails
  | fail fresh failed =>
      obtain rfl := Except.error.inj fails
      exact ⟨_, (List.forall_mem_cons.mp pending_needed).1, (not_or.mp fresh).1, failed⟩
  | take fresh loaded rest hypothesis =>
      obtain ⟨here, others⟩ := List.forall_mem_cons.mp pending_needed
      have stored := rest.keeps (find?_of_load loaded)
      refine hypothesis (List.forall_mem_append.mpr ⟨fun reference listed => ?_, others⟩) follows fails
      exact follows _ _ here (not_or.mp fresh).1 stored reference (List.mem_reverse.mp listed)

end Needed

end Loads

/-- If nothing fails, what is needed has been reached. -/
theorem Reaches.of_needed {reached : List String}
    (reaches : Reaches target.name (roots target configuration) [] after reached)
    (needed : Needed after target configuration name) : name = target.name ∨ name ∈ reached := by
  have roots : ∀ name ∈ target.references, name = target.name ∨ name ∈ reached := fun name listed =>
    reaches.pending name
      (List.mem_cons_of_mem _ (List.mem_cons_of_mem _ (List.mem_reverse.mpr listed)))
  induction needed with
  | reference listed => exact roots _ listed
  | runtime => exact reaches.pending _ (List.mem_cons_of_mem _ List.mem_cons_self)
  | core => exact reaches.pending _ List.mem_cons_self
  | @further name reference module scope _ means listed hypothesis =>
      rw [Metadata.module?] at means
      split at means
      · obtain ⟨rfl, -⟩ := Prod.mk.inj (Option.some.inj means)
        exact roots reference listed
      · next other =>
        obtain ⟨stored, found, same⟩ := Option.map_eq_some_iff.mp means
        obtain ⟨rfl, -⟩ := Prod.mk.inj same
        obtain ⟨module', found', refers⟩ := reaches.closed name (hypothesis.resolve_left other)
        obtain rfl := Option.some.inj (found.symm.trans found')
        exact refers reference listed

/-- Preloading ends, however the modules refer to each other. A module at hand stays as it is, and what
is loaded is needed. If it succeeds, all that is needed is at hand but for the target itself, and if it
fails, something that is needed cannot be located, read or decoded. -/
theorem preload_closure (resolver : Resolver) (files : FileSystem) (target : Module)
    (configuration : Configuration) :
    ∃ result after, resolver.preload files target configuration = (result, after) ∧
      (∀ outcome, Loads files target.name (roots target configuration) [] resolver outcome ↔
        outcome = (result, after)) ∧
      (∀ name module, resolver.find? name = some module → after.find? name = some module) ∧
      (∀ name module, resolver.find? name = none → after.find? name = some module →
        name ≠ target.name ∧ Needed after target configuration name ∧
          ∃ path, resolver.locate files name = .ok path ∧ files.readModule path = .ok module) ∧
      (result = .ok () → ∀ name, Needed after target configuration name → name ≠ target.name →
        after.isLoaded name = true) ∧
      (∀ error, result = .error error → ∃ name, Needed after target configuration name ∧
        name ≠ target.name ∧ after.isLoaded name = false ∧
          (resolver.locate files name = .error error ∨
            ∃ path, resolver.locate files name = .ok path ∧
              files.readModule path = .error error)) := by
  have loads := loads_preload files target configuration resolver
  have start := walks_roots files target configuration resolver
  generalize resolver.preload files target configuration = outcome at loads
  obtain ⟨result, after⟩ := outcome
  have pending : ∀ name ∈ roots target configuration, Needed after target configuration name :=
    fun _ listed => Needed.root listed
  have follows : ∀ name module, Needed after target configuration name → name ≠ target.name →
      after.find? name = some module →
      ∀ reference ∈ module.references, Needed after target configuration reference :=
    fun _ _ needed other found _ listed => needed.stored other found listed
  refine ⟨result, after, rfl, fun outcome => ⟨fun other => other.unique loads, ?_⟩,
    fun _ _ here => loads.keeps here,
    fun _ _ absent found => loads.loaded pending follows absent found, ?_, ?_⟩
  · rintro rfl
    exact loads
  · rintro rfl name needed other
    obtain ⟨reached, reaches⟩ := start.exists_reaches loads rfl
    obtain ⟨module, found, -⟩ := reaches.closed name ((reaches.of_needed needed).resolve_left other)
    rw [isLoaded, found, Option.isSome_some]
  · rintro error rfl
    obtain ⟨name, needed, other, failed⟩ := loads.failed pending follows rfl
    obtain ⟨absent, fault⟩ := load_eq_error.mp failed
    rw [locate_congr loads.searchPaths] at fault
    exact ⟨name, needed, other, by rw [isLoaded, absent, Option.isSome_none], fault⟩

end Resolver

end PropertyWeaver
