import PropertyWeaver.Proofs.Storage.Preloading
import PropertyWeaver.Proofs.Weaving.ReferenceTable
import PropertyWeaver.Proofs.Weaving.WovenFiles

/-!
# Weaving a file again

The second call loads what the woven module refers to before it sees the mark. A pass adds references to
what lookups have found. So if every module is at hand under its own name and refers to all that it
mentions, nothing new is asked for, and the second call changes nothing.
-/

set_option autoImplicit false

namespace PropertyWeaver

variable {files : FileSystem} {resolver : Resolver} {configuration : Configuration} {path : String}
  {module woven : Module} {report : WeaveReport} {known : String → Prop}

/-! ## What a pass refers to -/

/-- Every module is at hand under its own name and is closed. -/
structure Resolver.Orderly (resolver : Resolver) : Prop where
  names : resolver.OwnNames
  closed : ∀ name module, resolver.find? name = some module → module.Closed

/-- A module that goes by a name and mentions and refers to known modules alone. -/
structure Module.Within (known : String → Prop) (name : String) (module : Module) : Prop where
  name : module.name = name
  scopes : ∀ scope ∈ module.scopes, known scope
  references : ∀ reference ∈ module.references, known reference

namespace Module

private theorem mem_references_addReferences {scopes : List String} {reference : String}
    (listed : reference ∈ (module.addReferences scopes).references) :
    reference ∈ module.references ∨ reference ∈ scopes := by
  induction scopes generalizing module with
  | nil => exact .inl listed
  | cons scope scopes hypothesis =>
      rcases @hypothesis (module.addReference scope) listed with before | later
      · unfold addReference at before
        split at before
        · exact .inl before
        · rcases List.mem_append.mp before with old | new
          · exact .inl old
          · exact .inr (List.mem_cons.mpr (.inl (List.mem_singleton.mp new)))
      · exact .inr (List.mem_cons_of_mem scope later)

private theorem Within.of_closed (closed : module.Closed) (own : known module.name)
    (listed : ∀ reference ∈ module.references, known reference) : module.Within known module.name := by
  refine ⟨rfl, fun scope named => ?_, listed⟩
  rcases knowsScope_iff.mp (closed scope named) with rfl | inside
  · exact own
  · exact listed scope inside

private theorem Within.applyEdit {name : String} {state : WeavingState}
    (within : state.module.Within known name) {edit : Edit} (fitting : edit.Fitting known)
    (added : edit.ListsAdded) (type : Nat) :
    (WeavingState.applyEdit type state edit).module.Within known name := by
  refine ⟨(WeavingState.name_applyEdit type state edit).trans within.name, ?_, ?_⟩
  · intro scope named
    rcases List.mem_append.mp (WeavingState.scopes_applyEdit type state edit named) with before | new
    · exact within.scopes scope before
    · exact fitting.scopes scope (added new)
  · intro reference listed
    rw [WeavingState.references_applyEdit] at listed
    rcases mem_references_addReferences listed with before | new
    · exact within.references reference before
    · exact fitting.scopes reference new

end Module

private theorem Resolver.Covers.within {name core : String} (covers : resolver.Covers name known)
    (orderly : resolver.Orderly) (within : module.Within known name) (builtIn : known core) :
    Metadata.Within known ⟨module, resolver, core⟩ := by
  refine ⟨within.scopes, builtIn, fun other stored wanted foreign found => ?_⟩
  obtain ⟨covered, here, refers⟩ := covers other wanted (within.name ▸ foreign)
  obtain rfl := Option.some.inj (here.symm.trans found)
  obtain rfl := orderly.names other covered found
  have inside := Module.Within.of_closed (orderly.closed _ covered found) wanted refers
  exact ⟨wanted, inside.scopes⟩

/-- A pass over orderly modules leads to no module that is not covered. -/
theorem Module.Within.weave {name : String} (within : module.Within known name)
    (covers : resolver.Covers name known) (orderly : resolver.Orderly)
    (core : known configuration.runtime.coreModule) (runtime : known configuration.runtime.module)
    (weaves : module.weave resolver configuration = .ok (woven, report)) :
    woven.Within known name := by
  rcases weave_eq_ok weaves with ⟨-, rfl⟩ | ⟨-, state, ran, rfl, -⟩
  · exact within
  have made : state.module.Within known name := by
    refine WeavingState.preserves_visits
      (fun between task edit inside executed change member state before => ?_) within ran
    have lookups := covers.within orderly inside core
    exact before.applyEdit (Task.fitting_of_execute lookups runtime executed change member)
      (Task.listsAdded_of_execute executed change member) edit.type
  exact ⟨made.name, made.scopes, made.references⟩

/-! ## The second call -/

private theorem weaveFile_of_instrumented (opened : files.readModule path = .ok module)
    (instrumented : module.isInstrumented = true) :
    weaveFile files resolver configuration path =
      ⟨((resolver.preload files module configuration).1.mapError .storage).map fun _ =>
        { WeaveReport.initial module.name with alreadyInstrumented := true },
        (resolver.preload files module configuration).2, files⟩ := by
  unfold weaveFile
  simp only [opened, Module.weave_of_instrumented instrumented]
  rcases resolver.preload files module configuration with ⟨_ | ⟨⟨⟩⟩, after⟩ <;> rfl

private theorem Weaves.woven_of_instrumented {after : Resolver}
    (steps : Weaves files resolver configuration path module after woven report)
    (instrumented : module.isInstrumented = true) : module = woven := by
  have same := steps.weaves
  rw [Module.weave_of_instrumented instrumented] at same
  exact (Prod.mk.inj (Except.ok.inj same)).1

private theorem Weaves.exists_stored {after : Resolver} {saved : FileSystem}
    (steps : Weaves files resolver configuration path module after woven report)
    (counted : woven.Counted) (written : saved.read path = .ok woven.encode) :
    ∃ stored, saved.readModule path = .ok stored ∧ stored.isInstrumented = true ∧
      stored.name = woven.name ∧ stored.references = woven.references := by
  have marked := Module.isInstrumented_of_weave steps.weaves
  exact ⟨_, FileSystem.readModule_eq_ok.mpr ⟨woven.encode, written, steps.decode counted⟩, marked, rfl,
    rfl⟩

private theorem exists_reopened
    (succeeds : (weaveFile files resolver configuration path).answer = .ok report) :
    ∃ module woven, Weaves files resolver configuration path module
        (weaveFile files resolver configuration path).resolver woven report ∧
      ((module.isInstrumented = false → woven.Counted) →
        ∃ stored, (weaveFile files resolver configuration path).files.readModule path = .ok stored ∧
          stored.isInstrumented = true ∧ stored.name = woven.name ∧
          stored.references = woven.references) := by
  obtain ⟨module, woven, steps, ended⟩ := exists_of_weaveFile succeeds
  refine ⟨module, woven, steps, fun counted => ?_⟩
  rcases ended with ⟨instrumented, unchanged⟩ | ⟨fresh, written⟩
  · obtain rfl := steps.woven_of_instrumented instrumented
    rw [unchanged]
    exact ⟨module, steps.opened, instrumented, rfl, rfl⟩
  · exact steps.exists_stored (counted fresh) written

/-- If the target and every module at hand are in order, the first call has loaded all that the second
one asks for. -/
theorem Weaves.preload_woven {after : Resolver}
    (steps : Weaves files resolver configuration path module after woven report)
    (orderly : module.isInstrumented = true ∨ module.Closed ∧ after.Orderly) (files : FileSystem) :
    after.preload files woven configuration = (.ok (), after) := by
  obtain ⟨known, covers, own, core, runtime, listed⟩ := Resolver.covers_of_preload steps.loaded
  rcases orderly with instrumented | ⟨closed, orderly⟩
  · obtain rfl := steps.woven_of_instrumented instrumented
    exact Resolver.preload_of_covers covers core runtime listed files
  · -- The pass has added only what the first preload has reached.
    have start := Module.Within.of_closed closed own listed
    have within := start.weave covers orderly core runtime steps.weaves
    rw [← within.name] at covers
    exact Resolver.preload_of_covers covers core runtime within.references files

/-- A second call in a row changes no file. It reports that the module had been woven, unless it fails to
load what the woven module refers to. It loads nothing if the target is closed and every module at hand
is closed and goes by its own name. -/
theorem weaveFile_repeats {first second : WeaveOutcome}
    (firstCall : weaveFile files resolver configuration path = first)
    (secondCall : weaveFile first.files first.resolver configuration path = second)
    (succeeds : first.answer = .ok report) :
    ∃ module woven, files.readModule path = .ok module ∧
      module.weave first.resolver configuration = .ok (woven, report) ∧
      ((module.isInstrumented = false → woven.Counted) →
        second.files = first.files ∧
        second.answer =
          ((first.resolver.preload first.files woven configuration).1.mapError .storage).map (fun _ =>
            { WeaveReport.initial module.name with alreadyInstrumented := true }) ∧
        (module.isInstrumented = true ∨ module.Closed ∧ first.resolver.Orderly →
          second.answer =
              .ok { WeaveReport.initial module.name with alreadyInstrumented := true } ∧
            second.resolver = first.resolver)) := by
  subst firstCall secondCall
  obtain ⟨module, woven, steps, reopened⟩ := exists_reopened succeeds
  refine ⟨module, woven, steps.opened, steps.weaves, fun counted => ?_⟩
  obtain ⟨stored, opened, instrumented, name, references⟩ := reopened counted
  have own := (Module.extends_weave steps.weaves).name
  rw [weaveFile_of_instrumented opened instrumented, Resolver.preload_congr name references,
    name.trans own]
  refine ⟨rfl, rfl, fun orderly => ?_⟩
  rw [steps.preload_woven orderly]
  exact ⟨rfl, rfl⟩

/-! A counter that lists the runtime, with the modules that it needs at hand. -/

private theorem readModule_sampleListed :
    (sampleFiles Module.sampleListed).readModule "App.swm" = .ok Module.sampleListed.stored :=
  readModule_sampleFiles (by decide +kernel) (by decide) (by decide +kernel)

private theorem orderly_sampleModules : sampleModules.Orderly := by
  refine ⟨(Resolver.ownNames_empty.register _).register _, fun name module found => ?_⟩
  have modules : ∀ named ∈ sampleModules.modules, named.2.Closed := by decide
  exact modules (name, module) (mem_of_lookup found)

theorem weaveFile_repeats_sampleListed :
    ∃ first second : WeaveOutcome, ∃ report,
      weaveFile (sampleFiles Module.sampleListed) sampleModules {} "App.swm" = first ∧
      weaveFile first.files first.resolver {} "App.swm" = second ∧
      first.answer = .ok report ∧ Module.sampleListed.stored.Closed ∧ first.resolver.Orderly ∧
      second.files = first.files ∧ second.resolver = first.resolver ∧
      second.answer = .ok { WeaveReport.initial "App" with alreadyInstrumented := true } := by
  have computed : (Module.sampleListed.stored.weave sampleModules {}).isOk = true ∧
      ∀ result ∈ (Module.sampleListed.stored.weave sampleModules {}).toOption,
        result.1.payload.length < 2 ^ 32 := by
    decide +kernel
  obtain ⟨files', report, woven, ran, -, steps, short⟩ :=
    exists_weaves_sampleFiles sampleModules readModule_sampleListed (by decide +kernel) (by decide)
      computed
  obtain ⟨module, woven', opened, weaves, repeats⟩ := weaveFile_repeats ran rfl rfl
  obtain rfl := Except.ok.inj (steps.opened.symm.trans opened)
  obtain ⟨rfl, -⟩ := Prod.mk.inj (Except.ok.inj (steps.weaves.symm.trans weaves))
  obtain ⟨files, -, again⟩ := repeats fun _ => Module.counted_of_length short
  have closed : Module.sampleListed.stored.Closed := by decide +kernel
  obtain ⟨answer, resolver⟩ := again (.inr ⟨closed, orderly_sampleModules⟩)
  exact ⟨_, _, report, ran, rfl, rfl, closed, orderly_sampleModules, files, resolver, answer⟩

/-! The runtime at hand under another name than its own, as from a file that has been renamed. -/

def renamedModules : Resolver :=
  (Resolver.empty.register (Module.sample "System.Runtime" [])).insert "Semweave.Runtime"
    { Module.sampleRuntime with name := "Runtime" }

private theorem preload_renamedModules {files : FileSystem} {target : Module} {after : Resolver}
    (own : target.name = "App") (listed : "Runtime" ∈ target.references) :
    renamedModules.preload files target {} ≠ (.ok (), after) := by
  intro loaded
  obtain ⟨known, covers, -, -, -, wanted⟩ := Resolver.covers_of_preload loaded
  -- There are no search directories, so the runtime would have to be at hand under its own name.
  obtain rfl : after = renamedModules :=
    (congrArg Prod.snd loaded).symm.trans (Resolver.preload_of_nil rfl)
  obtain ⟨stored, found, -⟩ := covers "Runtime" (wanted _ listed) (by rw [own]; decide)
  have absent : renamedModules.find? "Runtime" = none := by decide
  rw [absent] at found
  cases found

theorem weaveFile_repeats_fails :
    ∃ first : WeaveOutcome, ∃ report, ∃ woven : Module, ∃ error,
      weaveFile (sampleFiles Module.sampleListed) renamedModules {} "App.swm" = first ∧
      first.answer = .ok report ∧ first.files.read "App.swm" = .ok woven.encode ∧ woven.Counted ∧
      (weaveFile first.files first.resolver {} "App.swm").answer = .error error := by
  have computed : (Module.sampleListed.stored.weave renamedModules {}).isOk = true ∧
      ∀ result ∈ (Module.sampleListed.stored.weave renamedModules {}).toOption,
        result.1.payload.length < 2 ^ 32 ∧ result.1.name = "App" ∧
          "Runtime" ∈ result.1.references := by
    decide +kernel
  obtain ⟨files', report, woven, ran, written, steps, short, own, listed⟩ :=
    exists_weaves_sampleFiles renamedModules readModule_sampleListed (by decide +kernel) (by decide)
      computed
  have counted := Module.counted_of_length short
  obtain ⟨stored, opened, instrumented, name, references⟩ := steps.exists_stored counted written
  rcases loaded : renamedModules.preload files' stored {} with ⟨error | ⟨⟨⟩⟩, after⟩
  · refine ⟨_, report, woven, .storage error, ran, rfl, written, counted, ?_⟩
    rw [weaveFile_of_instrumented opened instrumented, loaded]
    rfl
  · exact absurd loaded (preload_renamedModules (name.trans own) (references ▸ listed))

end PropertyWeaver
