import PropertyWeaver.Proofs.Image.NormalForm
import PropertyWeaver.Proofs.Storage.Files
import PropertyWeaver.Proofs.Weaving.WovenImages
import PropertyWeaver.Weaving.File

/-!
# Weaving a file as a whole

A file is replaced after everything else has succeeded. It then holds the image of the woven module, and
in every other case what it held before.
-/

set_option autoImplicit false

namespace PropertyWeaver

/-! ## What the report says -/

namespace WeavingState

variable {resolver : Resolver} {configuration : Configuration} {state after : WeavingState}

private theorem alreadyInstrumented_applyEdit (type : Nat) (state : WeavingState) (edit : Edit) :
    (applyEdit type state edit).report.alreadyInstrumented = state.report.alreadyInstrumented := by
  cases edit with
  | prependToConstructor method block maxStack =>
      simp only [applyEdit, prepend]
      split <;> rfl
  | _ => rfl

private theorem alreadyInstrumented_visits {types : List Nat}
    (ran : types.foldlM (weaveType resolver configuration) state = .ok after) :
    after.report.alreadyInstrumented = state.report.alreadyInstrumented := by
  let holds (next : WeavingState) : Prop :=
    next.report.alreadyInstrumented = state.report.alreadyInstrumented
  have works : ∀ (between : WeavingState) (edit : TypeEdit), holds between →
      holds (between.apply edit) := by
    intro between edit held
    exact List.foldlRecOn edit.edits (applyEdit edit.type) (motive := holds) held
      fun next same change _ => (alreadyInstrumented_applyEdit edit.type next change).trans same
  exact @invariant_visits _ _ _ _ holds _ (fun between _ edit held _ => works between edit held)
    (fun _ held => held) rfl ran

end WeavingState

namespace Module

variable {resolver : Resolver} {configuration : Configuration} {module woven : Module}
  {report : WeaveReport}

theorem weave_of_instrumented (instrumented : module.isInstrumented = true) :
    module.weave resolver configuration =
      .ok (module, { WeaveReport.initial module.name with alreadyInstrumented := true }) := by
  rw [weave, if_pos instrumented]

private theorem alreadyInstrumented_weave
    (weaves : module.weave resolver configuration = .ok (woven, report)) :
    report.alreadyInstrumented = module.isInstrumented := by
  cases instrumented : module.isInstrumented with
  | true =>
      obtain ⟨-, rfl⟩ := Prod.mk.inj (Except.ok.inj ((weave_of_instrumented instrumented).symm.trans
        weaves))
      rfl
  | false =>
      rcases weave_eq_ok weaves with ⟨other, -⟩ | ⟨-, state, ran, -, rfl⟩
      · rw [instrumented] at other
        cases other
      · exact WeavingState.alreadyInstrumented_visits ran

end Module

/-! ## Files -/

/-- The steps before a file is saved: its module is read, the modules around it are loaded, and it is
woven. -/
structure Weaves (files : FileSystem) (resolver : Resolver) (configuration : Configuration)
    (path : String) (module : Module) (after : Resolver) (woven : Module) (report : WeaveReport) :
    Prop where
  opened : files.readModule path = .ok module
  loaded : resolver.preload files module configuration = (.ok (), after)
  weaves : module.weave after configuration = .ok (woven, report)

variable (files : FileSystem) (resolver : Resolver) (configuration : Configuration) (path : String)

/-- Weaving a file fails without a change, stops at a module that had been woven before, or goes on to
save what it has woven, which may fail as well. -/
theorem weaveFile_cases :
    (∃ error after, weaveFile files resolver configuration path = ⟨.error error, after, files⟩) ∨
    ∃ module after woven report,
      Weaves files resolver configuration path module after woven report ∧
      (module.isInstrumented = true ∧
          weaveFile files resolver configuration path = ⟨.ok report, after, files⟩ ∨
        module.isInstrumented = false ∧
          ((∃ error files', files.saveModule path woven = (.error error, files') ∧
              weaveFile files resolver configuration path =
                ⟨.error (.storage error), after, files'⟩) ∨
            ∃ files', files.saveModule path woven = (.ok (), files') ∧
              weaveFile files resolver configuration path = ⟨.ok report, after, files'⟩)) := by
  unfold weaveFile
  cases opened : files.readModule path with
  | error error => exact .inl ⟨.storage error, resolver, rfl⟩
  | ok module =>
  simp only
  rcases loaded : resolver.preload files module configuration with ⟨_ | ⟨⟨⟩⟩, after⟩
  · exact .inl ⟨.storage _, after, rfl⟩
  simp only
  cases weaves : module.weave after configuration with
  | error error => exact .inl ⟨error, after, rfl⟩
  | ok result =>
  obtain ⟨woven, report⟩ := result
  refine .inr ⟨module, after, woven, report, ⟨opened, loaded, weaves⟩, ?_⟩
  simp only [Module.alreadyInstrumented_weave weaves]
  cases module.isInstrumented with
  | true => exact .inl ⟨rfl, rfl⟩
  | false =>
      refine .inr ⟨rfl, ?_⟩
      rcases saved : files.saveModule path woven with ⟨error | ⟨⟨⟩⟩, files'⟩
      · exact .inl ⟨error, files', rfl, rfl⟩
      · exact .inr ⟨files', rfl, rfl⟩

variable {files resolver configuration path}

theorem Weaves.decode {module woven : Module} {after : Resolver} {report : WeaveReport}
    (steps : Weaves files resolver configuration path module after woven report)
    (counted : woven.Counted) :
    Module.decode woven.encode =
      .ok { woven.cutTargets with checksum := Digest.sha256 woven.payload } := by
  obtain ⟨image, -, decoded⟩ := FileSystem.readModule_eq_ok.mp steps.opened
  exact Module.decode_encode_of_counted counted
    ((Module.decoded_of_decode decoded).weave steps.weaves)

/-- A success either finds the module woven and changes no file, or leaves the woven module behind. -/
theorem exists_of_weaveFile {report : WeaveReport}
    (succeeds : (weaveFile files resolver configuration path).answer = .ok report) :
    ∃ module woven, Weaves files resolver configuration path module
        (weaveFile files resolver configuration path).resolver woven report ∧
      (module.isInstrumented = true ∧ (weaveFile files resolver configuration path).files = files ∨
        module.isInstrumented = false ∧
          (weaveFile files resolver configuration path).files.read path = .ok woven.encode) := by
  rcases weaveFile_cases files resolver configuration path with ⟨error, after, failed⟩ |
    ⟨module, after, woven, report', steps, ended⟩
  · rw [failed] at succeeds
    cases succeeds
  rcases ended with ⟨instrumented, stopped⟩ | ⟨fresh, ⟨error, files', saved, failed⟩ |
    ⟨files', saved, succeeded⟩⟩
  · rw [stopped] at succeeds ⊢
    obtain rfl := Except.ok.inj succeeds
    exact ⟨module, woven, steps, .inl ⟨instrumented, rfl⟩⟩
  · rw [failed] at succeeds
    cases succeeds
  · rw [succeeded] at succeeds ⊢
    obtain rfl := Except.ok.inj succeeds
    obtain ⟨image, readable, -⟩ := FileSystem.readModule_eq_ok.mp steps.opened
    have written := (FileSystem.saveModule_spec readable woven).2.1
    rw [saved] at written
    exact ⟨module, woven, steps, .inr ⟨fresh, written rfl⟩⟩

private theorem weaveFile_elsewhere :
    (∀ error, (weaveFile files resolver configuration path).answer = .error error →
      (weaveFile files resolver configuration path).files.read path = files.read path) ∧
    ∀ other, files.locate path ≠ .ok (.within other) →
      files.locate (Path.sibling path ".tmp") ≠ .ok (.within other) →
      FileSystem.entry? (weaveFile files resolver configuration path).files other =
        files.entry? other := by
  rcases weaveFile_cases files resolver configuration path with ⟨error, after, failed⟩ |
    ⟨module, after, woven, report, steps, ended⟩
  · rw [failed]
    exact ⟨fun _ _ => rfl, fun _ _ _ => rfl⟩
  obtain ⟨image, readable, -⟩ := FileSystem.readModule_eq_ok.mp steps.opened
  obtain ⟨kept, -, elsewhere⟩ := FileSystem.saveModule_spec readable woven
  rcases ended with ⟨-, stopped⟩ | ⟨-, ⟨error, files', saved, failed⟩ | ⟨files', saved, succeeded⟩⟩
  · rw [stopped]
    exact ⟨fun _ _ => rfl, fun _ _ _ => rfl⟩
  · rw [failed]
    rw [saved] at kept elsewhere
    exact ⟨fun _ _ => (kept error rfl).trans readable.symm, elsewhere⟩
  · rw [succeeded]
    rw [saved] at elsewhere
    exact ⟨fun _ fails => (by cases fails), elsewhere⟩

variable (files resolver configuration path)

/-- Weaving a file is all or nothing. After an error the file holds what it held. After a success over a
module that had not been woven it holds the woven module, which is read back with its mark, up to the
checksum and with its targets cut to 32 bits. Nothing else changes but the file next to it. -/
theorem weaveFile_all_or_nothing :
    (∀ error, (weaveFile files resolver configuration path).answer = .error error →
      (weaveFile files resolver configuration path).files.read path = files.read path) ∧
    (∀ report, (weaveFile files resolver configuration path).answer = .ok report →
      ∃ module woven, files.readModule path = .ok module ∧
        module.weave (weaveFile files resolver configuration path).resolver configuration =
          .ok (woven, report) ∧
        (module.isInstrumented = false →
          (weaveFile files resolver configuration path).files.read path = .ok woven.encode ∧
          woven.isInstrumented = true ∧
          (woven.Counted →
            Module.decode woven.encode =
                .ok { woven.cutTargets with checksum := Digest.sha256 woven.payload } ∧
              ((woven.AllCode fun instruction => ∀ target ∈ instruction.target?, target < 2 ^ 32) →
                woven.cutTargets = woven)))) ∧
    ∀ other, files.locate path ≠ .ok (.within other) →
      files.locate (Path.sibling path ".tmp") ≠ .ok (.within other) →
      FileSystem.entry? (weaveFile files resolver configuration path).files other =
        files.entry? other := by
  obtain ⟨kept, elsewhere⟩ := @weaveFile_elsewhere files resolver configuration path
  refine ⟨kept, fun report succeeds => ?_, elsewhere⟩
  obtain ⟨module, woven, steps, ended⟩ := exists_of_weaveFile succeeds
  refine ⟨module, woven, steps.opened, steps.weaves, fun fresh => ?_⟩
  rcases ended with ⟨instrumented, -⟩ | ⟨-, written⟩
  · rw [fresh] at instrumented
    cases instrumented
  · exact ⟨written, Module.isInstrumented_of_weave steps.weaves, fun counted =>
      ⟨steps.decode counted, Module.cutTargets_eq_self⟩⟩

/-! A counter in a file, with the modules that it needs at hand. -/

def sampleModules : Resolver :=
  Module.sampleResolver.register (Module.sample "System.Runtime" [])

def sampleFiles (module : Module) : FileSystem :=
  FileSystem.empty.create ["App.swm"] (.file module.encode)

/-- The module as it is read, with its checksum. -/
def Module.stored (module : Module) : Module :=
  { module with checksum := Digest.sha256 module.payload }

private theorem locate_sampleFiles (files : FileSystem) :
    files.locate "App.swm" = .ok (.within ["App.swm"]) ∧
      files.locate "App.swm.tmp" = .ok (.within ["App.swm.tmp"]) := by
  have components : Path.components "App.swm" = ["App.swm"] ∧
      Path.components "App.swm.tmp" = ["App.swm.tmp"] := by decide +kernel
  have relative : "App.swm".startsWith "/" = false ∧ "App.swm.tmp".startsWith "/" = false := by
    decide +kernel
  rw [FileSystem.locate, FileSystem.locate, components.1, components.2, relative.1, relative.2]
  exact ⟨rfl, rfl⟩

theorem readModule_sampleFiles {module : Module} (short : module.payload.length < 2 ^ 32)
    (decoded : module.Decoded)
    (small : module.AllCode fun instruction => ∀ target ∈ instruction.target?, target < 2 ^ 32) :
    (sampleFiles module).readModule "App.swm" = .ok module.stored := by
  have present : (sampleFiles module).read "App.swm" = .ok module.encode :=
    FileSystem.read_eq_ok.mpr ⟨["App.swm"], (locate_sampleFiles _).1, rfl⟩
  exact FileSystem.readModule_eq_ok.mpr ⟨module.encode, present,
    Module.decode_encode_of_length short decoded small⟩

private theorem saveModule_sampleFiles (module woven : Module) :
    ∃ files', (sampleFiles module).saveModule "App.swm" woven = (.ok (), files') := by
  have sibling : Path.sibling "App.swm" ".tmp" = "App.swm.tmp" := by decide +kernel
  unfold FileSystem.saveModule FileSystem.write FileSystem.rename
  simp only [sibling, locate_sampleFiles]
  exact ⟨_, rfl⟩

private theorem weaveFile_sampleFiles {modules : Resolver} {module woven : Module}
    {report : WeaveReport}
    (steps : Weaves (sampleFiles module) modules {} "App.swm" module.stored modules woven report)
    (fresh : module.isInstrumented = false) :
    ∃ files', files'.read "App.swm" = .ok woven.encode ∧
      weaveFile (sampleFiles module) modules {} "App.swm" = ⟨.ok report, modules, files'⟩ := by
  obtain ⟨files', saved⟩ := saveModule_sampleFiles module woven
  have first : report.alreadyInstrumented = false :=
    (Module.alreadyInstrumented_weave steps.weaves).trans fresh
  obtain ⟨image, readable, -⟩ := FileSystem.readModule_eq_ok.mp steps.opened
  have written := (FileSystem.saveModule_spec readable woven).2.1
  rw [saved] at written
  refine ⟨files', written rfl, ?_⟩
  simp [weaveFile, steps.opened, steps.loaded, steps.weaves, first, saved]

/-- What a computation says of the pass holds of the module that the file has in the end. -/
theorem exists_weaves_sampleFiles (modules : Resolver) {module : Module}
    {holds : Module × WeaveReport → Prop}
    (opened : (sampleFiles module).readModule "App.swm" = .ok module.stored)
    (loaded : modules.preload (sampleFiles module) module.stored {} = (.ok (), modules))
    (fresh : module.isInstrumented = false)
    (computed : (module.stored.weave modules {}).isOk = true ∧
      ∀ result ∈ (module.stored.weave modules {}).toOption, holds result) :
    ∃ files' report woven,
      weaveFile (sampleFiles module) modules {} "App.swm" = ⟨.ok report, modules, files'⟩ ∧
      files'.read "App.swm" = .ok woven.encode ∧
      Weaves (sampleFiles module) modules {} "App.swm" module.stored modules woven report ∧
      holds (woven, report) := by
  obtain ⟨⟨woven, report⟩, weaves⟩ := Outcome.exists_of_isOk computed.1
  have steps : Weaves (sampleFiles module) modules {} "App.swm" module.stored modules woven report :=
    ⟨opened, loaded, weaves⟩
  obtain ⟨files', written, ran⟩ := weaveFile_sampleFiles steps fresh
  exact ⟨files', report, woven, ran, written, steps,
    computed.2 _ (Outcome.toOption_eq_some.mpr weaves)⟩

private theorem readModule_sampleModule :
    (sampleFiles Module.sampleModule).readModule "App.swm" = .ok Module.sampleModule.stored :=
  readModule_sampleFiles (by decide +kernel) (by decide) (by decide +kernel)

theorem weaveFile_all_or_nothing_sampleModule :
    ∃ report, ∃ woven : Module,
      (weaveFile (sampleFiles Module.sampleModule) sampleModules {} "App.swm").answer = .ok report ∧
      (weaveFile (sampleFiles Module.sampleModule) sampleModules {} "App.swm").files.read "App.swm" =
        .ok woven.encode ∧
      woven.isInstrumented = true ∧ Module.decode woven.encode = .ok woven.stored := by
  have computed : (Module.sampleModule.stored.weave sampleModules {}).isOk = true ∧
      ∀ result ∈ (Module.sampleModule.stored.weave sampleModules {}).toOption,
        result.1.payload.length < 2 ^ 32 ∧
          result.1.AllCode fun instruction => ∀ target ∈ instruction.target?, target < 2 ^ 32 := by
    decide +kernel
  obtain ⟨files', report, woven, ran, -, steps, short, small⟩ :=
    exists_weaves_sampleFiles sampleModules readModule_sampleModule (by decide +kernel) (by decide)
      computed
  have whole := weaveFile_all_or_nothing (sampleFiles Module.sampleModule) sampleModules {} "App.swm"
  rw [ran] at whole ⊢
  obtain ⟨module, woven', opened, weaves, saved⟩ := whole.2.1 report rfl
  obtain rfl := Except.ok.inj (steps.opened.symm.trans opened)
  obtain ⟨rfl, -⟩ := Prod.mk.inj (Except.ok.inj (steps.weaves.symm.trans weaves))
  obtain ⟨written, marked, reads⟩ := saved (by decide)
  obtain ⟨decoded, uncut⟩ := reads (Module.counted_of_length short)
  rw [uncut small] at decoded
  exact ⟨report, woven, rfl, written, marked, decoded⟩

/-! A constructor with a branch behind its return, where no check goes. -/

def farModule : Module :=
  Module.sample "App" [{ Module.sampleCounter with
    methods :=
      [{ Module.sampleMethod "get_Count" (.builtin .int32) [] none with
          flags := MethodFlag.compilerControlled },
       { Module.sampleMethod "set_Count" (.builtin .void) [.builtin .int32] none with
          flags := MethodFlag.compilerControlled },
       Module.sampleMethod MethodDef.constructorName (.builtin .void) []
        (some (.ofCode 1 [Opcode.ret.plain, ⟨.br, .branch 4294967295⟩]))] }]

private theorem readModule_farModule :
    (sampleFiles farModule).readModule "App.swm" = .ok farModule.stored :=
  readModule_sampleFiles (by decide +kernel) (by decide) (by decide +kernel)

/-- A target that a prelude moves beyond 32 bits is not read back, however short everything is. -/
theorem weaveFile_cuts_target :
    ∃ report, ∃ woven decoded : Module,
      (weaveFile (sampleFiles farModule) sampleModules {} "App.swm").answer = .ok report ∧
      (sampleFiles farModule).readModule "App.swm" = .ok farModule.stored ∧
      farModule.stored.isInstrumented = false ∧
      farModule.stored.weave (weaveFile (sampleFiles farModule) sampleModules {} "App.swm").resolver {} =
        .ok (woven, report) ∧
      (weaveFile (sampleFiles farModule) sampleModules {} "App.swm").files.read "App.swm" =
        .ok woven.encode ∧
      woven.Counted ∧ Module.decode woven.encode = .ok decoded ∧
      ∀ checksum, { decoded with checksum := checksum } ≠ { woven with checksum := checksum } := by
  have computed : (farModule.stored.weave sampleModules {}).isOk = true ∧
      ∀ result ∈ (farModule.stored.weave sampleModules {}).toOption,
        result.1.payload.length < 2 ^ 32 ∧ result.1.cutTargets.types ≠ result.1.types := by
    decide +kernel
  obtain ⟨files', report, woven, ran, written, steps, short, moved⟩ :=
    exists_weaves_sampleFiles sampleModules readModule_farModule (by decide +kernel) (by decide) computed
  have counted := Module.counted_of_length short
  rw [ran]
  refine ⟨report, woven, _, rfl, readModule_farModule, by decide, steps.weaves, written, counted,
    steps.decode counted, fun checksum same => moved ?_⟩
  have types := congrArg Module.types same
  exact types

end PropertyWeaver
