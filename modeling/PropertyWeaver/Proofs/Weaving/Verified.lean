import PropertyWeaver.Proofs.Weaving.TaskErrors
import PropertyWeaver.Proofs.Weaving.TypeTasks

/-!
# Woven code always verifies

A module whose constructors verify and whose runtime has the documented shape is woven into code
that verifies: checking it or not makes no difference. The argument follows the pass. A visit keeps
the touched methods of its type verified, and as every type is visited once, a type that waits is
still the original one.
-/

set_option autoImplicit false

namespace PropertyWeaver

open Verification

namespace WeavingState

variable {resolver : Resolver} {configuration : Configuration} {module : Module}
  {original type : TypeDef} {typeIndex : Nat} {state after : WeavingState}

private theorem Changed.verifyTouched (changed : Changed original typeIndex state type) :
    state.verifyTouched typeIndex = .ok () := by
  simp only [WeavingState.verifyTouched, changed.here]
  refine Outcome.forM_eq_ok.mpr fun index touched => ?_
  cases found : type.methods[index]? with
  | none => rfl
  | some method =>
      simp [TypeDef.verifyMethod, changed.touched index touched method found]

private theorem runTask_verify (verify : Bool) :
    WeavingState.runTask resolver { configuration with verify := verify } =
      WeavingState.runTask resolver configuration := by
  funext state task
  cases task <;> rfl

theorem plan_congr (verify : Bool)
    (here : state.module.types[typeIndex]? = module.types[typeIndex]?) :
    state.module.plan { configuration with verify := verify } typeIndex =
      module.plan configuration typeIndex := by
  unfold Module.plan
  rw [here]
  rfl

/-- What holds between two types: those that wait are the original ones, without a prelude, and every
method verifies or is an original one. -/
structure Pass (module : Module) (names : RuntimeNames) (waiting : List Nat)
    (state : WeavingState) : Prop where
  distinct : waiting.Nodup
  inside : ∀ typeIndex ∈ waiting, typeIndex < module.types.length
  name : state.module.name = module.name
  headers : state.module.types.map TypeDef.header = module.types.map TypeDef.header
  shaped : state.module.Shaped names
  waits : ∀ typeIndex ∈ waiting, state.module.types[typeIndex]? = module.types[typeIndex]? ∧
    ∀ index, state.cursor typeIndex index = 0
  woven : ∀ typeIndex index method, state.module.methodAt? typeIndex index = some method →
    method.verify = .ok () ∨ module.methodAt? typeIndex index = some method

private theorem pass_initial (weavable : Weavable resolver configuration module) :
    Pass module configuration.runtime module.baseFirstOrder (.initial module) where
  distinct := (List.mergeSort_perm _ _).nodup_iff.mpr List.nodup_range
  inside _ member := List.mem_range.mp ((List.mergeSort_perm _ _).mem_iff.mp member)
  name := rfl
  headers := rfl
  shaped := weavable.target
  waits _ _ := ⟨rfl, fun _ => rfl⟩
  woven _ _ _ found := .inr found

section Pass

variable {waiting : List Nat} (weavable : Weavable resolver configuration module)
  (addressable : Addressable resolver configuration module)
  (pass : Pass module configuration.runtime (typeIndex :: waiting) state)

include weavable addressable pass

private theorem Pass.prepared (found : module.types[typeIndex]? = some original) :
    Prepared original typeIndex (fun _ => 7 * (module.plan configuration typeIndex).length)
      { state with touched := [] } original := by
  obtain ⟨here, cursors⟩ := pass.waits typeIndex List.mem_cons_self
  have member := List.mem_of_getElem? found
  exact {
    here := here.trans found
    header := rfl
    touched := fun _ touched => by cases touched
    untouched := fun _ _ => rfl
    headers := rfl
    constructors := by
      intro index method body stored constructs has
      have listed := List.mem_of_getElem? stored
      have verified := weavable.constructors original member method listed constructs
      rw [MethodDef.verify, has] at verified
      refine ⟨verified, ?_, addressable.constructors typeIndex original found method listed
        constructs body has⟩
      change Reachable body method.shape ⟨state.cursor typeIndex index, 0⟩
      rw [cursors index]
      exact .start }

/-- The tasks of a type that has waited: its touched methods verify, and the others still wait. -/
theorem Pass.runPlan
    (ran : WeavingState.runPlan resolver configuration module state typeIndex = .ok after) :
    (∃ original type, Changed original typeIndex after type) ∧
      Pass module configuration.runtime waiting after := by
  obtain ⟨fresh, distinct⟩ := List.nodup_cons.mp pass.distinct
  obtain ⟨inside, others⟩ := List.forall_mem_cons.mp pass.inside
  have found := List.getElem?_eq_getElem inside
  have elsewhere := elsewhere_foldlM (fun _ planned => Module.typeIndex_of_mem_plan planned) ran
  obtain ⟨type, changed, target⟩ := (pass.prepared weavable addressable found).runPlan weavable
    addressable found pass.shaped pass.name pass.headers ran
  refine ⟨⟨_, type, changed⟩, ?_⟩
  exact {
    distinct := distinct
    inside := others
    name := elsewhere.name.trans pass.name
    headers := elsewhere.headers.trans pass.headers
    shaped := target
    waits := by
      intro other member
      have different : other ≠ typeIndex := fun same => fresh (same ▸ member)
      obtain ⟨here, cursors⟩ := pass.waits other (List.mem_cons_of_mem _ member)
      exact ⟨(elsewhere.types other different).trans here,
        fun index => (elsewhere.cursors other different index).trans (cursors index)⟩
    woven := by
      intro other index method there
      by_cases own : other = typeIndex
      · subst own
        have there : type.methods[index]? = some method := by
          simpa [Module.methodAt?, changed.here] using there
        by_cases touched : index ∈ after.touched
        · exact .inl (changed.touched index touched method there)
        · rw [changed.untouched index touched] at there
          exact .inr (by simpa [Module.methodAt?, found] using there)
      · rw [Module.methodAt?, elsewhere.types other own] at there
        exact pass.woven other index method there }

/-- A type that has waited is woven by its tasks; the check after them makes no difference. -/
theorem Pass.weaveType (verify : Bool) :
    WeavingState.weaveType resolver { configuration with verify := verify } state typeIndex =
      WeavingState.runPlan resolver configuration module state typeIndex := by
  have here := (pass.waits typeIndex List.mem_cons_self).1
  unfold WeavingState.weaveType
  simp only [plan_congr verify here, runTask_verify]
  change WeavingState.runPlan resolver configuration module state typeIndex >>= _ = _
  cases ran : WeavingState.runPlan resolver configuration module state typeIndex with
  | error error => rfl
  | ok after =>
      obtain ⟨⟨original, type, changed⟩, _⟩ := pass.runPlan weavable addressable ran
      cases verify with
      | false => rfl
      | true => simp [changed.verifyTouched]

end Pass

private theorem Pass.weaveTypes {waiting : List Nat}
    (weavable : Weavable resolver configuration module)
    (addressable : Addressable resolver configuration module)
    (pass : Pass module configuration.runtime waiting state) (verify : Bool) :
    waiting.foldlM (WeavingState.weaveType resolver { configuration with verify := verify })
        state =
      waiting.foldlM (WeavingState.runPlan resolver configuration module) state := by
  induction waiting generalizing state with
  | nil => rfl
  | cons typeIndex waiting hypothesis =>
      rw [List.foldlM_cons, List.foldlM_cons, pass.weaveType weavable addressable verify]
      cases ran : WeavingState.runPlan resolver configuration module state typeIndex with
      | error error => rfl
      | ok between => exact hypothesis (pass.runPlan weavable addressable ran).2

private theorem runPlan_avoids (state : WeavingState) (typeIndex : Nat) :
    Outcome.Avoids WeaveError.IsVerification
      (runPlan resolver configuration module state typeIndex) :=
  .foldlM fun task _ state => runTask_avoids resolver configuration state task

end WeavingState

namespace Module

variable {resolver : Resolver} {configuration : Configuration} {module : Module}

private theorem weave_eq (weavable : Weavable resolver configuration module)
    (addressable : Addressable resolver configuration module) (verify : Bool) :
    module.weave resolver { configuration with verify := verify } =
      if module.isInstrumented then
        .ok (module, { WeaveReport.initial module.name with alreadyInstrumented := true })
      else do
        let state ← module.baseFirstOrder.foldlM
          (WeavingState.runPlan resolver configuration module) (WeavingState.initial module)
        return (state.module.markInstrumented, state.report) := by
  rw [weave, (WeavingState.pass_initial weavable).weaveTypes weavable addressable verify]

/-- Synthesized code verifies. Checking the outcome changes nothing and never fails, and a woven
method verifies unless it is one that was there before and no constructor. -/
theorem weave_verified (weavable : Weavable resolver configuration module)
    (addressable : Addressable resolver configuration module) :
    (∀ error, module.weave resolver { configuration with verify := true } ≠
      .error (.verification error)) ∧
    module.weave resolver { configuration with verify := true } =
      module.weave resolver { configuration with verify := false } ∧
    ∀ woven report, module.weave resolver configuration = .ok (woven, report) →
      ∀ typeIndex index method, woven.methodAt? typeIndex index = some method →
        method.verify = .ok () ∨
          module.methodAt? typeIndex index = some method ∧ method.isConstructor = false := by
  refine ⟨fun error fails => ?_, ?_, fun woven report succeeds typeIndex index method found => ?_⟩
  · rw [weave_eq weavable addressable true] at fails
    split at fails
    · cases fails
    · have avoids : Outcome.Avoids WeaveError.IsVerification (do
          let state ← module.baseFirstOrder.foldlM
            (WeavingState.runPlan resolver configuration module) (WeavingState.initial module)
          return (state.module.markInstrumented, state.report)) :=
        (Outcome.Avoids.foldlM fun typeIndex _ state =>
          WeavingState.runPlan_avoids state typeIndex).bind fun _ => .ok _
      exact avoids _ fails trivial
  · rw [weave_eq weavable addressable true, weave_eq weavable addressable false]
  · have unchanged : module.methodAt? typeIndex index = some method → method.verify = .ok () ∨
        module.methodAt? typeIndex index = some method ∧ method.isConstructor = false := by
      intro there
      obtain ⟨type, stored, listed⟩ := Option.bind_eq_some_iff.mp there
      cases constructs : method.isConstructor with
      | false => exact .inr ⟨there, rfl⟩
      | true => exact .inl (weavable.constructors type (List.mem_of_getElem? stored) method
          (List.mem_of_getElem? listed) constructs)
    have succeeds := (weave_eq weavable addressable configuration.verify).symm.trans succeeds
    split at succeeds
    · obtain ⟨rfl, -⟩ := Prod.mk.inj (Except.ok.inj succeeds)
      exact unchanged found
    · obtain ⟨state, ran, done⟩ := Outcome.bind_eq_ok.mp succeeds
      obtain ⟨rfl, -⟩ := Prod.mk.inj (Except.ok.inj done)
      have pass := Outcome.foldlM_invariant (WeavingState.Pass module configuration.runtime)
        (fun _ _ _ _ pass ran => (pass.runPlan weavable addressable ran).2)
        (WeavingState.pass_initial weavable) ran
      exact (pass.woven typeIndex index method found).elim .inl unchanged

/-! A module to weave: the counter is an entity of the runtime with a mapped property, identifiers,
and a constructor that jumps back to its start. -/

def sample (name : String) (types : List TypeDef) : Module :=
  ⟨expectedMagic, expectedVersion, 0, name, [], types, []⟩

def sampleMethod (name : String) (returnType : TypeSig) (parameters : List TypeSig)
    (body : Option MethodBody) : MethodDef :=
  ⟨name, MethodFlag.publicAccess, returnType, parameters.map fun type => ⟨"value", type⟩, [], [],
    body⟩

def sampleRuntimeType (qualifier name : String) (genericParameters : List String)
    (methods : List MethodDef) : TypeDef :=
  ⟨qualifier, name, 0, none, genericParameters, [], methods, [], []⟩

def sampleMapping : TypeSig :=
  .instantiated ⟨none, "Semweave.Mapping", "PropertyMapping`1"⟩ false [.typeParameter "T"]

def sampleEntityType : TypeDef :=
  sampleRuntimeType "Semweave" "Entity" []
    [sampleMethod "GetValue" (.typeParameter "T") [sampleMapping] none,
     sampleMethod "SetValue" (.builtin .void) [sampleMapping, .typeParameter "T"] none,
     sampleMethod "RaisePropertyChanged" (.builtin .void) [.builtin .string] none,
     { sampleMethod "GetTypes" (.array (.classType ⟨none, "Semweave", "Class"⟩)) [] none with
        flags := MethodFlag.publicAccess ||| MethodFlag.virtual }]

def sampleMappingType : TypeDef :=
  sampleRuntimeType "Semweave.Mapping" "PropertyMapping`1" ["T"]
    [sampleMethod MethodDef.constructorName (.builtin .void) [.builtin .string, .builtin .string]
      none]

def sampleRuntime : Module :=
  sample "Semweave.Runtime"
    [sampleEntityType, sampleMappingType,
     sampleRuntimeType "Semweave" "Class" []
      [sampleMethod MethodDef.constructorName (.builtin .void) [.builtin .string] none]]

def sampleAttribute (name identifier : String) : Attribute :=
  ⟨⟨some "Semweave.Runtime", "Semweave.Mapping", name⟩, [.string identifier]⟩

def sampleCount : PropertyDef :=
  ⟨"Count", .builtin .int32, some 0, some 1, [sampleAttribute "RdfPropertyAttribute" "urn:count"]⟩

def sampleSize : PropertyDef :=
  ⟨"Size", .builtin .int32, some 1, none, [sampleAttribute "RdfPropertyAttribute" "urn:size"]⟩

def sampleCounter : TypeDef where
  qualifier := "Demo"
  name := "Counter"
  flags := 0
  base := some (.classType ⟨some "Semweave.Runtime", "Semweave", "Entity"⟩)
  genericParameters := []
  fields := []
  methods :=
    [{ sampleMethod "get_Count" (.builtin .int32) [] none with
        flags := MethodFlag.compilerControlled },
     { sampleMethod "set_Count" (.builtin .void) [.builtin .int32] none with
        flags := MethodFlag.compilerControlled },
     sampleMethod MethodDef.constructorName (.builtin .void) [.builtin .bool]
      (some (.ofCode 1 [Opcode.ldarg1.plain, ⟨.brtrue, .branch 0⟩, Opcode.ret.plain]))]
  properties := [sampleCount]
  attributes := [sampleAttribute "RdfClassAttribute" "urn:counter"]

def sampleModule : Module := sample "App" [sampleCounter]

def sampleResolver : Resolver := Resolver.empty.register sampleRuntime

theorem weavable_sampleModule : Weavable sampleResolver {} sampleModule where
  constructors := by decide
  accessors := by
    have ordinary : ∀ type ∈ sampleModule.types, ∀ property ∈ type.properties,
        ∀ index ∈ property.accessors, ∀ method ∈ type.methods[index]?,
          method.isConstructor = false := by decide
    exact ordinary
  planned := by
    intro type member index planned property found
    obtain rfl := List.mem_singleton.mp member
    obtain rfl : index = 0 := List.mem_singleton.mp planned
    obtain rfl := Option.some.inj found
    refine ⟨?_, ?_⟩ <;> rintro index ⟨⟩ method ⟨⟩ <;> decide
  target := by decide
  runtime := by
    intro name other found
    have modules : ∀ named ∈ sampleResolver.modules, ∀ type ∈ named.2.types,
        ∀ method ∈ type.methods, RuntimeShape ({} : RuntimeNames) method := by decide
    obtain ⟨before, after, split, -⟩ := List.lookup_eq_some_iff.mp found
    exact modules (name, other) (split ▸ List.mem_append_right before List.mem_cons_self)

private theorem addressable_sampleModule : Addressable sampleResolver {} sampleModule where
  constructors := by
    intro typeIndex type found method member _ body has
    obtain ⟨inside, -⟩ := List.getElem?_eq_some_iff.mp found
    obtain rfl : typeIndex = 0 := Nat.lt_one_iff.mp inside
    have short : ∀ type ∈ sampleModule.types, ∀ method ∈ type.methods, ∀ body ∈ method.body,
        body.instructions.length + 7 * (sampleModule.plan {} 0).length < 2 ^ 64 := by decide
    exact short type (List.mem_of_getElem? found) method member body has
  queries := by
    intro typeIndex type found
    have short : ∀ type ∈ sampleModule.types,
        5 * (WeavingContext.ofModule sampleModule sampleResolver {}).identifierCount ⟨type, none⟩ +
          6 < 2 ^ 64 := by decide
    exact short type (List.mem_of_getElem? found)

theorem weave_verified_sampleModule :
    Weavable sampleResolver {} sampleModule ∧ Addressable sampleResolver {} sampleModule ∧
      (∀ error, sampleModule.weave sampleResolver {} ≠ .error (.verification error)) ∧
      sampleModule.weave sampleResolver {} = sampleModule.weave sampleResolver { verify := false } :=
  have verified := weave_verified weavable_sampleModule addressable_sampleModule
  ⟨weavable_sampleModule, addressable_sampleModule, verified.1, verified.2.1⟩

end Module

end PropertyWeaver
