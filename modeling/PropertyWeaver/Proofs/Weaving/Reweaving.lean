import PropertyWeaver.Proofs.Weaving.Settled

/-!
# Weaving again

A pass leaves every type settled. So if the mark of the woven module gets lost, a second pass writes
the setters that are there, and gives the woven module again.
-/

set_option autoImplicit false

namespace PropertyWeaver

variable {resolver : Resolver} {configuration : Configuration}

/-! ## The first pass -/

namespace WeavingState

variable {module : Module} {type : Nat} {waiting : List Nat} {state after : WeavingState}

private theorem flags_applyEdit (type : Nat) (state : WeavingState) (edit : Edit) :
    (applyEdit type state edit).module.flags = state.module.flags := by
  have imported : (state.importScopes edit.scopes).module.flags = state.module.flags := by
    obtain ⟨_, same⟩ := state.module.addReferences_eq edit.scopes
    change (state.module.addReferences edit.scopes).flags = _
    rw [same]
  cases edit with
  | prependToConstructor method block maxStack =>
      simp only [applyEdit, prepend]
      split <;> exact imported
  | _ => exact imported

private theorem flags_runTask {task : Task}
    (ran : runTask resolver configuration state task = .ok after) :
    after.module.flags = state.module.flags := by
  rcases runTask_eq_ok ran with rfl | ⟨edit, -, rfl⟩
  · rfl
  · exact List.foldlRecOn edit.edits (applyEdit edit.type)
      (motive := fun next => next.module.flags = state.module.flags) rfl
      fun next same change _ => (flags_applyEdit edit.type next change).trans same

private theorem flags_weaveType
    (visited : weaveType resolver configuration state type = .ok after) :
    after.module.flags = state.module.flags :=
  Outcome.foldlM_invariant (fun _ next => next.module.flags = state.module.flags)
    (fun _ _ _ _ same executed => (flags_runTask executed).trans same)
    (show ({ state with touched := [] } : WeavingState).module.flags = state.module.flags from rfl)
    (weaveType_eq_ok.mp visited).1

/-- What holds between two visits: the types that have been visited are settled. -/
structure Settling (resolver : Resolver) (configuration : Configuration) (module : Module)
    (waiting : List Nat) (state : WeavingState) : Prop where
  waits : Waiting module waiting state
  flags : state.module.flags = module.flags
  dispatched : state.module.Dispatched
  settled : ∀ type original, type ∉ waiting → module.types[type]? = some original →
    state.module.Settled resolver configuration original type

private theorem settling_initial (dispatched : module.Dispatched) :
    Settling resolver configuration module module.baseFirstOrder (.initial module) where
  waits := waiting_initial module
  flags := rfl
  dispatched := dispatched
  settled _ _ absent found :=
    absurd (Module.mem_baseFirstOrder.mpr (List.getElem?_eq_some_iff.mp found).1) absent

private theorem Settling.weaveType
    (settling : Settling resolver configuration module (type :: waiting) state)
    (listed : type < module.types.length)
    (unclaimed : ∀ definition ∈ module.types, ∀ property ∈ definition.properties,
      TypeDef.mapsProperty configuration property = true →
      definition.field? (configuration.mappingFieldName property.name) = none)
    (runtime : ∀ name other, resolver.find? name = some other → other.Dispatched)
    (visited : WeavingState.weaveType resolver configuration state type = .ok after) :
    Settling resolver configuration module waiting after := by
  refine ⟨settling.waits.weaveType visited, (flags_weaveType visited).trans settling.flags,
    dispatched_weaveType runtime settling.dispatched visited, fun other original absent found => ?_⟩
  by_cases here : other = type
  · subst here
    exact settling.waits.settled found (unclaimed original (List.mem_of_getElem? found))
      settling.dispatched runtime visited
  · exact (settling.settled other original (List.not_mem_cons_of_ne_of_not_mem here absent) found).extends
      (extends_weaveType visited) ((elsewhere_weaveType visited).types other here)

/-! ## The second pass -/

private theorem foldlM_of_quiet {tasks : List Task}
    (quiet : ∀ task ∈ tasks, task.Quiet resolver configuration state.module) :
    tasks.foldlM (runTask resolver configuration) state = .ok state := by
  induction tasks with
  | nil => rfl
  | cons task tasks hypothesis =>
      obtain ⟨here, rest⟩ := List.forall_mem_cons.mp quiet
      rw [List.foldlM_cons, runTask_of_quiet here, Outcome.ok_bind, hypothesis rest]

private theorem verifyTouched_of_verify (verified : ∀ index ∈ state.touched, ∀ method,
      state.module.methodAt? type index = some method → method.verify = .ok ()) :
    state.verifyTouched type = .ok () := by
  unfold verifyTouched
  split
  · rfl
  · next definition found =>
    refine Outcome.forM_eq_ok.mpr fun index member => ?_
    cases listed : definition.methods[index]? with
    | none => rfl
    | some method =>
        have checked := verified index member method
          (methodAt?_eq_some.mpr ⟨definition, found, listed⟩)
        simpa only [TypeDef.verifyMethod, Outcome.mapError_eq_ok] using checked

/-- A visit to a settled type gives the module again. -/
theorem weaveType_of_settled {original : TypeDef}
    (settled : state.module.Settled resolver configuration original type)
    (planned : state.module.plan configuration type = original.tasks configuration type)
    (only : state.report.OnlyNotifies) :
    ∃ after, weaveType resolver configuration state type = .ok after ∧
      after.module = state.module ∧ after.report.OnlyNotifies := by
  obtain ⟨writes, stable, verified, replays⟩ := settled.notifying
  obtain ⟨after, ran, -, same, touched, only⟩ :=
    replays { state with touched := [] } (.refl type state.module) only
  -- the bodies that are written are there already
  rw [stable.rewriteAll] at same
  have mapped : ∀ task ∈ (original.mappedProperties configuration).map (Task.mappedProperty type),
      task.Quiet resolver configuration ({ state with touched := [] } : WeavingState).module :=
    List.forall_mem_map.mpr settled.mapped
  have query : ∀ task ∈ original.queryTasks configuration type,
      task.Quiet resolver configuration after.module := by
    intro task member
    rw [same]
    exact TypeDef.mem_queryTasks member ▸ settled.query (List.ne_nil_of_mem member)
  refine ⟨after, weaveType_eq_ok.mpr ⟨?_, fun verify => ?_⟩, same, only⟩
  · rw [runPlan, planned, TypeDef.tasks, List.foldlM_append, List.foldlM_append, foldlM_of_quiet mapped,
      Outcome.ok_bind, ran, Outcome.ok_bind, foldlM_of_quiet query]
  · refine verifyTouched_of_verify fun index member method found => ?_
    rw [List.append_nil] at touched
    obtain ⟨write, written, rfl⟩ := List.mem_map.mp (touched member)
    exact verified verify write written method (same ▸ found)

private theorem visits_of_settled {types : List Nat}
    (settled : ∀ type ∈ types, ∃ original,
      state.module.Settled resolver configuration original type ∧
        state.module.plan configuration type = original.tasks configuration type)
    (only : state.report.OnlyNotifies) :
    ∃ after, types.foldlM (weaveType resolver configuration) state = .ok after ∧
      after.module = state.module ∧ after.report.OnlyNotifies := by
  induction types generalizing state with
  | nil => exact ⟨state, rfl, rfl, only⟩
  | cons type types hypothesis =>
      obtain ⟨⟨original, here, planned⟩, rest⟩ := List.forall_mem_cons.mp settled
      obtain ⟨between, visited, same, only⟩ := weaveType_of_settled here planned only
      rw [← same] at rest
      obtain ⟨after, visits, again, only⟩ := hypothesis rest only
      exact ⟨after, by rw [List.foldlM_cons, visited, Outcome.ok_bind, visits], again.trans same, only⟩

end WeavingState

namespace Module

variable {module woven : Module} {report : WeaveReport}

private theorem or_and_not_of_clear {flags flag : UInt32} (clear : flags &&& flag = 0) :
    (flags ||| flag) &&& ~~~flag = flags := by
  have bits : flags.toBitVec &&& flag.toBitVec = 0#32 := congrArg UInt32.toBitVec clear
  refine UInt32.toBitVec_inj.mp ?_
  calc (flags.toBitVec ||| flag.toBitVec) &&& ~~~flag.toBitVec
    _ = flags.toBitVec &&& ~~~flag.toBitVec := by simp [BitVec.and_or_distrib_right]
    _ = flags.toBitVec &&& flag.toBitVec ||| flags.toBitVec &&& ~~~flag.toBitVec := by
      rw [bits, BitVec.zero_or]
    _ = flags.toBitVec := by
      rw [← BitVec.and_or_distrib_left, BitVec.or_not_self, BitVec.and_allOnes]

def unmark (module : Module) : Module :=
  { module with flags := module.flags &&& ~~~ModuleFlag.instrumented }

private theorem unmark_markInstrumented (fresh : module.isInstrumented = false) :
    module.markInstrumented.unmark = module := by
  have clear : module.flags &&& ModuleFlag.instrumented = 0 := by
    simpa [isInstrumented, hasFlag] using fresh
  exact congrArg (fun flags => { module with flags := flags }) (or_and_not_of_clear clear)

/-- A second pass over a woven module that has lost its mark gives the woven module again, and makes
notifying setters at most. -/
theorem weave_unmark (fresh : module.isInstrumented = false) (valid : module.validate = .ok ())
    (unclaimed : ∀ definition ∈ module.types, ∀ property ∈ definition.properties,
      TypeDef.mapsProperty configuration property = true →
      definition.field? (configuration.mappingFieldName property.name) = none)
    (dispatched : module.Dispatched)
    (runtime : ∀ name other, resolver.find? name = some other → other.Dispatched)
    (weaves : module.weave resolver configuration = .ok (woven, report)) :
    ∃ again, woven.unmark.weave resolver configuration = .ok (woven, again) ∧
      again.OnlyNotifies := by
  obtain ⟨marked, -⟩ | ⟨-, state, ran, rfl, -⟩ := weave_eq_ok weaves
  · rw [fresh] at marked
    cases marked
  obtain ⟨-, settling⟩ := Outcome.foldlM_invariant (fun waiting state =>
    (∀ type ∈ waiting, type < module.types.length) ∧
      WeavingState.Settling resolver configuration module waiting state)
    (fun type _ _ _ here visited =>
      ⟨(List.forall_mem_cons.mp here.1).2,
        here.2.weaveType (here.1 type List.mem_cons_self) unclaimed runtime visited⟩)
    ⟨fun _ => mem_baseFirstOrder.mp, WeavingState.settling_initial dispatched⟩ ran
  have extended : module.Extends state.module := WeavingState.extends_visits ran
  have same : state.module.isInstrumented = false := by
    rw [← fresh, isInstrumented, isInstrumented, settling.flags]
  have start : (WeavingState.initial state.module).report.OnlyNotifies :=
    ⟨rfl, rfl, rfl, rfl, rfl, fun _ none => by cases none⟩
  have settled : ∀ type ∈ module.baseFirstOrder, ∃ original,
      (WeavingState.initial state.module).module.Settled resolver configuration original type ∧
        state.module.plan configuration type = original.tasks configuration type := by
    intro type member
    have found := List.getElem?_eq_getElem (mem_baseFirstOrder.mp member)
    exact ⟨_, settling.settled type _ List.not_mem_nil found,
      (extended.plan valid type).trans (plan_eq found)⟩
  obtain ⟨again, visits, here, only⟩ := WeavingState.visits_of_settled settled start
  refine ⟨again.report, ?_, only⟩
  rw [unmark_markInstrumented same, weave, same, extended.baseFirstOrder, visits]
  simp [here, WeavingState.initial]

/-! A counter with a limit of its own beside its mapped property. The setter of the limit stores a
field, and it is to notify. -/

def sampleLimitField : FieldRef :=
  ⟨.classType ⟨none, "Demo", "Counter"⟩, "limit", .builtin .int32⟩

def sampleLimit : PropertyDef :=
  ⟨"Limit", .builtin .int32, none, some 3, [sampleAttribute "NotifyPropertyChangedAttribute" ""]⟩

def limitedModule : Module :=
  sample "App" [{ sampleCounter with
    fields := [⟨"limit", FieldFlag.privateAccess, .builtin .int32, []⟩]
    methods := sampleCounter.methods ++
      [{ sampleMethod "set_Limit" (.builtin .void) [.builtin .int32]
          (some (.ofCode 2 [Opcode.ldarg0.plain, Opcode.ldarg1.plain,
            ⟨.stfld, .field sampleLimitField⟩, Opcode.ret.plain])) with
          flags := MethodFlag.compilerControlled }]
    properties := [sampleCount, sampleLimit] }]

example : (((limitedModule.weave sampleResolver {}).toOption.bind fun first =>
    (first.1.unmark.weave sampleResolver {}).toOption).map fun second =>
      second.2.members.map WovenMember.task) = some [.changeNotification] := by decide +kernel

theorem weave_unmark_limitedModule :
    ∃ woven report again, limitedModule.weave sampleResolver {} = .ok (woven, report) ∧
      woven.unmark.weave sampleResolver {} = .ok (woven, again) ∧ again.OnlyNotifies := by
  have weaves : (limitedModule.weave sampleResolver {}).isOk = true := by decide +kernel
  obtain ⟨⟨woven, report⟩, outcome⟩ := Outcome.exists_of_isOk weaves
  have unclaimed : ∀ definition ∈ limitedModule.types, ∀ property ∈ definition.properties,
      TypeDef.mapsProperty {} property = true →
      definition.field? (({} : Configuration).mappingFieldName property.name) = none := by decide
  have dispatched : limitedModule.Dispatched := by
    unfold Dispatched
    decide
  have runtime : ∀ name other, sampleResolver.find? name = some other → other.Dispatched := by
    intro name other found
    have modules : ∀ named ∈ sampleResolver.modules, ∀ type ∈ named.2.types,
        ∀ method ∈ type.methods, method.isStatic = true → method.isVirtual = false := by decide
    obtain ⟨before, after, split, -⟩ := List.lookup_eq_some_iff.mp found
    exact modules (name, other) (split ▸ List.mem_append_right before List.mem_cons_self)
  obtain ⟨again, reweaves, only⟩ :=
    weave_unmark (by decide) (by decide) unclaimed dispatched runtime outcome
  exact ⟨woven, report, again, outcome, reweaves, only⟩

end Module

end PropertyWeaver
