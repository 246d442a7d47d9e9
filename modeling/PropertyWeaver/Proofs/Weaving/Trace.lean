import PropertyWeaver.Proofs.Weaving.Commutation
import PropertyWeaver.Proofs.Weaving.Reach

/-!
# The tasks of a pass

A pass that succeeds runs the tasks of all types, one behind the other, as they are planned for the
original types. A task either leaves everything as it is, or it makes its edits and adds one member to the
report. So the members tell, in order, which tasks have made edits.
-/

set_option autoImplicit false

namespace PropertyWeaver

/-- A task that has run: the edits that it has made, and the state that it has left. -/
structure TaskRun where
  task : Task
  edits : List Edit
  after : WeavingState

def TaskRun.edited (run : TaskRun) : Bool := !run.edits.isEmpty

/-- Tasks that run one behind the other from one state to another. A task is idle if it does not apply or
asks for no edits. At the start of a visit no method of the type has been touched. -/
inductive Performs (resolver : Resolver) (configuration : Configuration) :
    WeavingState → List TaskRun → WeavingState → Prop where
  | done {state} : Performs resolver configuration state [] state
  | visit {state runs after} :
      Performs resolver configuration { state with touched := [] } runs after →
      Performs resolver configuration state runs after
  | idle {state task runs after} :
      task.Quiet resolver configuration state.module →
      Performs resolver configuration state runs after →
      Performs resolver configuration state (⟨task, [], state⟩ :: runs) after
  | edits {state task edit runs after} :
      task.canExecute (.ofModule state.module resolver configuration) = true →
      task.execute (.ofModule state.module resolver configuration) = .ok edit →
      edit.edits ≠ [] →
      Performs resolver configuration (state.apply edit) runs after →
      Performs resolver configuration state (⟨task, edit.edits, state.apply edit⟩ :: runs) after

variable {resolver : Resolver} {configuration : Configuration}

namespace Performs

variable {before between after : WeavingState} {runs runs' : List TaskRun}

private theorem append (first : Performs resolver configuration before runs between)
    (rest : Performs resolver configuration between runs' after) :
    Performs resolver configuration before (runs ++ runs') after := by
  induction first with
  | done => exact rest
  | visit _ hypothesis => exact .visit (hypothesis rest)
  | idle quiet _ hypothesis => exact .idle quiet (hypothesis rest)
  | edits applies executed asks _ hypothesis => exact .edits applies executed asks (hypothesis rest)

/-- What every start of a visit and every task with edits keeps up holds at the end. -/
theorem invariant {holds : WeavingState → Prop}
    (visits : ∀ state : WeavingState, holds state → holds { state with touched := [] })
    (works : ∀ (state : WeavingState) (task : Task) (edit : TypeEdit), holds state →
      task.canExecute (.ofModule state.module resolver configuration) = true →
      task.execute (.ofModule state.module resolver configuration) = .ok edit →
      edit.edits ≠ [] → holds (state.apply edit))
    (performs : Performs resolver configuration before runs after) (start : holds before) :
    holds after := by
  induction performs with
  | done => exact start
  | visit _ hypothesis => exact hypothesis (visits _ start)
  | idle _ _ hypothesis => exact hypothesis start
  | edits applies executed asks _ hypothesis =>
      exact hypothesis (works _ _ _ start applies executed asks)

end Performs

/-! ## The order of the tasks -/

namespace WeavingState

variable {module : Module} {waiting : List Nat} {state after : WeavingState} {tasks : List Task}

private theorem exists_performs
    (ran : tasks.foldlM (runTask resolver configuration) state = .ok after) :
    ∃ runs, Performs resolver configuration state runs after ∧ runs.map TaskRun.task = tasks := by
  induction tasks generalizing state with
  | nil =>
      obtain rfl := Except.ok.inj ran
      exact ⟨[], .done, rfl⟩
  | cons task tasks hypothesis =>
      rw [List.foldlM_cons] at ran
      obtain ⟨between, executed, rest⟩ := Outcome.bind_eq_ok.mp ran
      obtain ⟨runs, performs, order⟩ := hypothesis rest
      rcases runTask_cases executed with ⟨rfl, quiet⟩ | ⟨edit, applies, rewrites, asks, rfl⟩
      · exact ⟨_, .idle quiet performs, congrArg (task :: ·) order⟩
      · exact ⟨_, .edits applies rewrites asks performs, congrArg (task :: ·) order⟩

/-- Visits to types that have waited run the tasks that are planned for the original types. -/
theorem Waiting.exists_performs (waits : Waiting module waiting state)
    (ran : waiting.foldlM (WeavingState.weaveType resolver configuration) state = .ok after) :
    ∃ runs, Performs resolver configuration state runs after ∧
      runs.map TaskRun.task = waiting.flatMap (module.plan configuration) := by
  induction waiting generalizing state with
  | nil =>
      obtain rfl := Except.ok.inj ran
      exact ⟨[], .done, rfl⟩
  | cons type waiting hypothesis =>
      rw [List.foldlM_cons] at ran
      obtain ⟨between, visited, rest⟩ := Outcome.bind_eq_ok.mp ran
      obtain ⟨runs, first, order⟩ := WeavingState.exists_performs (waits.runPlan visited)
      obtain ⟨runs', performs, order'⟩ := hypothesis (waits.weaveType visited) rest
      refine ⟨runs ++ runs', .append (.visit first) performs, ?_⟩
      rw [List.map_append, order, order', List.flatMap_cons]

end WeavingState

theorem Module.exists_performs {module woven : Module} {report : WeaveReport}
    (fresh : module.isInstrumented = false)
    (weaves : module.weave resolver configuration = .ok (woven, report)) :
    ∃ runs state, Performs resolver configuration (.initial module) runs state ∧
      woven = state.module.markInstrumented ∧ report = state.report ∧
      runs.map TaskRun.task = module.baseFirstOrder.flatMap (module.plan configuration) := by
  rcases weave_eq_ok weaves with ⟨instrumented, -⟩ | ⟨-, state, ran, rfl, rfl⟩
  · rw [fresh] at instrumented
    cases instrumented
  · obtain ⟨runs, performs, order⟩ := (WeavingState.waiting_initial module).exists_performs ran
    exact ⟨runs, state, performs, rfl, rfl, order⟩

/-! ## The members -/

namespace Task

/-- What a task rewrites in its type: a property or the query. -/
def subject? (configuration : Configuration) (module : Module) : Task → Option String
  | .mappedProperty type property | .changeNotification type property =>
      (module.types[type]?.bind fun definition => definition.properties[property]?).map PropertyDef.name
  | .typeHierarchy _ => some configuration.runtime.typeQuery

/-- The entry that tells of a task: its kind, its type and what it rewrites there. -/
structure ReportedBy (configuration : Configuration) (module : Module) (task : Task)
    (member : WovenMember) : Prop where
  kind : member.task = task.kind
  owner : module.types[task.typeIndex]?.map TypeDef.fullName = some member.typeName
  subject : task.subject? configuration module = some member.member

variable {module module' : Module} {task : Task} {member : WovenMember}

private theorem ReportedBy.of_headers (reported : task.ReportedBy configuration module' member)
    (same : module'.types.map TypeDef.header = module.types.map TypeDef.header) :
    task.ReportedBy configuration module member := by
  have through : ∀ {α : Type} (read : TypeDef → Option α) (blind : ∀ type, read type = read type.header)
      (index : Nat), module.types[index]?.bind read = module'.types[index]?.bind read := by
    intro α read blind index
    have headers := congrArg (fun headers => headers[index]?.bind read) same.symm
    simpa only [List.getElem?_map, Option.bind_map, Function.comp_def, ← blind] using headers
  refine ⟨reported.kind, ?_, ?_⟩
  · rw [Option.map_eq_bind, through _ fun _ => rfl, ← Option.map_eq_bind]
    exact reported.owner
  · rw [← reported.subject]
    cases task with
    | mappedProperty type property | changeNotification type property =>
        exact congrArg (Option.map PropertyDef.name) (through _ (fun _ => rfl) type)
    | typeHierarchy type => rfl

variable {edit : TypeEdit}

/-- A task that has edits is reported. -/
theorem exists_reportedBy
    (executed : task.execute (.ofModule module resolver configuration) = .ok edit)
    (asks : edit.edits ≠ []) :
    ∃ member, edit.woven = some member ∧ task.ReportedBy configuration module member := by
  have owner : ∀ {index : Nat} {located : LocatedType},
      (WeavingContext.ofModule module resolver configuration).targetType index = .ok located →
      module.types[index]? = some located.definition ∧
        module.types[index]?.map TypeDef.fullName = some located.fullName := by
    intro index located here
    have found := (WeavingContext.targetType_eq_ok.mp here).1
    exact ⟨found, congrArg (Option.map TypeDef.fullName) found⟩
  cases task with
  | mappedProperty type property =>
      rcases WeavingContext.mapProperty_eq_ok executed with rfl | ⟨located, declared, identifier, mapping,
        here, listed, -, -, -, -, -, routed⟩
      · exact absurd rfl asks
      · obtain ⟨_, _, _, _, -, -, -, -, rfl⟩ := WeavingContext.routeThrough_eq_ok routed
        refine ⟨_, rfl, rfl, (owner here).2, ?_⟩
        rw [subject?, (owner here).1, Option.bind_some, WeavingContext.propertyOf_eq_ok.mp listed]
        rfl
  | changeNotification type property =>
      rcases WeavingContext.notifyChanges_eq_ok executed with rfl | ⟨located, declared, setter, _, _, here,
        listed, -, -, -, -, rfl⟩
      · exact absurd rfl asks
      · refine ⟨_, rfl, rfl, (owner here).2, ?_⟩
        rw [subject?, (owner here).1, Option.bind_some, WeavingContext.propertyOf_eq_ok.mp listed]
        rfl
  | typeHierarchy type =>
      rcases WeavingContext.overrideQuery_eq_ok executed with rfl | ⟨located, _, _, _, _, here, -, -, -, -,
        rfl⟩
      · exact absurd rfl asks
      · exact ⟨_, rfl, rfl, (owner here).2, rfl⟩

end Task

/-- Every task that makes an edit adds the entry that tells of it, and no other task adds any. -/
theorem Performs.members {module : Module} {before after : WeavingState} {runs : List TaskRun}
    (performs : Performs resolver configuration before runs after)
    (headers : before.module.types.map TypeDef.header = module.types.map TypeDef.header) :
    ∃ members, after.report.members = before.report.members ++ members ∧
      List.Forall₂ (fun run member => run.task.ReportedBy configuration module member)
        (runs.filter TaskRun.edited) members := by
  induction performs with
  | done => exact ⟨[], (List.append_nil _).symm, .nil⟩
  | visit _ hypothesis => exact hypothesis headers
  | idle _ _ hypothesis => exact hypothesis headers
  | @edits state task edit runs after _ executed asks _ hypothesis =>
      obtain ⟨member, woven, reported⟩ := Task.exists_reportedBy executed asks
      obtain ⟨members, appended, rest⟩ :=
        hypothesis ((WeavingState.elsewhere_apply state edit).headers.trans headers)
      refine ⟨member :: members, ?_, ?_⟩
      · rw [appended, WeavingState.members_apply, woven, List.append_assoc]
        rfl
      · rw [List.filter_cons_of_pos (by simpa [TaskRun.edited] using asks)]
        exact .cons (reported.of_headers headers) rest

end PropertyWeaver
