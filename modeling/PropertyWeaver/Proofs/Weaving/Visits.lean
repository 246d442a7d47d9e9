import PropertyWeaver.Proofs.Weaving.Verified

/-!
# The succession of visits

A pass visits every type once. Until then the type is the original one and none of its constructors
has a prelude; from then on it stays as the visit has left it.
-/

set_option autoImplicit false

namespace PropertyWeaver

namespace WeavingState

variable {resolver : Resolver} {configuration : Configuration} {module : Module}
  {type other : Nat} {waiting : List Nat} {state before after : WeavingState}

/-- A visit runs the planned tasks, and the check behind them changes nothing. -/
theorem weaveType_eq_ok :
    weaveType resolver configuration state type = .ok after ↔
      runPlan resolver configuration state.module state type = .ok after ∧
        (configuration.verify = true → after.verifyTouched type = .ok ()) := by
  simp only [weaveType, runPlan, Outcome.bind_eq_ok, Outcome.pure_eq]
  constructor
  · rintro ⟨between, ran, rest⟩
    split at rest
    · obtain ⟨_, checked, same⟩ := Outcome.bind_eq_ok.mp rest
      obtain rfl := Except.ok.inj same
      exact ⟨ran, fun _ => checked⟩
    · next unchecked =>
      obtain rfl := Except.ok.inj rest
      exact ⟨ran, fun verify => absurd verify unchecked⟩
  · rintro ⟨ran, checked⟩
    refine ⟨after, ran, ?_⟩
    split
    · next verify => rw [checked verify, Outcome.ok_bind]
    · rfl

/-- What every task and every start of a visit keeps up, a pass keeps up. -/
theorem invariant_visits {holds : WeavingState → Prop} {types : List Nat}
    (works : ∀ (between : WeavingState) (task : Task) (edit : TypeEdit), holds between →
      task.execute (.ofModule between.module resolver configuration) = .ok edit →
      holds (between.apply edit))
    (visits : ∀ between : WeavingState, holds between → holds { between with touched := [] })
    (start : holds before)
    (ran : types.foldlM (WeavingState.weaveType resolver configuration) before = .ok after) :
    holds after := by
  have task : ∀ (task : Task) (between next : WeavingState), holds between →
      runTask resolver configuration between task = .ok next → holds next := by
    intro task between next held ran
    rcases runTask_eq_ok ran with rfl | ⟨edit, executed, rfl⟩
    · exact held
    · exact works between task edit held executed
  refine Outcome.foldlM_invariant (fun _ state => holds state)
    (fun type _ state next held visited => ?_) start ran
  exact Outcome.foldlM_invariant (fun _ state => holds state)
    (fun item _ between next held ran => task item between next held ran) (visits state held)
    (weaveType_eq_ok.mp visited).1

theorem preserves_visits {holds : Module → Prop} {types : List Nat}
    (preserved : ∀ (between : WeavingState) (task : Task) (edit : TypeEdit), holds between.module →
      task.execute (.ofModule between.module resolver configuration) = .ok edit →
      ∀ change ∈ edit.edits, ∀ state : WeavingState, holds state.module →
        holds (applyEdit edit.type state change).module)
    (start : holds before.module)
    (ran : types.foldlM (WeavingState.weaveType resolver configuration) before = .ok after) :
    holds after.module := by
  refine @invariant_visits _ _ _ _ (fun state => holds state.module) _ ?_ (fun _ held => held) start ran
  intro between task edit held executed
  exact List.foldlRecOn edit.edits (applyEdit edit.type)
    (motive := fun state => holds state.module) held
    fun state kept change member => preserved between task edit held executed change member state kept

private theorem elsewhere_runPlan
    (ran : runPlan resolver configuration module state type = .ok after) :
    Elsewhere type state after := by
  have own : ∀ task ∈ module.plan configuration type, task.typeIndex = type :=
    fun _ planned => Module.typeIndex_of_mem_plan planned
  obtain ⟨name, headers, types, cursors⟩ := elsewhere_foldlM own ran
  exact ⟨name, headers, types, cursors⟩

theorem elsewhere_weaveType
    (visited : weaveType resolver configuration state type = .ok after) :
    Elsewhere type state after :=
  elsewhere_runPlan (weaveType_eq_ok.mp visited).1

/-- Visits to other types leave a type alone. -/
theorem types_of_visits
    (ran : waiting.foldlM (weaveType resolver configuration) before = .ok after)
    (absent : other ∉ waiting) : after.module.types[other]? = before.module.types[other]? := by
  refine (Outcome.foldlM_invariant (fun rest state =>
    other ∉ rest ∧ state.module.types[other]? = before.module.types[other]?)
    ?_ ⟨absent, rfl⟩ ran).2
  rintro type rest state next ⟨absent, same⟩ visited
  obtain ⟨different, absent⟩ := not_or.mp (mt List.mem_cons.mpr absent)
  exact ⟨absent, ((elsewhere_weaveType visited).types other different).trans same⟩

/-- What holds between two visits: the types that wait are the original ones, and no prelude has been
put into them. -/
structure Waiting (module : Module) (waiting : List Nat) (state : WeavingState) : Prop where
  distinct : waiting.Nodup
  name : state.module.name = module.name
  headers : state.module.types.map TypeDef.header = module.types.map TypeDef.header
  waits : ∀ type ∈ waiting, state.module.types[type]? = module.types[type]? ∧
    ∀ index, state.cursors (type, index) = 0

theorem waiting_initial (module : Module) :
    Waiting module module.baseFirstOrder (.initial module) where
  distinct := (List.mergeSort_perm _ _).nodup_iff.mpr List.nodup_range
  name := rfl
  headers := rfl
  waits _ _ := ⟨rfl, fun _ => rfl⟩

theorem Waiting.weaveType (waits : Waiting module (type :: waiting) state)
    (visited : weaveType resolver configuration state type = .ok after) :
    Waiting module waiting after := by
  obtain ⟨fresh, distinct⟩ := List.nodup_cons.mp waits.distinct
  have elsewhere := elsewhere_weaveType visited
  refine ⟨distinct, elsewhere.name.trans waits.name, elsewhere.headers.trans waits.headers, ?_⟩
  intro other member
  have different : other ≠ type := fun same => fresh (same ▸ member)
  obtain ⟨here, cursors⟩ := waits.waits other (List.mem_cons_of_mem _ member)
  exact ⟨(elsewhere.types other different).trans here,
    fun index => (elsewhere.cursors other different index).trans (cursors index)⟩

/-- The tasks that a visit runs are those planned for the original type. -/
theorem Waiting.runPlan (waits : Waiting module (type :: waiting) state)
    (visited : WeavingState.weaveType resolver configuration state type = .ok after) :
    runPlan resolver configuration module state type = .ok after := by
  have ran := (weaveType_eq_ok.mp visited).1
  have here := (waits.waits type List.mem_cons_self).1
  have planned : state.module.plan configuration type = module.plan configuration type :=
    plan_congr configuration.verify here
  rw [WeavingState.runPlan, planned] at ran
  exact ran

end WeavingState

namespace Module

variable {resolver : Resolver} {configuration : Configuration} {module woven : Module}
  {report : WeaveReport}

theorem mem_baseFirstOrder {type : Nat} :
    type ∈ module.baseFirstOrder ↔ type < module.types.length :=
  (List.mergeSort_perm _ _).mem_iff.trans List.mem_range

theorem weave_of_order {types : List Nat} (fresh : module.isInstrumented = false)
    (order : module.baseFirstOrder = types) :
    module.weave resolver configuration =
      (types.foldlM (WeavingState.weaveType resolver configuration) (.initial module) >>=
        fun state => .ok (state.module.markInstrumented, state.report)) := by
  rw [weave, if_neg (by simp [fresh]), order]
  rfl

/-- Weaving returns an instrumented module as it is. Otherwise it visits the types in order. -/
theorem weave_eq_ok (weaves : module.weave resolver configuration = .ok (woven, report)) :
    (module.isInstrumented = true ∧ woven = module) ∨
      module.isInstrumented = false ∧ ∃ state : WeavingState,
        module.baseFirstOrder.foldlM (WeavingState.weaveType resolver configuration)
          (WeavingState.initial module) = .ok state ∧
        woven = state.module.markInstrumented ∧ report = state.report := by
  unfold weave at weaves
  split at weaves
  · next instrumented =>
    obtain ⟨rfl, -⟩ := Prod.mk.inj (Except.ok.inj weaves)
    exact .inl ⟨instrumented, rfl⟩
  · next fresh =>
    obtain ⟨state, ran, done⟩ := Outcome.bind_eq_ok.mp weaves
    obtain ⟨rfl, rfl⟩ := Prod.mk.inj (Except.ok.inj done)
    exact .inr ⟨by simpa using fresh, state, ran, rfl, rfl⟩

end Module

end PropertyWeaver
