import PropertyWeaver.Proofs.Weaving.MethodStates
import PropertyWeaver.Proofs.Weaving.Visits

/-!
# Verified in, verified out

The check after the tasks of a type covers every body that they have changed. Nothing is asked of the
runtime here: a pass that checks and succeeds has changed or added verified methods only.
-/

set_option autoImplicit false

namespace PropertyWeaver

private theorem Module.verify_eq_ok {module : Module} :
    module.verify = .ok () ↔ ∀ typeIndex index method,
      module.methodAt? typeIndex index = some method → method.verify = .ok () := by
  simp only [Module.verify, Outcome.forM_eq_ok, TypeDef.verifyMethod, Outcome.mapError_eq_ok]
  constructor
  · intro verified typeIndex index method found
    obtain ⟨type, stored, listed⟩ := WeavingState.methodAt?_eq_some.mp found
    exact verified type (List.mem_of_getElem? stored) method (List.mem_of_getElem? listed)
  · intro verified type member method listed
    obtain ⟨typeIndex, stored⟩ := List.mem_iff_getElem?.mp member
    obtain ⟨index, found⟩ := List.mem_iff_getElem?.mp listed
    exact verified typeIndex index method
      (WeavingState.methodAt?_eq_some.mpr ⟨type, stored, found⟩)

namespace WeavingState

variable {resolver : Resolver} {configuration : Configuration} {module : Module}
  {type : Nat} {state before between after : WeavingState}

/-- What the edits of a type leave alone in it: the methods that are not among the touched ones. -/
structure Untouched (type : Nat) (before after : WeavingState) : Prop where
  touched : before.touched ⊆ after.touched
  methods : ∀ index, index ∉ after.touched →
    after.module.methodAt? type index = before.module.methodAt? type index

private theorem Untouched.refl (type : Nat) (state : WeavingState) : Untouched type state state :=
  ⟨fun _ member => member, fun _ _ => rfl⟩

private theorem Untouched.trans (first : Untouched type before between)
    (second : Untouched type between after) : Untouched type before after where
  touched := List.Subset.trans first.touched second.touched
  methods index fresh :=
    (second.methods index fresh).trans
      (first.methods index fun touched => fresh (second.touched touched))

private theorem untouched_applyEdit (type : Nat) (state : WeavingState) (edit : Edit) :
    Untouched type state (applyEdit type state edit) :=
  ⟨touched_applyEdit edit, fun _ fresh => methodAt?_applyEdit_of_untouched fresh⟩

private theorem untouched_foldl (type : Nat) (edits : List Edit) (state : WeavingState) :
    Untouched type state (edits.foldl (applyEdit type) state) := by
  induction edits generalizing state with
  | nil => exact .refl type state
  | cons edit edits hypothesis =>
      exact (untouched_applyEdit type state edit).trans (hypothesis (applyEdit type state edit))

private theorem untouched_runTask {task : Task}
    (ran : runTask resolver configuration state task = .ok after) :
    Untouched task.typeIndex state after := by
  rcases runTask_eq_ok ran with rfl | ⟨edit, executed, rfl⟩
  · exact .refl _ _
  · rw [← Task.type_of_execute executed]
    obtain ⟨touched, methods⟩ := untouched_foldl edit.type edit.edits state
    exact ⟨touched, methods⟩

theorem untouched_foldlM {tasks : List Task} (own : ∀ task ∈ tasks, task.typeIndex = type)
    (ran : tasks.foldlM (runTask resolver configuration) before = .ok after) :
    Untouched type before after := by
  refine (Outcome.foldlM_invariant (fun rest state =>
    (∀ task ∈ rest, task.typeIndex = type) ∧ Untouched type before state)
    ?_ ⟨own, .refl type before⟩ ran).2
  rintro task rest state next ⟨own, untouched⟩ executed
  obtain ⟨here, others⟩ := List.forall_mem_cons.mp own
  exact ⟨others, untouched.trans (here ▸ untouched_runTask executed)⟩

/-- A check that finds nothing has verified every touched method. -/
theorem verify_of_verifyTouched (checked : state.verifyTouched type = .ok ()) {index : Nat}
    {method : MethodDef} (touched : index ∈ state.touched)
    (found : state.module.methodAt? type index = some method) : method.verify = .ok () := by
  obtain ⟨definition, stored, listed⟩ := methodAt?_eq_some.mp found
  simp only [verifyTouched, stored] at checked
  have verified := Outcome.forM_eq_ok.mp checked index touched
  simp only [listed, TypeDef.verifyMethod, Outcome.mapError_eq_ok] at verified
  exact verified

/-- Every method of the module so far is the original one at its place, or it verifies. -/
def Vouched (module : Module) (state : WeavingState) : Prop :=
  ∀ typeIndex index method, state.module.methodAt? typeIndex index = some method →
    module.methodAt? typeIndex index = some method ∨ method.verify = .ok ()

/-- A visit that checks its type vouches for the methods that it has touched. The other methods of
the type, and the other types, are those that it has met. -/
theorem Vouched.weaveType (vouched : Vouched module state) (verify : configuration.verify = true)
    (visited : weaveType resolver configuration state type = .ok after) :
    Vouched module after := by
  obtain ⟨ran, checked⟩ := weaveType_eq_ok.mp visited
  have own : ∀ task ∈ state.module.plan configuration type, task.typeIndex = type :=
    fun _ planned => Module.typeIndex_of_mem_plan planned
  have elsewhere := elsewhere_foldlM own ran
  have untouched := untouched_foldlM own ran
  intro typeIndex index method found
  by_cases here : typeIndex = type
  · subst here
    by_cases touched : index ∈ after.touched
    · exact .inr (verify_of_verifyTouched (checked verify) touched found)
    · rw [untouched.methods index touched] at found
      exact vouched typeIndex index method found
  · rw [Module.methodAt?, elsewhere.types typeIndex here] at found
    exact vouched typeIndex index method found

end WeavingState

namespace Module

variable {resolver : Resolver} {configuration : Configuration} {module woven : Module}
  {report : WeaveReport}

/-- Whatever a checking pass has changed or added verifies. A module that has verified before still
does. -/
theorem weave_preserves_verify (verify : configuration.verify = true)
    (weaves : module.weave resolver configuration = .ok (woven, report)) :
    (module.verify = .ok () → woven.verify = .ok ()) ∧
      ∀ typeIndex index method, woven.methodAt? typeIndex index = some method →
        module.methodAt? typeIndex index ≠ some method → method.verify = .ok () := by
  have vouched : ∀ typeIndex index method, woven.methodAt? typeIndex index = some method →
      module.methodAt? typeIndex index = some method ∨ method.verify = .ok () := by
    rcases weave_eq_ok weaves with ⟨-, rfl⟩ | ⟨-, state, ran, rfl, -⟩
    · exact fun _ _ _ found => .inl found
    · exact Outcome.foldlM_invariant (fun _ state => WeavingState.Vouched module state)
        (fun _ _ _ _ vouched visited => vouched.weaveType verify visited)
        (fun _ _ _ found => .inl found) ran
  constructor
  · intro verified
    refine verify_eq_ok.mpr fun typeIndex index method found => ?_
    rcases vouched typeIndex index method found with original | checked
    · exact verify_eq_ok.mp verified typeIndex index method original
    · exact checked
  · intro typeIndex index method found changed
    exact (vouched typeIndex index method found).resolve_left changed

theorem weave_preserves_verify_sampleModule :
    ∃ woven report, sampleModule.weave sampleResolver {} = .ok (woven, report) ∧
      sampleModule.verify = .ok () ∧ woven.verify = .ok () := by
  have weaves : (sampleModule.weave sampleResolver {}).isOk = true := by decide +kernel
  obtain ⟨⟨woven, report⟩, outcome⟩ := Outcome.exists_of_isOk weaves
  have verified : sampleModule.verify = .ok () := by decide
  exact ⟨woven, report, outcome, verified, (weave_preserves_verify rfl outcome).1 verified⟩

end Module

end PropertyWeaver
