import PropertyWeaver.Proofs.Weaving.Independence
import PropertyWeaver.Proofs.Weaving.ReferenceTable

/-!
# The order of declarations

A visit to a type of a reordered module does what the visit to the same type of the original one does.
The two passes take their visits in different orders, in both of which bases come first. So the results
differ in the order of types, of references and of reported members alone.
-/

set_option autoImplicit false

namespace PropertyWeaver

variable {resolver : Resolver} {configuration : Configuration} {module : Module} {order : List Nat}
  {position index : Nat}

namespace Module

private theorem Extends.permutes {after : Module} (extended : module.Extends after)
    (permutes : order.Perm (List.range module.types.length)) :
    order.Perm (List.range after.types.length) :=
  extended.types.length_eq ▸ permutes

private theorem Extends.distinct {after : Module} (extended : module.Extends after)
    (distinct : (module.types.map TypeDef.fullName).Nodup) :
    (after.types.map TypeDef.fullName).Nodup :=
  TypeDef.fullNames_of_headers extended.headers ▸ distinct

private theorem plan_reorder (permutes : order.Perm (List.range module.types.length))
    (placed : order[position]? = some index) :
    (module.reorder order).plan configuration position =
      (module.plan configuration index).map (Task.moved position) := by
  unfold plan
  rw [types_reorder_of_placed permutes placed]
  cases module.types[index]? with
  | none => rfl
  | some type =>
      simp only [List.map_append, List.map_map]
      congr 1
      split <;> rfl

private theorem references_addReferences_congr {left right : Module} (name : right.name = left.name)
    (listed : right.references = left.references) (scopes : List String) :
    (right.addReferences scopes).references = (left.addReferences scopes).references := by
  induction scopes generalizing left right with
  | nil => exact listed
  | cons scope scopes hypothesis =>
      refine hypothesis ?_ ?_
      · rw [name_addReference, name_addReference, name]
      · rw [references_addReference, references_addReference, knowsScope, knowsScope, name, listed]

private theorem modify_reorder (permutes : order.Perm (List.range module.types.length))
    (placed : order[position]? = some index) (scopes : List String) (change : TypeDef → TypeDef) :
    { module.reorder order with
        references := ((module.reorder order).addReferences scopes).references
        types := (module.reorder order).types.modify position change } =
      reorder { module with
        references := (module.addReferences scopes).references
        types := module.types.modify index change } order := by
  have references : ((module.reorder order).addReferences scopes).references =
      (module.addReferences scopes).references :=
    @references_addReferences_congr module (module.reorder order) rfl rfl scopes
  have types : (module.reorder order).types.modify position change =
      order.filterMap ((module.types.modify index change)[·]?) := by
    refine List.ext_getElem? fun other => ?_
    rw [List.getElem?_modify, types_reorder permutes, getElem?_filterMap fun index listed =>
      ⟨_, List.getElem?_eq_getElem (by
        rw [List.length_modify]
        exact List.mem_range.mp (permutes.mem_iff.mp listed))⟩]
    cases elsewhere : order[other]? with
    | none => rfl
    | some index' =>
        have same : position = other ↔ index = index' := by
          constructor
          · rintro rfl
            exact Option.some.inj (placed.symm.trans elsewhere)
          · rintro rfl
            exact position_unique permutes placed elsewhere
        rw [Option.bind_some, Option.bind_some, List.getElem?_modify]
        simp only [same]
  rw [references, types]
  rfl

private theorem mirrors_reorder (permutes : order.Perm (List.range module.types.length))
    (distinct : (module.types.map TypeDef.fullName).Nodup) (placed : order[position]? = some index) :
    (WeavingContext.ofModule module resolver configuration).Mirrors
      (.ofModule (module.reorder order) resolver configuration) index position where
  configuration := rfl
  own := types_reorder_of_placed permutes placed
  chain _ _ := Metadata.chain_reorder permutes distinct _
  equality? := Metadata.equality?_reorder permutes distinct
  runtimeType fullName host found := by
    refine ⟨host, ?_, rfl, fun parameters _ => ?_⟩
    · rw [← found]
      exact congrArg (orError _) (Metadata.findType?_reorder permutes distinct _ fullName)
    · exact congrArg _ (Metadata.constructor?_reorder permutes distinct host parameters)

end Module

namespace WeavingState

variable {state after : WeavingState}

attribute [ext] WeavingState

def reorder (state : WeavingState) (order : List Nat) : WeavingState where
  module := state.module.reorder order
  cursors key := (order[key.1]?.map fun index => state.cursors (index, key.2)).getD 0
  touched := state.touched
  report := state.report

private theorem reorder_initial (module : Module) (order : List Nat) :
    (initial module).reorder order = initial (module.reorder order) := by
  refine WeavingState.ext rfl (funext fun key => ?_) rfl rfl
  simp only [reorder, initial]
  cases order[key.1]? <;> rfl

section Placed

variable (permutes : order.Perm (List.range state.module.types.length))
  (placed : order[position]? = some index)

include placed

private theorem cursor_reorder : (state.reorder order).cursor position = state.cursor index := by
  funext method
  simp only [cursor, reorder, placed, Option.map_some, Option.getD_some]

include permutes

private theorem applyEdit_reorder (edit : Edit) :
    applyEdit position (state.reorder order) edit = (applyEdit index state edit).reorder order := by
  have own : (state.reorder order).module.types[position]? = state.module.types[index]? :=
    Module.types_reorder_of_placed permutes placed
  refine WeavingState.ext ?_ (funext fun key => ?_) ?_ ?_
  · change _ = (applyEdit index state edit).module.reorder order
    rw [module_applyEdit, module_applyEdit, cursor_reorder placed]
    exact Module.modify_reorder permutes placed edit.scopes _
  · obtain ⟨other, method⟩ := key
    rw [cursors_applyEdit, own, cursor_reorder placed]
    simp only [reorder]
    by_cases here : other = position
    · subst here
      rw [if_pos rfl, placed, Option.map_some, Option.getD_some, cursors_applyEdit, if_pos rfl]
    · rw [if_neg here]
      cases elsewhere : order[other]? with
      | none => rfl
      | some index' =>
          have different : index' ≠ index := fun same =>
            here (Module.position_unique permutes (same ▸ elsewhere) placed)
          rw [Option.map_some, Option.map_some, cursors_applyEdit, if_neg different]
  · change _ = (applyEdit index state edit).touched
    rw [touched_applyEdit_eq, touched_applyEdit_eq, own]
    rfl
  · change _ = (applyEdit index state edit).report
    rw [report_applyEdit, report_applyEdit, own]
    rfl

private theorem apply_reorder {edit : TypeEdit} (here : edit.type = index) :
    (state.reorder order).apply (edit.moved position) = (state.apply edit).reorder order := by
  subst here
  have changes : ∀ (edits : List Edit) {state : WeavingState},
      order.Perm (List.range state.module.types.length) →
        edits.foldl (applyEdit position) (state.reorder order) =
          (edits.foldl (applyEdit edit.type) state).reorder order := by
    intro edits
    induction edits with
    | nil => exact fun _ => rfl
    | cons change edits hypothesis =>
        intro state permutes
        rw [List.foldl_cons, List.foldl_cons, applyEdit_reorder permutes placed]
        refine hypothesis ?_
        rwa [types_applyEdit, List.length_modify]
  have announced := congrArg (announce · edit.woven) (changes edit.edits permutes)
  exact announced

variable (distinct : (state.module.types.map TypeDef.fullName).Nodup)

include distinct

private theorem runTask_reorder {task : Task} (here : task.typeIndex = index)
    (ran : runTask resolver configuration state task = .ok after) :
    runTask resolver configuration (state.reorder order) (task.moved position) =
      .ok (after.reorder order) := by
  have mirrors : (WeavingContext.ofModule state.module resolver configuration).Mirrors
      (.ofModule (state.module.reorder order) resolver configuration) index position :=
    Module.mirrors_reorder permutes distinct placed
  have applies := mirrors.canExecute here
  unfold runTask at ran ⊢
  dsimp only [reorder] at ran ⊢
  rw [applies]
  split at ran
  · next able =>
    obtain ⟨edit, executed, rest⟩ := Outcome.bind_eq_ok.mp ran
    have own := (Task.type_of_execute executed).trans here
    rw [if_pos able, mirrors.execute here executed, Outcome.ok_bind]
    obtain rfl := Except.ok.inj rest
    unfold TypeEdit.moved
    dsimp only
    split
    · rfl
    · exact congrArg Except.ok (apply_reorder permutes placed own)
  · next unable =>
    obtain rfl := Except.ok.inj ran
    exact if_neg unable

end Placed

section Passes

variable (permutes : order.Perm (List.range module.types.length))
  (distinct : (module.types.map TypeDef.fullName).Nodup)

include permutes distinct

private theorem runTasks_reorder (placed : order[position]? = some index) {tasks : List Task}
    (own : ∀ task ∈ tasks, task.typeIndex = index) (extended : module.Extends state.module)
    (ran : tasks.foldlM (runTask resolver configuration) state = .ok after) :
    (tasks.map (Task.moved position)).foldlM (runTask resolver configuration) (state.reorder order) =
      .ok (after.reorder order) := by
  induction tasks generalizing state with
  | nil =>
      obtain rfl := Except.ok.inj ran
      rfl
  | cons task tasks hypothesis =>
      obtain ⟨here, others⟩ := List.forall_mem_cons.mp own
      rw [List.foldlM_cons] at ran
      obtain ⟨between, first, rest⟩ := Outcome.bind_eq_ok.mp ran
      rw [List.map_cons, List.foldlM_cons,
        runTask_reorder (extended.permutes permutes) placed (extended.distinct distinct) here first,
        Outcome.ok_bind]
      exact hypothesis others (extended.trans (extends_runTask first)) rest

/-- A visit does the same wherever its type stands. -/
theorem weaveType_reorder (placed : order[position]? = some index)
    (extended : module.Extends state.module)
    (visited : weaveType resolver configuration state index = .ok after) :
    weaveType resolver configuration (state.reorder order) position = .ok (after.reorder order) := by
  obtain ⟨ran, checked⟩ := weaveType_eq_ok.mp visited
  have extended' := extended.trans (extends_weaveType visited)
  refine weaveType_eq_ok.mpr ⟨?_, fun verify => ?_⟩
  · have planned : (state.reorder order).module.plan configuration position =
        (state.module.plan configuration index).map (Task.moved position) :=
      Module.plan_reorder (extended.permutes permutes) placed
    have entered : module.Extends ({ state with touched := [] } : WeavingState).module := extended
    rw [runPlan, planned]
    exact runTasks_reorder permutes distinct placed (fun _ => Module.typeIndex_of_mem_plan) entered ran
  · have own : (after.reorder order).module.types[position]? = after.module.types[index]? :=
      Module.types_reorder_of_placed (extended'.permutes permutes) placed
    rw [← checked verify]
    unfold verifyTouched
    rw [own]
    rfl

private theorem visits_reorder {positions : List Nat}
    (inside : ∀ position ∈ positions, position < order.length)
    (extended : module.Extends state.module)
    (ran : (positions.filterMap (order[·]?)).foldlM (weaveType resolver configuration) state =
      .ok after) :
    positions.foldlM (weaveType resolver configuration) (state.reorder order) =
      .ok (after.reorder order) := by
  induction positions generalizing state with
  | nil =>
      obtain rfl := Except.ok.inj ran
      rfl
  | cons position positions hypothesis =>
      obtain ⟨here, others⟩ := List.forall_mem_cons.mp inside
      have placed := List.getElem?_eq_getElem here
      rw [List.filterMap_cons_some placed, List.foldlM_cons] at ran
      obtain ⟨between, first, rest⟩ := Outcome.bind_eq_ok.mp ran
      rw [List.foldlM_cons, weaveType_reorder permutes distinct placed extended first, Outcome.ok_bind]
      exact hypothesis others (extended.trans (extends_weaveType first)) rest

end Passes

end WeavingState

namespace Module

variable {woven : Module} {report : WeaveReport}

/-- The order in which the types of a module are declared does not matter. The types of the result stand
in the order of the declarations; references and reported members may be listed in another order. -/
theorem weave_reorder (fresh : module.isInstrumented = false)
    (distinct : (module.types.map TypeDef.fullName).Nodup) (acyclic : module.Acyclic)
    (core : module.name ≠ configuration.runtime.coreModule) (ignored : resolver.Ignores module.name)
    (permutes : order.Perm (List.range module.types.length))
    (weaves : module.weave resolver configuration = .ok (woven, report)) :
    ∃ woven' report' added added',
      (module.reorder order).weave resolver configuration = .ok (woven', report') ∧
      woven.references = module.references ++ added ∧ added'.Perm added ∧
      woven' = { woven.reorder order with references := module.references ++ added' } ∧
      report' = { report with members := report'.members } ∧
      report'.members.Perm report.members := by
  rcases weave_eq_ok weaves with ⟨instrumented, -⟩ | ⟨-, state, ran, rfl, rfl⟩
  · rw [fresh] at instrumented
    cases instrumented
  have sorted : ∀ earlier later, module.baseDepth earlier ≤ module.baseDepth later →
      ¬ module.DerivesFrom earlier later := fun _ _ behind derives =>
    Nat.not_lt.mpr behind (acyclic.baseDepth_lt derives)
  have visits : ((module.reorder order).baseFirstOrder.filterMap (order[·]?)).Perm
      module.baseFirstOrder :=
    (perm_visits_reorder permutes).trans (List.mergeSort_perm _ _).symm
  -- the types are visited in the order of the new module first, while they still stand in the old one
  obtain ⟨state', ran', permuted⟩ := WeavingState.exists_visits_of_perm core ignored visits
    (WeavingState.waiting_initial module).distinct
    ((pairwise_baseFirstOrder module).imp (sorted _ _))
    ((pairwise_visits_reorder permutes distinct).imp (sorted _ _)) (.refl module) ran
  have reordered := WeavingState.visits_reorder permutes distinct (fun position member => by
    rw [permutes.length_eq, List.length_range, ← length_types_reorder permutes]
    exact mem_baseFirstOrder.mp member) (.refl module) ran'
  rw [WeavingState.reorder_initial] at reordered
  have weaves' : (module.reorder order).weave resolver configuration =
      .ok ((state'.module.reorder order).markInstrumented, state'.report) := by
    have fresh' : (module.reorder order).isInstrumented = false := fresh
    rw [weave_of_order fresh' rfl, reordered, Outcome.ok_bind]
    rfl
  obtain ⟨added, listed⟩ := prefix_weave weaves
  obtain ⟨added', listed'⟩ := prefix_weave weaves'
  refine ⟨_, _, added, added', weaves', listed.symm, ?_, ?_, permuted.report, permuted.members⟩
  · refine (List.perm_append_left_iff module.references).mp ?_
    rw [listed]
    exact (List.Perm.of_eq listed').trans permuted.references
  · have same : module.references ++ added' = state'.module.references := listed'
    rw [same]
    exact congrArg (fun made : Module => (made.reorder order).markInstrumented) permuted.module

/-! Two types that do not depend on each other, and one that derives from the first of them. -/

def sampleDial : TypeDef :=
  { sampleCounter with
    name := "Dial"
    attributes := [sampleAttribute "RdfClassAttribute" "urn:dial"] }

def sampleGauge : TypeDef :=
  { sampleCounter with
    name := "Gauge"
    base := some (.classType ⟨none, "Demo", "Counter"⟩)
    attributes := [sampleAttribute "RdfClassAttribute" "urn:gauge"] }

def instrumentsModule : Module := sample "App" [sampleCounter, sampleDial, sampleGauge]

theorem weave_reorder_instrumentsModule :
    ∃ woven report woven' report',
      instrumentsModule.weave sampleResolver {} = .ok (woven, report) ∧
      (instrumentsModule.reorder [2, 1, 0]).weave sampleResolver {} = .ok (woven', report') ∧
      woven'.types = (woven.reorder [2, 1, 0]).types ∧
      woven'.references.Perm woven.references ∧ report'.members.Perm report.members := by
  have order : instrumentsModule.baseFirstOrder = [0, 1, 2] := List.mergeSort_of_pairwise (by decide)
  have weaves : (instrumentsModule.weave sampleResolver {}).isOk = true := by
    rw [weave_of_order (by decide) order]
    decide +kernel
  have ignored : sampleResolver.Ignores "App" := by
    intro key other found different
    have modules : ∀ named ∈ sampleResolver.modules, ∀ type ∈ named.2.types, type.base = none := by
      decide
    intro type declared base derives
    rw [modules (key, other) (mem_of_lookup found) type declared] at derives
    cases derives
  obtain ⟨⟨woven, report⟩, outcome⟩ := Outcome.exists_of_isOk weaves
  obtain ⟨woven', report', added, added', outcome', listed, perm, rfl, -, members⟩ :=
    weave_reorder (by decide) (by decide) (by decide) (by decide) ignored
      (show [2, 1, 0].Perm (List.range 3) by decide) outcome
  refine ⟨woven, report, _, report', outcome, outcome', rfl, ?_, members⟩
  rw [listed]
  exact perm.append_left _

end Module

end PropertyWeaver
