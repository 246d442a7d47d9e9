import Mathlib.Algebra.Group.Prod
import PropertyWeaver.Proofs.Module.Renewal
import PropertyWeaver.Proofs.Weaving.FieldReferences
import PropertyWeaver.Proofs.Weaving.Trace

/-!
# What the report counts

The numbers in the report of a pass against the module before and after it. Each edit is counted as it is
made, so the counters follow from what one task does. Fields are removed by name, and a removal counts
once: if a type has two fields of one name, fewer fields are reported than have gone.
-/

set_option autoImplicit false

namespace PropertyWeaver

variable {resolver : Resolver} {configuration : Configuration}

/-! ## One type of many -/

namespace WeavingState

variable {module : Module} {type : Nat} {original definition definition' : TypeDef}
  {before after : WeavingState}

private theorem Elsewhere.sumOver (elsewhere : Elsewhere type before after)
    (found : module.types[type]? = some original)
    (here : before.module.types[type]? = some definition)
    (there : after.module.types[type]? = some definition') (number : TypeDef → TypeDef → Nat) :
    module.sumOver after.module number + number original definition =
      module.sumOver before.module number + number original definition' := by
  have changed : after.module.types = before.module.types.set type definition' := by
    apply List.ext_getElem?
    intro index
    rw [List.getElem?_set]
    split
    · next same =>
      subst same
      rw [if_pos (List.getElem?_eq_some_iff.mp here).1, there]
    · next other => exact elsewhere.types index (Ne.symm other)
  rw [Module.sumOver, Module.sumOver, changed]
  exact sum_zipWith_set found here definition'

end WeavingState

/-! ## Methods -/

private theorem Edit.length_methods_change (cursor : Nat → Nat) (edit : Edit) (type : TypeDef) :
    (edit.change cursor type).methods.length = type.methods.length + edit.addedMethods.length := by
  rw [change, List.length_append, List.length_mapIdx]

namespace WeavingState

variable {module : Module} {type : Nat} {original definition : TypeDef} {state : WeavingState}

private theorem methodsAdded_foldl (edits : List Edit)
    (found : state.module.types[type]? = some definition) :
    ∃ definition', (edits.foldl (applyEdit type) state).module.types[type]? = some definition' ∧
      definition'.methods.length =
        definition.methods.length + (edits.flatMap Edit.addedMethods).length ∧
      (edits.foldl (applyEdit type) state).report.methodsAdded =
        state.report.methodsAdded + (edits.flatMap Edit.addedMethods).length := by
  induction edits generalizing state definition with
  | nil => exact ⟨definition, found, rfl, rfl⟩
  | cons edit edits hypothesis =>
      have changed : (applyEdit type state edit).module.types[type]? =
          some (edit.change (state.cursor type) definition) := by
        rw [types_applyEdit, List.getElem?_modify_eq, found]
        rfl
      have counted : (applyEdit type state edit).report.methodsAdded =
          state.report.methodsAdded + edit.addedMethods.length := by
        rw [report_applyEdit]
        cases edit <;> rfl
      obtain ⟨definition', there, methods, added⟩ := hypothesis changed
      rw [Edit.length_methods_change] at methods
      rw [counted] at added
      refine ⟨definition', there, ?_, ?_⟩
      · rw [methods, List.flatMap_cons, List.length_append, Nat.add_assoc]
      · rw [List.foldl_cons, added, List.flatMap_cons, List.length_append, Nat.add_assoc]

end WeavingState

/-! ## Fields and preludes -/

/-- The counters that mapped properties move: fields that have come, removals, and preludes. -/
def WeaveReport.counts (report : WeaveReport) : Nat × Nat × Nat :=
  (report.fieldsInjected, report.fieldsRemoved, report.constructorsPatched)

/-- An edit that gives a method a body, or adds a method. -/
def Edit.ForMethods : Edit → Prop
  | .replaceBody _ _ | .addMethod _ => True
  | .prependToConstructor _ _ _ | .addField _ | .removeField _ => False

private theorem Edit.ForMethods.changeFields {edit : Edit} (methods : edit.ForMethods)
    (fields : List FieldDef) : edit.changeFields fields = fields := by
  cases edit with
  | replaceBody method body => rfl
  | addMethod method => rfl
  | prependToConstructor method block maxStack => cases methods
  | addField field => cases methods
  | removeField name => cases methods

private theorem Edit.foldl_changeFields {edits : List Edit}
    (methods : ∀ edit ∈ edits, edit.ForMethods) (fields : List FieldDef) :
    edits.foldl (fun fields edit => edit.changeFields fields) fields = fields :=
  List.foldlRecOn edits (fun fields edit => edit.changeFields fields)
    (motive := fun next => next = fields) rfl
    fun next same edit member => ((methods edit member).changeFields next).trans same

private theorem Edit.hasBody_change_prepend (cursor : Nat → Nat) (type : TypeDef)
    (method index : Nat) (block : List Instruction) (maxStack : UInt16) :
    hasBody (some ((prependToConstructor method block maxStack).change cursor type)) index =
      hasBody (some type) index := by
  have listed := @methods_change_of_adds cursor (prependToConstructor method block maxStack) type rfl index
  simp only [hasBody, Option.bind_some, listed]
  cases type.methods[index]? with
  | none => rfl
  | some definition =>
      simp only [Option.map_some, Option.bind_some, changeMethod]
      split
      · exact Option.isSome_map
      · rfl

private theorem TypeDef.countP_constructors (type : TypeDef) :
    type.constructors.countP (Edit.hasBody (some type)) = type.bodiedConstructors := by
  have listed : (List.range type.methods.length).map (type.methods[·]?) = type.methods.map some :=
    List.ext_getElem (by simp) fun index _ _ => by simp
  have both : ∀ index, (Edit.hasBody (some type) index &&
      type.methods[index]?.any MethodDef.isConstructor) =
        type.methods[index]?.any fun method => method.isConstructor && method.body.isSome := by
    intro index
    rw [Edit.hasBody, Option.bind_some]
    cases type.methods[index]? with
    | none => rfl
    | some method => exact Bool.and_comm ..
  calc type.constructors.countP (Edit.hasBody (some type))
      = (List.range type.methods.length).countP fun index => type.methods[index]?.any fun method =>
          method.isConstructor && method.body.isSome := by
        simp only [constructors, List.countP_filter, both]
    _ = ((List.range type.methods.length).map (type.methods[·]?)).countP fun found =>
          found.any fun method => method.isConstructor && method.body.isSome := by
        rw [List.countP_map]
        rfl
    _ = type.bodiedConstructors := by
        rw [listed, List.countP_map]
        rfl

namespace WeavingState

variable {type : Nat} {definition : TypeDef} {state : WeavingState} {edits : List Edit}

private theorem counts_foldl (methods : ∀ edit ∈ edits, edit.ForMethods) :
    (edits.foldl (applyEdit type) state).report.counts = state.report.counts := by
  refine List.foldlRecOn edits (applyEdit type)
    (motive := fun next => next.report.counts = state.report.counts) rfl ?_
  intro next same edit member
  rw [report_applyEdit, ← same]
  cases edit with
  | replaceBody method body => rfl
  | addMethod method => rfl
  | prependToConstructor method block maxStack => cases methods _ member
  | addField field => cases methods _ member
  | removeField name => cases methods _ member

/-- A field that comes is counted, and what comes for methods behind it is not. -/
theorem counts_addField (field : FieldDef) (found : state.module.types[type]? = some definition)
    (methods : ∀ edit ∈ edits, edit.ForMethods) :
    ∃ definition',
      ((.addField field :: edits).foldl (applyEdit type) state).module.types[type]? = some definition' ∧
      definition'.fields = definition.fields ++ [field] ∧
      ((.addField field :: edits).foldl (applyEdit type) state).report.counts =
        state.report.counts + (1, 0, 0) := by
  obtain ⟨bodies, there, -⟩ := types_foldl (.addField field :: edits) found
  refine ⟨_, there, Edit.foldl_changeFields methods _, ?_⟩
  rw [List.foldl_cons, counts_foldl methods, report_applyEdit]
  rfl

/-- Taking a name out of the fields is counted once, if there is a field of that name. -/
theorem counts_removeField {removal : Option String}
    (found : state.module.types[type]? = some definition)
    (present : ∀ name ∈ removal, (definition.field? name).isSome = true) :
    ∃ definition',
      ((removal.toList.map Edit.removeField).foldl (applyEdit type) state).module.types[type]? =
        some definition' ∧
      ((removal.toList.map Edit.removeField).foldl (applyEdit type) state).report.counts =
        state.report.counts + (0, removal.toList.length, 0) := by
  cases removal with
  | none => exact ⟨definition, found, rfl⟩
  | some name =>
      obtain ⟨methods, there, -⟩ := types_foldl [.removeField name] found
      refine ⟨_, there, ?_⟩
      simp only [Option.toList_some, List.map_cons, List.map_nil, List.foldl_cons, List.foldl_nil,
        report_applyEdit, found, Edit.count, Option.any_some, present name rfl, if_true]
      rfl

private theorem counts_preludes (targets : List Nat) (block : List Instruction) (maxStack : UInt16)
    (found : state.module.types[type]? = some definition) :
    ∃ definition', ((targets.map fun target => Edit.prependToConstructor target block maxStack).foldl
        (applyEdit type) state).module.types[type]? = some definition' ∧
      ((targets.map fun target => Edit.prependToConstructor target block maxStack).foldl
        (applyEdit type) state).report.counts =
        state.report.counts + (0, 0, targets.countP (Edit.hasBody (some definition'))) ∧
      ∀ index, Edit.hasBody (some definition') index = Edit.hasBody (some definition) index := by
  induction targets generalizing state definition with
  | nil => exact ⟨definition, found, rfl, fun _ => rfl⟩
  | cons target targets hypothesis =>
      have changed : (applyEdit type state (.prependToConstructor target block maxStack)).module.types[
          type]? = some ((Edit.prependToConstructor target block maxStack).change (state.cursor type)
            definition) := by
        rw [types_applyEdit, List.getElem?_modify_eq, found]
        rfl
      obtain ⟨definition', there, counted, same⟩ := hypothesis changed
      have bodies : ∀ index, Edit.hasBody (some definition') index =
          Edit.hasBody (some definition) index := fun index =>
        (same index).trans (Edit.hasBody_change_prepend _ definition target index block maxStack)
      have first : (applyEdit type state (.prependToConstructor target block maxStack)).report.counts =
          state.report.counts + (0, 0, if Edit.hasBody (some definition') target then 1 else 0) := by
        rw [report_applyEdit, found, bodies]
        rfl
      refine ⟨definition', there, ?_, bodies⟩
      rw [List.map_cons, List.foldl_cons, counted, first, add_assoc, List.countP_cons]
      exact congrArg (fun patched => state.report.counts + (0, 0, patched)) (Nat.add_comm ..)

private theorem counts_routing {field : FieldDef} {removal : Option String}
    (found : state.module.types[type]? = some definition)
    (methods : ∀ edit ∈ edits, edit.ForMethods)
    (present : ∀ name ∈ removal, (definition.field? name).isSome = true)
    (targets : List Nat) (block : List Instruction) (maxStack : UInt16) :
    ∃ definition',
      ((.addField field :: edits ++ removal.toList.map Edit.removeField ++
        targets.map fun target => Edit.prependToConstructor target block maxStack).foldl
          (applyEdit type) state).module.types[type]? = some definition' ∧
      ((.addField field :: edits ++ removal.toList.map Edit.removeField ++
        targets.map fun target => Edit.prependToConstructor target block maxStack).foldl
          (applyEdit type) state).report.counts =
        state.report.counts +
          (1, removal.toList.length, targets.countP (Edit.hasBody (some definition'))) := by
  obtain ⟨entered, there, fields, first⟩ := counts_addField field found methods
  have present' : ∀ name ∈ removal, (entered.field? name).isSome = true := by
    intro name goes
    rw [TypeDef.field?, fields, List.find?_append, Option.isSome_or]
    exact Bool.or_eq_true_iff.mpr (.inl (present name goes))
  obtain ⟨left, there', second⟩ := counts_removeField there present'
  obtain ⟨definition', there'', last, -⟩ := counts_preludes targets block maxStack there'
  refine ⟨definition', ?_, ?_⟩
  · rw [List.foldl_append, List.foldl_append]
    exact there''
  · rw [List.foldl_append, List.foldl_append, last, second, first, add_assoc, add_assoc]
    simp only [Prod.mk_add_mk, Nat.add_zero, Nat.zero_add]

end WeavingState

/-- What routing a property counts: its mapping field, its backing field if that may go, and a prelude for
every constructor that has a body then. -/
theorem WeavingContext.Routes.counts {state : WeavingState} {type index : Nat} {definition : TypeDef}
    {property : PropertyDef} {mapping : LocatedType} {edit : TypeEdit}
    (routes : (ofModule state.module resolver configuration).Routes type index ⟨definition, none⟩
      property mapping edit) :
    (state.apply edit).report.fieldsInjected = state.report.fieldsInjected + 1 ∧
      (state.apply edit).report.fieldsRemoved =
        state.report.fieldsRemoved + (removableBackingField? definition property).toList.length ∧
      ∃ definition', (state.apply edit).module.types[type]? = some definition' ∧
        (state.apply edit).report.constructorsPatched =
          state.report.constructorsPatched + definition'.bodiedConstructors := by
  have found : state.module.types[type]? = some definition := (targetType_eq_ok.mp routes.located).1
  have present : ∀ name ∈ removableBackingField? definition property,
      (definition.field? name).isSome = true := by
    intro name goes
    obtain ⟨-, marked, -, -, listed, -⟩ := removableBackingField?_eq_some.mp goes
    exact Option.isSome_of_eq_some listed
  have adds := routes.adds
  obtain ⟨identifier, routed⟩ := routes.routed
  obtain ⟨api, code, maxStack, setterEdits, -, -, setters, -, rfl⟩ := routeThrough_eq_ok routed
  have replaces : ∀ change ∈ property.getter.toList.map (fun getter => Edit.replaceBody getter
      (mappedGetter ⟨LocatedType.sig ⟨definition, none⟩, configuration.mappingFieldName property.name,
        .instantiated mapping.typeRef false [property.propertyType]⟩
        (api.getValue.instantiate [property.propertyType]))) ++ setterEdits, change.ForMethods := by
    intro change member
    rcases List.mem_append.mp member with reads | writes
    · obtain ⟨getter, -, rfl⟩ := List.mem_map.mp reads
      trivial
    · obtain ⟨setter, body, -, rfl, -⟩ := setters change writes
      trivial
  obtain ⟨definition', there, counted⟩ := @WeavingState.counts_routing type definition state _
    (configuration.mappingField mapping.typeRef property) _ found replaces present
    definition.constructors code maxStack
  obtain ⟨methods, here, headers⟩ := WeavingState.types_foldl _ found
  have same : definition'.methods = methods :=
    congrArg TypeDef.methods (Option.some.inj (there.symm.trans here))
  have constructors := TypeDef.constructors_of_headers
    ((congrArg (List.map MethodDef.header) same).trans (headers adds))
  have bodied : definition.constructors.countP (Edit.hasBody (some definition')) =
      definition'.bodiedConstructors := by
    rw [← TypeDef.countP_constructors, constructors]
  rw [bodied] at counted
  exact ⟨congrArg Prod.fst counted, congrArg (fun counts => counts.2.1) counted, definition', there,
    congrArg (fun counts => counts.2.2) counted⟩

namespace WeavingState

variable {state : WeavingState} {task : Task} {edit : TypeEdit}

private theorem routes_or_forMethods
    (applies : task.canExecute (.ofModule state.module resolver configuration) = true)
    (executed : task.execute (.ofModule state.module resolver configuration) = .ok edit)
    (asks : edit.edits ≠ []) :
    (∃ type index definition property mapping, task = .mappedProperty type index ∧
      (WeavingContext.ofModule state.module resolver configuration).Routes type index ⟨definition, none⟩
        property mapping edit) ∨
    task.kind ≠ .mappedProperty ∧ ∀ change ∈ edit.edits, change.ForMethods := by
  cases task with
  | mappedProperty type index =>
      rcases WeavingContext.mapProperty_eq_ok executed with rfl | ⟨located, property, identifier, mapping,
        here, listed, -, getters, setters, hosts, absent, routed⟩
      · exact absurd rfl asks
      obtain ⟨found, scope⟩ := WeavingContext.targetType_eq_ok.mp here
      obtain ⟨definition, scope⟩ := located
      subst scope
      have accessors : property.accessors ≠ [] := by
        have applies : ((WeavingContext.ofModule state.module resolver
            configuration).metadata.target.types[type]?.bind _).any _ = true := applies
        rw [found, Option.bind_some, WeavingContext.propertyOf_eq_ok.mp listed, Option.any_some] at applies
        exact PropertyDef.accessors_ne_nil.mpr applies
      exact .inl ⟨type, index, definition, property, mapping, rfl, here, executed, accessors, getters,
        setters, hosts, absent, identifier, routed⟩
  | changeNotification type index =>
      refine .inr ⟨nofun, fun change member => ?_⟩
      rcases WeavingContext.notifyChanges_eq_ok executed with rfl | ⟨_, _, setter, _, body, -, -, -, -, -,
        -, rfl⟩
      · cases member
      · obtain rfl := List.mem_singleton.mp member
        trivial
  | typeHierarchy type =>
      refine .inr ⟨nofun, fun change member => ?_⟩
      rcases WeavingContext.overrideQuery_eq_ok executed with rfl | ⟨_, _, _, _, _, -, -, -, -, -, rfl⟩
      · cases member
      · obtain rfl := List.mem_singleton.mp member
        trivial

end WeavingState

def TaskRun.maps (run : TaskRun) : Bool :=
  run.edited && run.task.kind = .mappedProperty

def TaskRun.bodiedConstructors (run : TaskRun) : Nat :=
  (run.after.module.types[run.task.typeIndex]?.map TypeDef.bodiedConstructors).getD 0

/-- Every newly mapped property is counted by its field, and by a prelude for each constructor that has a
body. -/
theorem Performs.mapped {before after : WeavingState} {runs : List TaskRun}
    (performs : Performs resolver configuration before runs after) :
    after.report.fieldsInjected = before.report.fieldsInjected + (runs.filter TaskRun.maps).length ∧
      after.report.constructorsPatched = before.report.constructorsPatched +
        ((runs.filter TaskRun.maps).map TaskRun.bodiedConstructors).sum := by
  induction performs with
  | done => exact ⟨rfl, rfl⟩
  | visit _ hypothesis => exact hypothesis
  | idle _ _ hypothesis => exact hypothesis
  | @edits state task edit runs after applies executed asks _ hypothesis =>
      obtain ⟨injected, patched⟩ := hypothesis
      rcases WeavingState.routes_or_forMethods applies executed asks with
        ⟨type, index, definition, property, mapping, rfl, routes⟩ | ⟨kind, methods⟩
      · obtain ⟨one, -, definition', there, preludes⟩ := routes.counts
        have maps : (TaskRun.mk (.mappedProperty type index) edit.edits (state.apply edit)).maps = true := by
          simpa [TaskRun.maps, TaskRun.edited, Task.kind] using asks
        have bodied : (TaskRun.mk (.mappedProperty type index) edit.edits
            (state.apply edit)).bodiedConstructors = definition'.bodiedConstructors := by
          rw [TaskRun.bodiedConstructors, Task.typeIndex, there]
          rfl
        rw [List.filter_cons_of_pos maps, List.length_cons, List.map_cons, List.sum_cons, bodied]
        constructor <;> omega
      · have same : (state.apply edit).report.counts = state.report.counts :=
          WeavingState.counts_foldl methods
        obtain ⟨one, rest⟩ := Prod.mk.inj same
        obtain ⟨-, preludes⟩ := Prod.mk.inj rest
        have skipped : (TaskRun.mk task edit.edits (state.apply edit)).maps = false := by
          simp [TaskRun.maps, kind]
        rw [List.filter_cons_of_neg (by simp [skipped]), ← one, ← preludes]
        exact ⟨injected, patched⟩

/-! ## What all tasks have counted -/

private theorem Task.exists_types {module : Module} {state : WeavingState} {task : Task}
    {edit : TypeEdit}
    (headers : state.module.types.map TypeDef.header = module.types.map TypeDef.header)
    (executed : task.execute (.ofModule state.module resolver configuration) = .ok edit)
    (asks : edit.edits ≠ []) :
    ∃ original definition, module.types[edit.type]? = some original ∧
      state.module.types[edit.type]? = some definition := by
  obtain ⟨member, -, reported⟩ := Task.exists_reportedBy executed asks
  obtain ⟨definition, found, -⟩ := Option.map_eq_some_iff.mp reported.owner
  rw [← Task.type_of_execute executed] at found
  have lengths : state.module.types.length = module.types.length := by
    simpa using congrArg List.length headers
  have inside := lengths ▸ (List.getElem?_eq_some_iff.mp found).1
  exact ⟨_, definition, List.getElem?_eq_getElem inside, found⟩

section Tallies

variable (module : Module) (related : TypeDef → TypeDef → Prop) (number : TypeDef → TypeDef → Nat)
  (counter : WeaveReport → Nat)

/-- A counter is the sum of a number over the types of a module and what has become of them, which is
related to what they were. -/
structure WeavingState.Tallies (state : WeavingState) : Prop where
  headers : state.module.types.map TypeDef.header = module.types.map TypeDef.header
  related : ∀ (index : Nat) (type type' : TypeDef), module.types[index]? = some type →
    state.module.types[index]? = some type' → related type type'
  counted : counter state.report = module.sumOver state.module number

variable {module related number counter}

private theorem WeavingState.tallies_initial (reflexive : ∀ type ∈ module.types, related type type)
    (none : ∀ type, number type type = 0) (zero : counter (.initial module.name) = 0) :
    Tallies module related number counter (.initial module) := by
  refine ⟨rfl, fun index type type' found found' => ?_, zero.trans (module.sumOver_self none).symm⟩
  obtain rfl := Option.some.inj (found.symm.trans found')
  exact reflexive type (List.mem_of_getElem? found)

private theorem WeavingState.Tallies.apply {state : WeavingState} {edit : TypeEdit}
    {original definition definition' : TypeDef} {more : Nat}
    (tallies : Tallies module related number counter state)
    (found : module.types[edit.type]? = some original)
    (here : state.module.types[edit.type]? = some definition)
    (there : (state.apply edit).module.types[edit.type]? = some definition')
    (holds : related original definition')
    (grows : number original definition' = number original definition + more)
    (counts : counter (state.apply edit).report = counter state.report + more) :
    Tallies module related number counter (state.apply edit) := by
  have elsewhere := elsewhere_apply state edit
  refine ⟨elsewhere.headers.trans tallies.headers, fun index type type' listed listed' => ?_, ?_⟩
  · by_cases same : index = edit.type
    · subst same
      obtain rfl := Option.some.inj (found.symm.trans listed)
      obtain rfl := Option.some.inj (there.symm.trans listed')
      exact holds
    · exact tallies.related index type type' listed ((elsewhere.types index same).symm.trans listed')
  · have sum := elsewhere.sumOver found here there number
    have before := tallies.counted
    omega

variable (related) in
/-- A counter that each task keeps in step with the types has counted right at the end. -/
theorem Performs.counted {state : WeavingState} {runs : List TaskRun}
    (performs : Performs resolver configuration (.initial module) runs state)
    (reflexive : ∀ type ∈ module.types, related type type) (none : ∀ type, number type type = 0)
    (zero : counter (.initial module.name) = 0)
    (works : ∀ (state : WeavingState) (task : Task) (edit : TypeEdit) (original definition : TypeDef),
      related original definition → state.module.types[edit.type]? = some definition →
      task.canExecute (.ofModule state.module resolver configuration) = true →
      task.execute (.ofModule state.module resolver configuration) = .ok edit → edit.edits ≠ [] →
      ∃ definition' more, (state.apply edit).module.types[edit.type]? = some definition' ∧
        related original definition' ∧
        number original definition' = number original definition + more ∧
        counter (state.apply edit).report = counter state.report + more) :
    counter state.report = module.sumOver state.module number := by
  have tallies : WeavingState.Tallies module related number counter state := by
    refine performs.invariant (fun _ tallies => ⟨tallies.headers, tallies.related, tallies.counted⟩) ?_
      (WeavingState.tallies_initial reflexive none zero)
    intro state task edit tallies applies executed asks
    obtain ⟨original, definition, found, here⟩ := Task.exists_types tallies.headers executed asks
    obtain ⟨definition', more, there, holds, grows, counts⟩ := works state task edit original definition
      (tallies.related edit.type original definition found here) here applies executed asks
    exact tallies.apply found here there holds grows counts
  exact tallies.counted

end Tallies

namespace WeavingState

variable {state : WeavingState} {task : Task} {edit : TypeEdit} {original definition : TypeDef}

private theorem exists_methodsAdded (longer : original.methods.length ≤ definition.methods.length)
    (here : state.module.types[edit.type]? = some definition) :
    ∃ definition' more, (state.apply edit).module.types[edit.type]? = some definition' ∧
      original.methods.length ≤ definition'.methods.length ∧
      original.methodsAdded definition' = original.methodsAdded definition + more ∧
      (state.apply edit).report.methodsAdded = state.report.methodsAdded + more := by
  obtain ⟨definition', there, methods, added⟩ := methodsAdded_foldl edit.edits here
  refine ⟨definition', _, there, by omega, ?_, added⟩
  rw [TypeDef.methodsAdded, TypeDef.methodsAdded]
  omega

private theorem exists_renewed (renewed : FieldDef.Renewed original.fields definition.fields)
    (here : state.module.types[edit.type]? = some definition)
    (applies : task.canExecute (.ofModule state.module resolver configuration) = true)
    (executed : task.execute (.ofModule state.module resolver configuration) = .ok edit)
    (asks : edit.edits ≠ []) :
    ∃ definition' injected removed, (state.apply edit).module.types[edit.type]? = some definition' ∧
      FieldDef.Renewed original.fields definition'.fields ∧
      (FieldDef.countBeyond original.fields definition'.fields =
          FieldDef.countBeyond original.fields definition.fields + injected ∧
        (state.apply edit).report.fieldsInjected = state.report.fieldsInjected + injected) ∧
      FieldDef.countBeyond definition'.fields original.fields =
          FieldDef.countBeyond definition.fields original.fields + removed ∧
        (state.apply edit).report.fieldsRemoved = state.report.fieldsRemoved + removed := by
  obtain ⟨bodies, there, -⟩ := types_foldl edit.edits here
  rcases routes_or_forMethods applies executed asks with
    ⟨type, index, definition', property, mapping, rfl, routes⟩ | ⟨-, methods⟩
  · obtain rfl := routes.type_eq
    obtain rfl := Option.some.inj (here.symm.trans (WeavingContext.targetType_eq_ok.mp routes.located).1)
    have removes : ∀ name ∈ WeavingContext.removableBackingField? definition property, ∃ marked,
        definition.field? name = some marked ∧ marked.isCompilerGenerated = true := by
      intro name goes
      obtain ⟨-, marked, -, -, listed, generated, -⟩ :=
        WeavingContext.removableBackingField?_eq_some.mp goes
      exact ⟨marked, listed, generated⟩
    obtain ⟨shorter, added, gone⟩ := @FieldDef.Renewed.routed _ _
      (configuration.mappingField mapping.typeRef property) renewed routes.absent rfl _ removes
    obtain ⟨one, removal, -⟩ := routes.counts
    rw [routes.fields] at there
    exact ⟨_, 1, _, there, shorter, ⟨added, one⟩, gone, removal⟩
  · have same : (state.apply edit).report.counts = state.report.counts := counts_foldl methods
    obtain ⟨injected, rest⟩ := Prod.mk.inj same
    obtain ⟨removed, -⟩ := Prod.mk.inj rest
    rw [Edit.foldl_changeFields methods] at there
    exact ⟨_, 0, 0, there, renewed, ⟨rfl, injected⟩, rfl, removed⟩

end WeavingState

/-! ## The report of a pass -/

namespace Module

variable {module woven : Module} {report : WeaveReport}

/-- The report of a pass tells, by one member for each, which of the planned tasks have made edits, in the
order of the plan. It counts the methods that have come, and a prelude for each constructor with a body of
each newly mapped property. It counts the fields that have come and those that have gone, if no field shares
its name with one that a compiler has marked. -/
theorem weave_reports (fresh : module.isInstrumented = false)
    (weaves : module.weave resolver configuration = .ok (woven, report)) :
    ∃ runs state, Performs resolver configuration (.initial module) runs state ∧
      woven = state.module.markInstrumented ∧
      runs.map TaskRun.task = module.baseFirstOrder.flatMap (module.plan configuration) ∧
      List.Forall₂ (fun run member => run.task.ReportedBy configuration module member)
        (runs.filter TaskRun.edited) report.members ∧
      report.methodsAdded = module.sumOver woven TypeDef.methodsAdded ∧
      report.constructorsPatched = ((runs.filter TaskRun.maps).map TaskRun.bodiedConstructors).sum ∧
      report.fieldsInjected = (runs.filter TaskRun.maps).length ∧
      ((∀ type ∈ module.types, FieldDef.MarkedApart type.fields) →
        report.fieldsInjected =
            module.sumOver woven (fun type type' => FieldDef.countBeyond type.fields type'.fields) ∧
          report.fieldsRemoved =
            module.sumOver woven fun type type' => FieldDef.countBeyond type'.fields type.fields) := by
  obtain ⟨runs, state, performs, rfl, rfl, order⟩ := exists_performs fresh weaves
  obtain ⟨members, appended, reported⟩ := @Performs.members _ _ module _ _ _ performs rfl
  obtain ⟨injected, patched⟩ := performs.mapped
  refine ⟨runs, state, performs, rfl, order, ?_, ?_, ?_, ?_, fun apart => ⟨?_, ?_⟩⟩
  · rw [appended]
    exact reported
  · refine performs.counted (fun type type' => type.methods.length ≤ type'.methods.length)
      (fun _ _ => Nat.le_refl _) (fun type => Nat.sub_self type.methods.length) rfl ?_
    exact fun _ _ _ _ _ longer here _ _ _ => WeavingState.exists_methodsAdded longer here
  · rw [patched]
    exact Nat.zero_add _
  · rw [injected]
    exact Nat.zero_add _
  · refine performs.counted (fun type type' => FieldDef.Renewed type.fields type'.fields)
      (fun type member => .refl (apart type member))
      (fun type => FieldDef.countBeyond_self type.fields) rfl ?_
    intro state task edit original definition renewed here applies executed asks
    obtain ⟨definition', injected, -, there, renewed, ⟨added, counts⟩, -⟩ :=
      WeavingState.exists_renewed renewed here applies executed asks
    exact ⟨definition', injected, there, renewed, added, counts⟩
  · refine performs.counted (fun type type' => FieldDef.Renewed type.fields type'.fields)
      (fun type member => .refl (apart type member))
      (fun type => FieldDef.countBeyond_self type.fields) rfl ?_
    intro state task edit original definition renewed here applies executed asks
    obtain ⟨definition', -, removed, there, renewed, -, gone, counts⟩ :=
      WeavingState.exists_renewed renewed here applies executed asks
    exact ⟨definition', removed, there, renewed, gone, counts⟩

theorem weave_reports_autoModule :
    ∃ woven report, autoModule.weave sampleResolver {} = .ok (woven, report) ∧
      (∃ runs state, Performs sampleResolver {} (.initial autoModule) runs state ∧
        runs.map TaskRun.task = autoModule.baseFirstOrder.flatMap (autoModule.plan {}) ∧
        List.Forall₂ (fun run member => run.task.ReportedBy {} autoModule member)
          (runs.filter TaskRun.edited) report.members) ∧
      report.methodsAdded = autoModule.sumOver woven TypeDef.methodsAdded ∧
      report.fieldsRemoved =
        autoModule.sumOver woven fun type type' => FieldDef.countBeyond type'.fields type.fields := by
  have weaves : (autoModule.weave sampleResolver {}).isOk = true := by decide +kernel
  obtain ⟨⟨woven, report⟩, outcome⟩ := Outcome.exists_of_isOk weaves
  have apart : ∀ type ∈ autoModule.types, FieldDef.MarkedApart type.fields := by
    unfold FieldDef.MarkedApart
    decide
  obtain ⟨runs, state, performs, -, order, reported, methods, -, -, fields⟩ :=
    weave_reports (by decide) outcome
  exact ⟨woven, report, outcome, ⟨runs, state, performs, order, reported⟩, methods, (fields apart).2⟩

example : (autoModule.weave sampleResolver {}).toOption.map (fun result =>
    (result.2.fieldsInjected, result.2.fieldsRemoved, result.2.methodsAdded,
      result.2.constructorsPatched)) = some (1, 1, 1, 1) := by decide +kernel

/-! A second field of the name of the backing field, of another type. Both go with the accessors. -/

def overloadedModule : Module :=
  sample "App" [{ autoCounter with
    fields := [autoField, { autoField with fieldType := .builtin .int64 }] }]

/-- The report of a pass counts the fields that have gone. -/
def CountsRemovals (module : Module) (resolver : Resolver) : Prop :=
  ∀ woven report, module.weave resolver {} = .ok (woven, report) →
    report.fieldsRemoved =
      module.sumOver woven fun type type' => FieldDef.countBeyond type'.fields type.fields

/-- One removal is reported where two fields have gone. -/
theorem weave_miscounts_removals :
    overloadedModule.isInstrumented = false ∧ overloadedModule.validate = .ok () ∧
      ¬ overloadedModule.CountsRemovals sampleResolver := by
  have computed : (overloadedModule.weave sampleResolver {}).toOption.map (fun result =>
      (result.2.fieldsRemoved, overloadedModule.sumOver result.1 fun type type' =>
        FieldDef.countBeyond type'.fields type.fields)) = some (1, 2) := by decide +kernel
  refine ⟨by decide, by decide, fun counts => ?_⟩
  obtain ⟨⟨woven, report⟩, weaves, same⟩ := Option.map_eq_some_iff.mp computed
  obtain ⟨one, two⟩ := Prod.mk.inj same
  have equal := counts woven report (Outcome.toOption_eq_some.mp weaves)
  rw [one, two] at equal
  cases equal

end Module

end PropertyWeaver
