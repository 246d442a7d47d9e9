import PropertyWeaver.Proofs.Weaving.InjectedFields
import PropertyWeaver.Proofs.Weaving.Precedence
import PropertyWeaver.Weaving.Run

/-!
# Edits in range

The number of prelude instructions is kept beside the bodies. An edit that replaces a body leaves it, so
the next prelude may belong behind the end of the body. Only constructors get preludes, and only
accessors of mapped properties are replaced before the last prelude of their type. So a run comes to no
crash unless a constructor is such an accessor.
-/

set_option autoImplicit false

namespace PropertyWeaver

/-- The place of the next prelude is inside the body of the method, if it has one. -/
def MethodState.HasRoom (slot : MethodState) : Prop :=
  ∀ body ∈ slot.method.body, slot.cursor ≤ body.instructions.length

/-- An edit puts preludes into the given methods only, and does not replace the body of one. -/
def Edit.Keeps (heads : List Nat) : Edit → Prop
  | .replaceBody method _ => method ∉ heads
  | .prependToConstructor method _ _ => method ∈ heads
  | .addField _ | .removeField _ | .addMethod _ => True

/-- No constructor of the type is an accessor of a property that is to be mapped. -/
def TypeDef.OrdinaryAccessors (configuration : Configuration) (type : TypeDef) : Prop :=
  ∀ index ∈ type.mappedProperties configuration, ∀ property, type.properties[index]? = some property →
    ∀ accessor ∈ property.accessors, accessor ∉ type.constructors

private theorem MethodState.HasRoom.advance {slot : MethodState} (room : slot.HasRoom) {edit : Edit}
    {heads : List Nat} {index : Nat} (keeps : edit.Keeps heads) (head : index ∈ heads) :
    (edit.advance index slot).HasRoom := by
  cases edit with
  | replaceBody target body =>
      have other : target ≠ index := fun same => keeps (same ▸ head)
      rw [Edit.advance, if_neg other]
      exact room
  | prependToConstructor target block maxStack =>
      simp only [Edit.advance]
      split
      · split
        · exact room
        · next body has =>
          intro extended same
          obtain rfl := Option.some.inj same
          have longer : (body.withPrelude slot.cursor block maxStack).instructions.length =
              body.instructions.length + block.length := MethodBody.length_insert (room body has)
          rw [longer]
          exact Nat.add_le_add_right (room body has) _
      · exact room
  | addField field => exact room
  | removeField name => exact room
  | addMethod method => exact room

namespace WeavingState

variable {resolver : Resolver} {configuration : Configuration} {module : Module} {original : TypeDef}
  {type : Nat} {heads waiting : List Nat} {state after : WeavingState} {edit : Edit} {task : Task}

private theorem hasMethod_eq (state : WeavingState) (type index : Nat) :
    state.hasMethod type index = (state.module.methodAt? type index).isSome := rfl

/-- What keeps the edits of a type in range: the type is there, the methods that get preludes have room
for the next one, and so are the methods that are to be checked. -/
structure InRange (type : Nat) (heads : List Nat) (state : WeavingState) : Prop where
  inside : type < state.module.types.length
  room : ∀ index ∈ heads, ∃ slot, state.methodState? type index = some slot ∧ slot.HasRoom
  touched : ∀ index ∈ state.touched, state.hasMethod type index = true

private theorem hasMethod_applyEdit {index : Nat} (there : state.hasMethod type index = true) :
    (applyEdit type state edit).hasMethod type index = true := by
  obtain ⟨method, stored⟩ := Option.isSome_iff_exists.mp there
  have slot : state.methodState? type index = some ⟨method, state.cursors (type, index)⟩ :=
    methodState?_eq_some.mpr ⟨stored, rfl⟩
  rw [hasMethod_eq, (methodState?_eq_some.mp (methodState?_applyEdit slot)).1, Option.isSome_some]

private theorem hasMethod_of_touches {index : Nat} (inside : type < state.module.types.length)
    (finds : ∀ index ∈ edit.target?, state.hasMethod type index = true)
    (touched : index ∈ edit.touches state.module.types[type]?) :
    (applyEdit type state edit).hasMethod type index = true := by
  cases edit with
  | replaceBody method body =>
      obtain rfl := List.mem_singleton.mp touched
      exact hasMethod_applyEdit (finds index rfl)
  | prependToConstructor method block maxStack =>
      simp only [Edit.touches] at touched
      split at touched
      · obtain rfl := List.mem_singleton.mp touched
        exact hasMethod_applyEdit (finds index rfl)
      · cases touched
  | addField field => cases touched
  | removeField name => cases touched
  | addMethod method =>
      obtain rfl := List.mem_singleton.mp touched
      rw [hasMethod_eq, methodAt?_applyEdit, List.getElem?_eq_getElem inside]
      simp [Edit.addedMethods]

private theorem InRange.applied (inRange : InRange type heads state) (keeps : edit.Keeps heads)
    (finds : ∀ index ∈ edit.target?, state.hasMethod type index = true) :
    state.reaches type edit = true ∧ InRange type heads (applyEdit type state edit) := by
  constructor
  · cases edit with
    | replaceBody method body => exact finds method rfl
    | prependToConstructor method block maxStack =>
        obtain ⟨slot, found, room⟩ := inRange.room method keeps
        obtain ⟨stored, cursor⟩ := methodState?_eq_some.mp found
        have fits : (state.body? type method).all fun body =>
            state.cursors (type, method) ≤ body.instructions.length := by
          rw [body?_eq_bind, stored, cursor, Option.bind_some]
          cases has : slot.method.body with
          | none => rfl
          | some body => exact decide_eq_true (room body has)
        exact Bool.and_eq_true_iff.mpr ⟨finds method rfl, fits⟩
    | addField field => exact decide_eq_true inRange.inside
    | removeField name => exact decide_eq_true inRange.inside
    | addMethod method => exact decide_eq_true inRange.inside
  · refine ⟨?_, fun index head => ?_, fun index touched => ?_⟩
    · rw [types_applyEdit, List.length_modify]
      exact inRange.inside
    · obtain ⟨slot, found, room⟩ := inRange.room index head
      exact ⟨_, methodState?_applyEdit found, room.advance keeps head⟩
    · rw [touched_applyEdit_eq] at touched
      rcases List.mem_append.mp touched with new | old
      · exact hasMethod_of_touches inRange.inside finds new
      · exact hasMethod_applyEdit (inRange.touched index old)

private theorem InRange.foldl {edits : List Edit} (inRange : InRange type heads state)
    (keeps : ∀ edit ∈ edits, edit.Keeps heads)
    (finds : ∀ edit ∈ edits, ∀ index ∈ edit.target?, state.hasMethod type index = true) :
    state.reachesAll type edits = true ∧
      InRange type heads (edits.foldl (applyEdit type) state) := by
  induction edits generalizing state with
  | nil => exact ⟨rfl, inRange⟩
  | cons edit edits hypothesis =>
      obtain ⟨keep, keeps⟩ := List.forall_mem_cons.mp keeps
      obtain ⟨find, finds⟩ := List.forall_mem_cons.mp finds
      obtain ⟨reaches, applied⟩ := inRange.applied keep find
      obtain ⟨others, after⟩ := hypothesis applied keeps fun edit member index target =>
        hasMethod_applyEdit (finds edit member index target)
      exact ⟨Bool.and_eq_true_iff.mpr ⟨reaches, others⟩, after⟩

private theorem InRange.apply {edit : TypeEdit} (inRange : InRange edit.type heads state)
    (keeps : ∀ change ∈ edit.edits, change.Keeps heads)
    (finds : ∀ change ∈ edit.edits, ∀ index ∈ change.target?,
      state.hasMethod edit.type index = true) :
    state.reachesAll edit.type edit.edits = true ∧ InRange edit.type heads (state.apply edit) := by
  obtain ⟨reaches, inside, room, touched⟩ := inRange.foldl keeps finds
  exact ⟨reaches, inside, room, touched⟩

/-! ## Tasks -/

private theorem attemptTask_follows (reaches : ∀ edit : TypeEdit,
      task.execute (.ofModule state.module resolver configuration) = .ok edit →
      state.reachesAll edit.type edit.edits = true) :
    attemptTask resolver configuration state task =
      (runTask resolver configuration state task).mapError .failure := by
  unfold attemptTask runTask
  dsimp only
  split
  · refine Outcome.bind_follows rfl fun edit executed => ?_
    split
    · rfl
    · rw [attempt, if_pos (reaches edit executed)]
      rfl
  · rfl

/-- The edits of a mapped property: they replace accessors that are there, put preludes into constructors,
and have to do with fields otherwise. -/
theorem edits_of_mapProperty {context : WeavingContext} {typeIndex propertyIndex : Nat}
    {edit : TypeEdit} {change : Edit} (executed : context.mapProperty typeIndex propertyIndex = .ok edit)
    (member : change ∈ edit.edits) :
    ∃ located property, context.targetType typeIndex = .ok located ∧
      located.definition.properties[propertyIndex]? = some property ∧
      ((∃ accessor body, change = .replaceBody accessor body ∧ accessor ∈ property.accessors ∧
          ∃ method, located.definition.methods[accessor]? = some method) ∨
        (∃ constructor code maxStack, change = .prependToConstructor constructor code maxStack ∧
          constructor ∈ located.definition.constructors) ∨
        (∃ field, change = .addField field) ∨ ∃ name, change = .removeField name) := by
  rcases WeavingContext.mapProperty_eq_ok executed with rfl | ⟨located, property, identifier, mapping,
    here, listed, -, getters, setters, -, -, routed⟩
  · cases member
  refine ⟨located, property, here, WeavingContext.propertyOf_eq_ok.mp listed, ?_⟩
  obtain ⟨_, _, _, setterEdits, -, -, replaced, -, rfl⟩ := WeavingContext.routeThrough_eq_ok routed
  simp only [List.mem_append, List.mem_cons, List.mem_map, Option.mem_toList] at member
  obtain (((rfl | ⟨getter, accessor, rfl⟩) | member) | ⟨_, _, rfl⟩) | ⟨constructor, constructs,
    rfl⟩ := member
  · exact .inr (.inr (.inl ⟨_, rfl⟩))
  · obtain ⟨method, found, -⟩ := WeavingContext.checkAccessor_eq_ok.mp (getters getter accessor)
    exact .inl ⟨getter, _, rfl, List.mem_append_left _ (Option.mem_toList.mpr accessor), method, found⟩
  · obtain ⟨setter, _, accessor, rfl, _⟩ := replaced change member
    obtain ⟨method, found, -⟩ := WeavingContext.checkAccessor_eq_ok.mp (setters setter accessor)
    exact .inl ⟨setter, _, rfl, List.mem_append_right _ (Option.mem_toList.mpr accessor), method, found⟩
  · exact .inr (.inr (.inr ⟨_, rfl⟩))
  · exact .inr (.inl ⟨constructor, _, _, rfl, constructs⟩)

private theorem keeps_of_mapProperty {context : WeavingContext} {typeIndex propertyIndex : Nat}
    {located : LocatedType} {property : PropertyDef} {edit : TypeEdit}
    (here : context.targetType typeIndex = .ok located)
    (listed : located.definition.properties[propertyIndex]? = some property)
    (ordinary : ∀ accessor ∈ property.accessors, accessor ∉ located.definition.constructors)
    (executed : context.mapProperty typeIndex propertyIndex = .ok edit) :
    ∀ change ∈ edit.edits, change.Keeps located.definition.constructors := by
  intro change member
  obtain ⟨located', property', here', listed', cases⟩ := edits_of_mapProperty executed member
  obtain rfl := Except.ok.inj (here.symm.trans here')
  obtain rfl := Option.some.inj (listed.symm.trans listed')
  rcases cases with ⟨accessor, body, rfl, accesses, -⟩ | ⟨constructor, code, maxStack, rfl,
    constructs⟩ | ⟨field, rfl⟩ | ⟨name, rfl⟩
  · exact ordinary accessor accesses
  · exact constructs
  · exact trivial
  · exact trivial

private theorem keeps_of_unrouted {edit : TypeEdit} {context : WeavingContext}
    (unrouted : task.routed? = none)
    (executed : task.execute context = .ok edit) : ∀ change ∈ edit.edits, change.Keeps [] := by
  intro change member
  cases task with
  | mappedProperty typeIndex propertyIndex => cases unrouted
  | changeNotification typeIndex propertyIndex =>
      rcases WeavingContext.notifyChanges_eq_ok executed with rfl | ⟨_, _, _, _, _, _, _, _, _, _, _,
        rfl⟩
      · cases member
      · obtain rfl := List.mem_singleton.mp member
        exact List.not_mem_nil
  | typeHierarchy typeIndex =>
      rcases WeavingContext.overrideQuery_eq_ok executed with rfl | ⟨_, _, _, _, _, _, _, _, _, _, rfl⟩
      · cases member
      · obtain rfl := List.mem_singleton.mp member
        exact trivial

private theorem hasMethod_of_execute {edit : TypeEdit}
    (executed : task.execute (.ofModule state.module resolver configuration) = .ok edit) :
    ∀ change ∈ edit.edits, ∀ index ∈ change.target?,
      state.hasMethod task.typeIndex index = true := by
  have hasMethod : ∀ {located : LocatedType} {index : Nat} {method : MethodDef},
      (WeavingContext.ofModule state.module resolver configuration).targetType task.typeIndex =
        .ok located →
      located.definition.methods[index]? = some method →
      state.hasMethod task.typeIndex index = true := by
    intro located index method here listed
    have stored := methodAt?_eq_some.mpr ⟨_, (WeavingContext.targetType_eq_ok.mp here).1, listed⟩
    exact Option.isSome_iff_exists.mpr ⟨method, stored⟩
  intro change member index target
  cases task with
  | mappedProperty typeIndex propertyIndex =>
      obtain ⟨located, property, here, -, cases⟩ := edits_of_mapProperty executed member
      rcases cases with ⟨accessor, body, rfl, -, method, listed⟩ | ⟨constructor, code, maxStack, rfl,
        constructs⟩ | ⟨field, rfl⟩ | ⟨name, rfl⟩
      · obtain rfl := Option.some.inj target
        exact hasMethod here listed
      · obtain rfl := Option.some.inj target
        obtain ⟨method, listed, -⟩ := WeavingContext.mem_constructors.mp constructs
        exact hasMethod here listed
      · cases target
      · cases target
  | changeNotification typeIndex propertyIndex =>
      rcases WeavingContext.notifyChanges_eq_ok executed with rfl | ⟨located, _, setter, _, _, here, -,
        -, checked, -, -, rfl⟩
      · cases member
      obtain rfl := List.mem_singleton.mp member
      obtain rfl := Option.some.inj target
      obtain ⟨method, listed, -⟩ := WeavingContext.checkAccessor_eq_ok.mp checked
      exact hasMethod here listed
  | typeHierarchy typeIndex =>
      rcases WeavingContext.overrideQuery_eq_ok executed with rfl | ⟨_, _, _, _, _, _, _, _, _, _, rfl⟩
      · cases member
      · obtain rfl := List.mem_singleton.mp member
        cases target

/-- A task runs in range if it keeps to the methods that get preludes. -/
theorem InRange.executed (inRange : InRange task.typeIndex heads state)
    (keeps : ∀ edit : TypeEdit,
      task.execute (.ofModule state.module resolver configuration) = .ok edit →
      ∀ change ∈ edit.edits, change.Keeps heads) :
    attemptTask resolver configuration state task =
        (runTask resolver configuration state task).mapError .failure ∧
      ∀ after, runTask resolver configuration state task = .ok after →
        InRange task.typeIndex heads after := by
  have applied : ∀ edit : TypeEdit,
      task.execute (.ofModule state.module resolver configuration) = .ok edit →
      state.reachesAll edit.type edit.edits = true ∧
        InRange task.typeIndex heads (state.apply edit) := by
    intro edit executed
    have finds := hasMethod_of_execute executed
    rw [← Task.type_of_execute executed] at inRange finds ⊢
    exact inRange.apply (keeps edit executed) finds
  refine ⟨attemptTask_follows fun edit executed => (applied edit executed).1, fun after ran => ?_⟩
  rcases runTask_eq_ok ran with rfl | ⟨edit, executed, rfl⟩
  · exact inRange
  · exact (applied edit executed).2

/-! ## Visits -/

/-- What holds of a type while its properties are mapped. -/
structure Poised (original : TypeDef) (type : Nat) (state : WeavingState) : Prop where
  inRange : InRange type original.constructors state
  types : ∃ definition, state.module.types[type]? = some definition ∧
    definition.properties = original.properties ∧
    definition.methods.map MethodDef.header = original.methods.map MethodDef.header

private theorem Poised.executed {index : Nat} {property : PropertyDef}
    (poised : Poised original type state) (listed : original.properties[index]? = some property)
    (ordinary : ∀ accessor ∈ property.accessors, accessor ∉ original.constructors) :
    attemptTask resolver configuration state (.mappedProperty type index) =
        (runTask resolver configuration state (.mappedProperty type index)).mapError .failure ∧
      ∀ after, runTask resolver configuration state (.mappedProperty type index) = .ok after →
        Poised original type after := by
  obtain ⟨inRange, definition, found, properties, headers⟩ := poised
  have constructors := TypeDef.constructors_of_headers headers
  have located : (WeavingContext.ofModule state.module resolver configuration).targetType type =
      .ok ⟨definition, none⟩ := WeavingContext.targetType_eq_ok.mpr ⟨found, rfl⟩
  have keeps : ∀ edit : TypeEdit, (Task.mappedProperty type index).execute
      (.ofModule state.module resolver configuration) = .ok edit →
      ∀ change ∈ edit.edits, change.Keeps original.constructors := by
    intro edit executed
    rw [← constructors] at ordinary ⊢
    rw [← properties] at listed
    exact keeps_of_mapProperty located listed ordinary executed
  obtain ⟨follows, kept⟩ :=
    @InRange.executed resolver configuration _ state (.mappedProperty type index) inRange keeps
  refine ⟨follows, fun after ran => ⟨kept after ran, ?_⟩⟩
  rcases runTask_eq_ok ran with rfl | ⟨edit, executed, rfl⟩
  · exact ⟨definition, found, properties, headers⟩
  · have own : edit.type = type := Task.type_of_execute executed
    subst own
    obtain ⟨methods, there, same⟩ := types_foldl edit.edits found
    refine ⟨_, there, properties, (same ?_).trans headers⟩
    rcases Task.addedMethods_of_execute executed with none | hierarchy
    · exact none
    · cases hierarchy

private theorem InRange.verify (inRange : InRange type heads state) :
    state.attemptVerify type = (state.verifyTouched type).mapError .failure :=
  if_pos (List.all_eq_true.mpr inRange.touched)

private theorem Waiting.poised (waits : Waiting module (type :: waiting) state)
    (found : module.types[type]? = some original) :
    Poised original type { state with touched := [] } := by
  obtain ⟨same, cursors⟩ := waits.waits type List.mem_cons_self
  have here : state.module.types[type]? = some original := same.trans found
  refine ⟨⟨(List.getElem?_eq_some_iff.mp here).1, fun index head => ?_, ?_⟩, original, here, rfl, rfl⟩
  · obtain ⟨method, listed, -⟩ := WeavingContext.mem_constructors.mp head
    have stored := methodAt?_eq_some.mpr ⟨original, here, listed⟩
    refine ⟨⟨method, 0⟩, methodState?_eq_some.mpr ⟨stored, cursors index⟩, ?_⟩
    exact fun body _ => Nat.zero_le _
  · exact fun index member => absurd member List.not_mem_nil

private theorem tasks_follow {holds : WeavingState → Prop} {tasks : List Task}
    (each : ∀ task ∈ tasks, ∀ state, holds state →
      attemptTask resolver configuration state task =
          (runTask resolver configuration state task).mapError .failure ∧
        ∀ after, runTask resolver configuration state task = .ok after → holds after)
    (start : holds state) :
    tasks.foldlM (attemptTask resolver configuration) state =
        (tasks.foldlM (runTask resolver configuration) state).mapError .failure ∧
      ∀ after, tasks.foldlM (runTask resolver configuration) state = .ok after → holds after := by
  induction tasks generalizing state with
  | nil => exact ⟨rfl, fun after ran => Except.ok.inj ran ▸ start⟩
  | cons task tasks hypothesis =>
      obtain ⟨here, others⟩ := List.forall_mem_cons.mp each
      obtain ⟨follows, kept⟩ := here state start
      rw [List.foldlM_cons, List.foldlM_cons]
      refine ⟨Outcome.bind_follows follows fun next ran => (hypothesis others (kept next ran)).1, ?_⟩
      intro after ran
      obtain ⟨next, first, rest⟩ := Outcome.bind_eq_ok.mp ran
      exact (hypothesis others (kept next first)).2 after rest

private theorem Poised.plan (resolver : Resolver) (poised : Poised original type state)
    (ordinary : original.OrdinaryAccessors configuration) :
    (original.tasks configuration type).foldlM (attemptTask resolver configuration) state =
        ((original.tasks configuration type).foldlM (runTask resolver configuration)
          state).mapError .failure ∧
      ∀ after, (original.tasks configuration type).foldlM (runTask resolver configuration) state =
        .ok after → InRange type [] after := by
  have mapping : ∀ task ∈ (original.mappedProperties configuration).map (Task.mappedProperty type),
      ∀ state, Poised original type state →
        attemptTask resolver configuration state task =
            (runTask resolver configuration state task).mapError .failure ∧
          ∀ after, runTask resolver configuration state task = .ok after →
            Poised original type after := by
    intro task member state poised
    obtain ⟨index, mapped, rfl⟩ := List.mem_map.mp member
    obtain ⟨property, listed, -⟩ := TypeDef.mem_mappedProperties.mp mapped
    exact poised.executed listed (ordinary index mapped property listed)
  have others : ∀ task ∈ (original.notifyingProperties configuration).map
        (Task.changeNotification type) ++ original.queryTasks configuration type,
      ∀ state, InRange type [] state →
        attemptTask resolver configuration state task =
            (runTask resolver configuration state task).mapError .failure ∧
          ∀ after, runTask resolver configuration state task = .ok after →
            InRange type [] after := by
    intro task member state inRange
    have unrouted : task.typeIndex = type ∧ task.routed? = none := by
      rcases List.mem_append.mp member with notifies | queries
      · obtain ⟨index, -, rfl⟩ := List.mem_map.mp notifies
        exact ⟨rfl, rfl⟩
      · rw [TypeDef.mem_queryTasks queries]
        exact ⟨rfl, rfl⟩
    obtain ⟨rfl, unrouted⟩ := unrouted
    exact inRange.executed fun edit executed => keeps_of_unrouted unrouted executed
  obtain ⟨first, mapped⟩ := tasks_follow mapping poised
  -- the last prelude has been put in, so nothing has to be kept from here on
  have relaxed : ∀ between, ((original.mappedProperties configuration).map
      (Task.mappedProperty type)).foldlM (runTask resolver configuration) state = .ok between →
      InRange type [] between := by
    intro between ran
    obtain ⟨inside, -, touched⟩ := (mapped between ran).inRange
    exact ⟨inside, by simp, touched⟩
  rw [TypeDef.tasks, List.append_assoc, List.foldlM_append, List.foldlM_append]
  refine ⟨Outcome.bind_follows first fun between ran =>
    (tasks_follow others (relaxed between ran)).1, fun after ran => ?_⟩
  obtain ⟨between, first, rest⟩ := Outcome.bind_eq_ok.mp ran
  exact (tasks_follow others (relaxed between first)).2 after rest

private theorem visit_follows (resolver : Resolver) (waits : Waiting module (type :: waiting) state)
    (found : module.types[type]? = some original) (ordinary : original.OrdinaryAccessors configuration) :
    attemptType resolver configuration state type =
      (weaveType resolver configuration state type).mapError .failure := by
  have planned : state.module.plan configuration type = original.tasks configuration type :=
    Module.plan_eq ((waits.waits type List.mem_cons_self).1.trans found)
  obtain ⟨follows, inRange⟩ := (waits.poised found).plan resolver ordinary
  unfold attemptType weaveType
  rw [planned]
  refine Outcome.bind_follows follows fun after ran => ?_
  split
  · exact Outcome.bind_follows (inRange after ran).verify fun _ _ => rfl
  · rfl

private theorem visits_follow (waits : Waiting module waiting state)
    (inside : ∀ type ∈ waiting, type < module.types.length)
    (ordinary : ∀ type ∈ module.types, type.OrdinaryAccessors configuration) :
    waiting.foldlM (attemptType resolver configuration) state =
      (waiting.foldlM (weaveType resolver configuration) state).mapError .failure := by
  induction waiting generalizing state with
  | nil => rfl
  | cons type waiting hypothesis =>
      obtain ⟨here, others⟩ := List.forall_mem_cons.mp inside
      have follows := visit_follows resolver waits (List.getElem?_eq_getElem here)
        (ordinary _ (List.getElem_mem here))
      rw [List.foldlM_cons, List.foldlM_cons]
      exact Outcome.bind_follows follows fun next visited =>
        hypothesis (waits.weaveType visited) others

end WeavingState

namespace Module

variable {resolver : Resolver} {configuration : Configuration} {module : Module}

/-- Unless a constructor is the accessor of a property that is to be mapped, every edit of a pass is in
range: a run does not crash, and ends as weaving does. -/
theorem run_eq_weave (ordinary : ∀ type ∈ module.types, type.OrdinaryAccessors configuration) :
    module.run resolver configuration =
        (module.weave resolver configuration).mapError .failure ∧
      module.run resolver configuration ≠ .error .crash := by
  have follows : module.run resolver configuration =
      (module.weave resolver configuration).mapError .failure := by
    unfold run weave
    split
    · rfl
    · refine Outcome.bind_follows ?_ fun _ _ => rfl
      exact WeavingState.visits_follow (WeavingState.waiting_initial module)
        (fun _ member => mem_baseFirstOrder.mp member) ordinary
  refine ⟨follows, fun crashes => ?_⟩
  rw [follows] at crashes
  cases outcome : module.weave resolver configuration with
  | error error =>
      rw [outcome] at crashes
      cases crashes
  | ok woven =>
      rw [outcome] at crashes
      cases crashes

theorem run_eq_weave_sampleModule :
    (∀ type ∈ sampleModule.types, type.OrdinaryAccessors {}) ∧
      sampleModule.run sampleResolver {} =
        (sampleModule.weave sampleResolver {}).mapError .failure ∧
      sampleModule.run sampleResolver {} ≠ .error .crash := by
  have ordinary : ∀ type ∈ sampleModule.types, type.OrdinaryAccessors {} := by
    intro type member index _ property listed accessor accesses constructs
    obtain ⟨method, found, isConstructor⟩ := WeavingContext.mem_constructors.mp constructs
    rw [weavable_sampleModule.accessors type member property (List.mem_of_getElem? listed) accessor
      accesses method found] at isConstructor
    cases isConstructor
  exact ⟨ordinary, run_eq_weave ordinary⟩

private theorem crashes_eq_true :
    module.crashes resolver configuration = true ↔ module.run resolver configuration = .error .crash := by
  unfold crashes
  split
  · next crashes => simp [crashes]
  · next other => simpa using other

/-! A constructor that is the getter of the third property. Its new body has five instructions, and the
preludes of the first two properties have ten. -/

def constructedModule : Module :=
  sample "App" [{ sampleCounter with
    methods :=
      [{ sampleMethod "get_Count" (.builtin .int32) [] none with
          flags := MethodFlag.compilerControlled },
       { sampleMethod "get_Size" (.builtin .int32) [] none with
          flags := MethodFlag.compilerControlled },
       { sampleMethod MethodDef.constructorName (.builtin .int32) []
          (some (.ofCode 1 [.pushInt32 0, Opcode.ret.plain])) with
          flags := MethodFlag.compilerControlled }]
    properties :=
      [{ sampleCount with setter := none }, sampleSize,
       ⟨"Kind", .builtin .int32, some 2, none,
        [sampleAttribute "RdfPropertyAttribute" "urn:kind"]⟩] }]

/-- A validated module with finite chains may crash the pass. -/
theorem run_crashes :
    ¬ ∀ (module : Module) (resolver : Resolver) (configuration : Configuration),
      module.validate = .ok () →
      (∀ index type,
        (WeavingContext.ofModule module resolver configuration).metadata.targetType? index =
          some type →
        (WeavingContext.ofModule module resolver configuration).metadata.Ends type) →
      module.run resolver configuration ≠ .error .crash := by
  intro holds
  refine holds constructedModule sampleResolver {} (by decide) ?_ ?_
  · intro index type found
    cases index with
    | zero =>
        obtain rfl := Option.some.inj found
        exact ⟨2, by decide⟩
    | succ index => cases found
  · exact crashes_eq_true.mp (by decide +kernel)

end Module

end PropertyWeaver
