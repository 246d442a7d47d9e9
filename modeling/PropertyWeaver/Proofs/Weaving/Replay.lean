import PropertyWeaver.Proofs.Weaving.MappingFields
import PropertyWeaver.Proofs.Weaving.Rewriting

/-!
# Notifying setters made again

A notifying setter stores the field that the setter before it has stored. So a task for a notifying
property that runs once more, in an extended module, finds the same field and makes the same setter.
-/

set_option autoImplicit false

namespace PropertyWeaver

variable {resolver : Resolver} {configuration : Configuration}

/-! ## Stored fields -/

/-- The field of the first field store. -/
def MethodBody.firstStore? (body : MethodBody) : Option FieldRef :=
  (body.instructions.find? fun instruction => instruction.opcode = .stfld).bind Instruction.field?

theorem TypeDef.backingField?_eq_some {type : TypeDef} {property : PropertyDef} {field : FieldRef} :
    type.backingField? property = some field ↔
      ∃ setter method body, property.setter = some setter ∧ type.methods[setter]? = some method ∧
        method.isSynthesized = true ∧ method.body = some body ∧ body.firstStore? = some field := by
  simp only [backingField?, Option.bind_eq_bind, Option.bind_eq_some_iff, MethodBody.firstStore?]
  constructor
  · rintro ⟨setter, accessor, method, listed, rest⟩
    split at rest
    · cases rest
    · next synthesized =>
      obtain ⟨body, has, rest⟩ := Option.bind_eq_some_iff.mp rest
      obtain ⟨store, first, operand⟩ := Option.bind_eq_some_iff.mp rest
      exact ⟨setter, method, body, accessor, listed, by simpa using synthesized, has, store, first,
        operand⟩
  · rintro ⟨setter, method, body, accessor, listed, synthesized, has, store, first, operand⟩
    refine ⟨setter, accessor, method, listed, ?_⟩
    simp [synthesized, has, first, operand]

private theorem WeavingContext.firstStore?_setter {context : WeavingContext} {type : LocatedType}
    {property : PropertyDef} {field : FieldRef} {body : MethodBody}
    (made : context.setter type property (.field field) = .ok body) :
    body.firstStore? = some field := by
  obtain ⟨equality, notify, -, -, rfl⟩ := setter_eq_ok.mp made
  cases equality <;> rfl

namespace Module

/-- The body of a method stores a field before any other. -/
def Stores (module : Module) (type index : Nat) (field : FieldRef) : Prop :=
  ∃ method body, module.methodAt? type index = some method ∧ method.body = some body ∧
    body.firstStore? = some field

/-- An extended module in which the methods of a type store what they have stored before. -/
structure Resembles (type : Nat) (before after : Module) : Prop where
  extended : before.Extends after
  stores : ∀ index field, before.Stores type index field → after.Stores type index field

namespace Resembles

variable {type : Nat} {before between after : Module}

theorem refl (type : Nat) (module : Module) : Resembles type module module :=
  ⟨.refl module, fun _ _ stores => stores⟩

private theorem trans (first : Resembles type before between)
    (second : Resembles type between after) :
    Resembles type before after :=
  ⟨first.extended.trans second.extended,
    fun index field stores => second.stores index field (first.stores index field stores)⟩

end Resembles

variable {type setter : Nat} {module : Module} {field : FieldRef} {body : MethodBody}

private theorem extends_rewrite (type : Nat) (module : Module) (write : Nat × MethodBody) :
    module.Extends (module.rewrite type write) := by
  have plain : (Edit.replaceBody write.1 write.2).Plain := by simp [Edit.Plain, Edit.addedMethods]
  exact WeavingState.extends_applyEdit plain type (.initial module)

private theorem resembles_rewrite (stores : module.Stores type setter field)
    (first : body.firstStore? = some field) :
    module.Resembles type (module.rewrite type (setter, body)) := by
  refine ⟨extends_rewrite type module _, ?_⟩
  rintro index other ⟨method, old, found, has, stored⟩
  have after : (module.rewrite type (setter, body)).methodAt? type index =
      some (MethodDef.written index method (setter, body)) := by
    have through := @methodAt?_rewriteAll type [(setter, body)] module index
    rw [found] at through
    exact through
  by_cases here : index = setter
  · subst here
    obtain ⟨method', old', found', has', stored'⟩ := stores
    obtain rfl := Option.some.inj (found.symm.trans found')
    obtain rfl := Option.some.inj (has.symm.trans has')
    obtain rfl := Option.some.inj (stored.symm.trans stored')
    exact ⟨_, body, after, by simp [MethodDef.written], first⟩
  · refine ⟨_, old, after, ?_, stored⟩
    rw [MethodDef.written, if_neg here]
    exact has

end Module

/-! ## Tasks for notifying properties -/

namespace WeavingContext

private theorem setter_extends {before after : WeavingContext} {type type' : LocatedType}
    {property : PropertyDef} {source : ValueSource} {body : MethodBody}
    (extended : before.metadata.Extends after.metadata)
    (same : after.configuration = before.configuration) (types : type.Extends type')
    (made : before.setter type property source = .ok body) :
    after.setter type' property source = .ok body := by
  obtain ⟨equality, notify, compares, notifies, rfl⟩ := setter_eq_ok.mp made
  obtain ⟨notify', notifies', methods⟩ := exists_of_rel (extended.inheritedMethod? types
    before.configuration.runtime.raisePropertyChanged (List.cons_ne_nil "System.String" [])) notifies
  refine setter_eq_ok.mpr ⟨equality, notify', ?_, ?_, ?_⟩
  · rw [extended.equality?, same, compares]
  · rw [same, notifies']
  · rw [methods.methodRef]

/-- What a task for a notifying property asks for if it applies. -/
structure Notifies (context : WeavingContext) (typeIndex propertyIndex setter : Nat)
    (body : MethodBody) (field : FieldRef) (edit : TypeEdit) : Prop where
  executed : context.notifyChanges typeIndex propertyIndex = .ok edit
  type : edit.type = typeIndex
  edits : edit.edits = [.replaceBody setter body]
  woven : ∀ member ∈ edit.woven, member.task = .changeNotification
  stores : context.metadata.target.Stores typeIndex setter field
  first : body.firstStore? = some field

variable {typeIndex propertyIndex : Nat} {edit : TypeEdit}

private theorem notifies_of_canNotify {context : WeavingContext}
    (applies : context.canNotify typeIndex propertyIndex = true)
    (executed : context.notifyChanges typeIndex propertyIndex = .ok edit) :
    ∃ type property setter field body, context.targetType typeIndex = .ok type ∧
      propertyOf type propertyIndex = .ok property ∧ property.setter = some setter ∧
      checkAccessor type.definition property .setter setter = .ok () ∧
      type.definition.backingField? property = some field ∧
      context.setter type property (.field field) = .ok body ∧
      edit = ⟨typeIndex, [.replaceBody setter body],
        some ⟨type.fullName, property.name, .changeNotification, "notify"⟩⟩ := by
  simp only [notifyChanges, Outcome.bind_eq_ok] at executed
  obtain ⟨type, located, property, listed, rest⟩ := executed
  cases accessor : property.setter with
  | none =>
      have here := (targetType_eq_ok.mp located).1
      have there := propertyOf_eq_ok.mp listed
      simp [canNotify, here, there, accessor] at applies
  | some setter =>
      rw [accessor] at rest
      simp only [Outcome.bind_eq_ok, orError_eq_ok, Outcome.pure_eq, Except.ok.injEq] at rest
      obtain ⟨_, checked, field, backing, body, made, rfl⟩ := rest
      exact ⟨type, property, setter, field, body, located, listed, accessor, checked, backing, made,
        rfl⟩

end WeavingContext

/-- A task that applies asks for the same setter in every module that resembles this one. -/
theorem Module.Resembles.notifies {before after : Module} {typeIndex propertyIndex : Nat}
    {edit : TypeEdit} (resembles : before.Resembles typeIndex after)
    (applies : (WeavingContext.ofModule before resolver configuration).canNotify typeIndex
      propertyIndex = true)
    (executed : (WeavingContext.ofModule before resolver configuration).notifyChanges typeIndex
      propertyIndex = .ok edit) :
    ∃ setter body field, (WeavingContext.ofModule after resolver configuration).Notifies typeIndex
      propertyIndex setter body field edit := by
  obtain ⟨type, property, setter, field, body, located, listed, accessor, checked, backing, made,
    rfl⟩ := WeavingContext.notifies_of_canNotify applies executed
  obtain ⟨type', located', types⟩ := resembles.extended.targetType located
  obtain ⟨index, method, old, accessor', stored, synthesized, has, first⟩ :=
    TypeDef.backingField?_eq_some.mp backing
  obtain rfl := Option.some.inj (accessor.symm.trans accessor')
  have here := (WeavingContext.targetType_eq_ok.mp located).1
  have here' := (WeavingContext.targetType_eq_ok.mp located').1
  obtain ⟨method', old', found', has', first'⟩ := resembles.stores setter field
    ⟨method, old, WeavingState.methodAt?_eq_some.mpr ⟨_, here, stored⟩, has, first⟩
  obtain ⟨definition, here'', stored'⟩ := WeavingState.methodAt?_eq_some.mp found'
  obtain rfl := Option.some.inj (here'.symm.trans here'')
  have checked' := types.checkAccessor checked
  have synthesized' : method'.isSynthesized = true := by
    obtain ⟨method'', stored'', synthesized⟩ := WeavingContext.checkAccessor_eq_ok.mp checked'
    obtain rfl := Option.some.inj (stored'.symm.trans stored'')
    exact synthesized
  have backing' : type'.definition.backingField? property = some field :=
    TypeDef.backingField?_eq_some.mpr
      ⟨setter, method', old', accessor, stored', synthesized', has', first'⟩
  have made' := WeavingContext.setter_extends (resembles.extended.metadata resolver configuration) rfl
    types made
  have named : type'.fullName = type.fullName :=
    LocatedType.eq_of_header types.header LocatedType.fullName fun _ => rfl
  refine ⟨setter, body, field, ?_, rfl, rfl, ?_, ⟨method', old', found', has', first'⟩,
    WeavingContext.firstStore?_setter made⟩
  · simp only [WeavingContext.notifyChanges, located', types.propertyOf listed, accessor, checked',
      backing', made', orError, Outcome.ok_bind, Outcome.pure_eq, named]
  · intro member woven
    obtain rfl := Option.some.inj woven
    rfl

/-- A report of a pass that has made notifying setters only. -/
structure WeaveReport.OnlyNotifies (report : WeaveReport) : Prop where
  alreadyInstrumented : report.alreadyInstrumented = false
  fieldsInjected : report.fieldsInjected = 0
  fieldsRemoved : report.fieldsRemoved = 0
  methodsAdded : report.methodsAdded = 0
  constructorsPatched : report.constructorsPatched = 0
  members : ∀ member ∈ report.members, member.task = .changeNotification

/-- The tasks for the notifying properties of a type, once more, write bodies that are there. -/
def Module.Replays (resolver : Resolver) (configuration : Configuration) (tasks : List Task)
    (type : Nat) (module : Module) (writes : List (Nat × MethodBody)) : Prop :=
  ∀ again : WeavingState, module.Resembles type again.module → again.report.OnlyNotifies →
    ∃ final, tasks.foldlM (WeavingState.runTask resolver configuration) again = .ok final ∧
      again.module.Resembles type final.module ∧
      final.module = writes.foldl (rewrite type) again.module ∧
      final.touched ⊆ writes.map Prod.fst ++ again.touched ∧ final.report.OnlyNotifies

theorem Module.Replays.of_resembles {tasks : List Task} {type : Nat} {before after : Module}
    {writes : List (Nat × MethodBody)}
    (replays : before.Replays resolver configuration tasks type writes)
    (resembles : before.Resembles type after) :
    after.Replays resolver configuration tasks type writes :=
  fun again similar only => replays again (resembles.trans similar) only

private theorem Module.Extends.exists_methodAt? {before after : Module}
    (extended : before.Extends after)
    {type index : Nat} {method : MethodDef} (found : before.methodAt? type index = some method) :
    ∃ method', after.methodAt? type index = some method' := by
  obtain ⟨definition, stored, listed⟩ := WeavingState.methodAt?_eq_some.mp found
  obtain ⟨definition', stored', types⟩ := exists_of_rel extended.types? stored
  obtain ⟨method', listed', -⟩ := types.getElem? listed
  exact ⟨method', WeavingState.methodAt?_eq_some.mpr ⟨definition', stored', listed'⟩⟩

namespace WeavingState

variable {type : Nat} {state before between after : WeavingState} {task : Task} {tasks : List Task}

private theorem apply_notifies {module : Module} {index setter : Nat} {body : MethodBody}
    {field : FieldRef} {edit : TypeEdit}
    (notifies : (WeavingContext.ofModule module resolver configuration).Notifies type index setter body
      field edit) :
    (state.apply edit).module = state.module.rewrite type (setter, body) ∧
      (state.apply edit).touched = setter :: state.touched ∧
      (state.report.OnlyNotifies → (state.apply edit).report.OnlyNotifies) := by
  obtain ⟨edited, edits, woven⟩ := edit
  obtain ⟨-, rfl, rfl, members, -, -⟩ := notifies
  refine ⟨rfl, rfl, fun only => ?_⟩
  obtain ⟨fresh, injected, removed, added, patched, each⟩ := only
  refine ⟨fresh, injected, removed, added, patched, fun member listed => ?_⟩
  rcases List.mem_append.mp listed with old | new
  · exact each member old
  · exact members member (Option.mem_toList.mp new)

private theorem resembles_apply {index setter : Nat} {body : MethodBody} {field : FieldRef}
    {edit : TypeEdit}
    (notifies : (WeavingContext.ofModule state.module resolver configuration).Notifies type index setter
      body field edit) :
    state.module.Resembles type (state.apply edit).module := by
  rw [(apply_notifies notifies).1]
  exact Module.resembles_rewrite notifies.stores notifies.first

/-- What tasks for notifying properties have done: they have written bodies, and would write the same
ones again. -/
structure Replayed (resolver : Resolver) (configuration : Configuration) (tasks : List Task)
    (type : Nat) (before after : WeavingState) (writes : List (Nat × MethodBody)) : Prop where
  resembles : before.module.Resembles type after.module
  touched : before.touched ⊆ after.touched
  result : after.module = writes.foldl (Module.rewrite type) before.module
  places : ∀ write ∈ writes, write.1 ∈ after.touched ∧
    ∃ method, after.module.methodAt? type write.1 = some method
  replays : after.module.Replays resolver configuration tasks type writes

theorem Replayed.types {writes : List (Nat × MethodBody)} {definition : TypeDef}
    (replayed : Replayed resolver configuration tasks type before after writes)
    (found : before.module.types[type]? = some definition) :
    after.module.types[type]? = some (definition.rewritten writes) := by
  rw [replayed.result, Module.rewriteAll_eq, Module.types_modifyType, List.getElem?_modify_eq,
    Module.types_addReferences, found]
  rfl

private theorem Replayed.nil (type : Nat) (state : WeavingState) :
    Replayed resolver configuration [] type state state [] where
  resembles := .refl type _
  touched := List.Subset.refl _
  result := rfl
  places _ member := absurd member List.not_mem_nil
  replays again _ only := ⟨again, rfl, .refl type _, rfl, List.Subset.refl _, only⟩

private theorem Replayed.cons {first rest : List (Nat × MethodBody)}
    (head : Replayed resolver configuration [task] type before between first)
    (tail : Replayed resolver configuration tasks type between after rest) :
    Replayed resolver configuration (task :: tasks) type before after (first ++ rest) where
  resembles := head.resembles.trans tail.resembles
  touched := List.Subset.trans head.touched tail.touched
  result := by rw [tail.result, head.result, List.foldl_append]
  places write member := by
    rcases List.mem_append.mp member with early | late
    · obtain ⟨touched, method, found⟩ := head.places write early
      exact ⟨tail.touched touched, tail.resembles.extended.exists_methodAt? found⟩
    · exact tail.places write late
  replays again similar only := by
    -- the rest starts again from a module that resembles the one that it has left
    obtain ⟨middle, ran, step, result, touched, only⟩ :=
      head.replays again (tail.resembles.trans similar) only
    obtain ⟨final, ran', step', result', touched', only⟩ :=
      tail.replays middle (similar.trans step) only
    refine ⟨final, ?_, step.trans step', ?_, fun index member => ?_, only⟩
    · rw [← List.singleton_append, List.foldlM_append, ran, Outcome.ok_bind, ran']
    · rw [result', result, List.foldl_append]
    · rw [List.map_append, List.append_assoc, List.mem_append, List.mem_append]
      rcases List.mem_append.mp (touched' member) with late | early
      · exact .inr (.inl late)
      · exact (List.mem_append.mp (touched early)).imp_right .inr

/-- One task, in whatever resembles the module that it has left, does what it has done. -/
theorem replayed_runTask {index : Nat}
    (ran : runTask resolver configuration before (.changeNotification type index) = .ok after) :
    ∃ writes, Replayed resolver configuration [.changeNotification type index] type before after
      writes := by
  rcases runTask_cases ran with ⟨rfl, quiet⟩ | ⟨edit, applies, executed, -, rfl⟩
  · refine ⟨[], .refl type _, List.Subset.refl _, rfl, fun _ member => absurd member List.not_mem_nil,
      fun again similar only => ?_⟩
    -- a task that applies here would have applied the first time and asked for an edit
    have still : (Task.changeNotification type index).Quiet resolver configuration again.module := by
      intro applies
      have applied := similar.extended.canNotify.trans applies
      obtain ⟨edit, executed, nothing⟩ := quiet applied
      obtain ⟨setter, body, field, notifies⟩ := similar.notifies applied executed
      rw [notifies.edits] at nothing
      cases nothing
    exact ⟨again, by rw [List.foldlM_cons, runTask_of_quiet still]; rfl, .refl type _, rfl,
      List.Subset.refl _, only⟩
  · obtain ⟨setter, body, field, notifies⟩ :=
      (Module.Resembles.refl type before.module).notifies applies executed
    obtain ⟨module, touched, -⟩ := apply_notifies notifies
    have step := resembles_apply notifies
    refine ⟨[(setter, body)], step, ?_, module, ?_, fun again similar only => ?_⟩
    · rw [touched]
      exact List.subset_cons_self _ _
    · refine List.forall_mem_singleton.mpr ⟨touched ▸ List.mem_cons_self, ?_⟩
      obtain ⟨method, _, found, -⟩ := step.stores setter field notifies.stores
      exact ⟨method, found⟩
    · have whole := step.trans similar
      obtain ⟨setter', body', field', notifies'⟩ := whole.notifies applies executed
      obtain ⟨rfl, rfl⟩ : setter = setter' ∧ body = body' := by
        simpa using notifies.edits.symm.trans notifies'.edits
      obtain ⟨module', touched', reports⟩ := apply_notifies notifies'
      have ran' : runTask resolver configuration again (.changeNotification type index) =
          .ok (again.apply edit) := by
        refine runTask_of_execute (whole.extended.canNotify.symm.trans applies) notifies'.executed ?_
        rw [notifies'.edits]
        exact List.cons_ne_nil _ _
      exact ⟨again.apply edit, by rw [List.foldlM_cons, ran']; rfl, resembles_apply notifies', module',
        by rw [touched']; exact List.Subset.refl _, reports only⟩

/-- Tasks for notifying properties write bodies, and write the same ones again in a module that
resembles the one that they have left. -/
theorem replayed_foldlM (own : ∀ task ∈ tasks, ∃ index, task = .changeNotification type index)
    (ran : tasks.foldlM (runTask resolver configuration) before = .ok after) :
    ∃ writes, Replayed resolver configuration tasks type before after writes := by
  induction tasks generalizing before with
  | nil =>
      obtain rfl := Except.ok.inj ran
      exact ⟨[], .nil type before⟩
  | cons task tasks hypothesis =>
      obtain ⟨⟨index, rfl⟩, others⟩ := List.forall_mem_cons.mp own
      rw [List.foldlM_cons] at ran
      obtain ⟨between, first, rest⟩ := Outcome.bind_eq_ok.mp ran
      obtain ⟨early, head⟩ := replayed_runTask first
      obtain ⟨late, tail⟩ := hypothesis others rest
      exact ⟨early ++ late, head.cons tail⟩

end WeavingState

end PropertyWeaver
