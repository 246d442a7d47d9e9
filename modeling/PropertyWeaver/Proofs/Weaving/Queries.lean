import PropertyWeaver.Proofs.Weaving.MappingFields

/-!
# Queries stay

A type that has been given its query declares it from then on, and a type without identifiers that
inherits an override goes on inheriting one. The query is an instance method, as long as no virtual
method is static.
-/

set_option autoImplicit false

namespace PropertyWeaver

variable {resolver : Resolver} {configuration : Configuration}

/-- No virtual method is static. -/
def Module.Dispatched (module : Module) : Prop :=
  ∀ type ∈ module.types, ∀ method ∈ type.methods, method.isStatic = true → method.isVirtual = false

namespace WeavingContext

variable {before after : WeavingContext} {type type' : LocatedType} {typeIndex : Nat}
  {edit : TypeEdit}

/-- A query that a type does not get has been inherited. -/
theorem overrideQuery_cases {context : WeavingContext}
    (executed : context.overrideQuery typeIndex = .ok edit) :
    edit.edits ≠ [] ∨ ∃ type, context.targetType typeIndex = .ok type ∧
      context.typeIdentifiers type.definition = .ok [] ∧
      context.hasQueryOverride type context.configuration.runtime.typeQuery = true := by
  simp only [overrideQuery, Outcome.bind_eq_ok] at executed
  obtain ⟨type, located, own, identified, rest⟩ := executed
  split at rest
  · next none =>
    split at rest
    · next inherits =>
      rw [List.isEmpty_iff.mp none] at identified
      exact .inr ⟨type, located, identified, inherits⟩
    · cases rest
  · simp only [Outcome.bind_eq_ok, Outcome.pure_eq, Except.ok.injEq] at rest
    obtain ⟨_, _, _, _, _, _, _, _, _, _, rfl⟩ := rest
    exact .inl (List.cons_ne_nil _ _)

private theorem overrideQuery_of_inherited {context : WeavingContext}
    (located : context.targetType typeIndex = .ok type)
    (identified : context.typeIdentifiers type.definition = .ok [])
    (inherits : context.hasQueryOverride type context.configuration.runtime.typeQuery = true) :
    context.overrideQuery typeIndex = .ok (TypeEdit.none typeIndex) := by
  simp only [overrideQuery, located, identified, inherits, Outcome.ok_bind, List.isEmpty_nil, if_true,
    Outcome.pure_eq]

private theorem hasQueryOverride_extends (extended : before.metadata.Extends after.metadata)
    (types : type.Extends type') {query : String}
    (inherits : before.hasQueryOverride type query = true) :
    after.hasQueryOverride type' query = true := by
  simp only [hasQueryOverride, List.any_eq_true] at inherits ⊢
  obtain ⟨level, listed, method, declared, overrides⟩ := inherits
  obtain ⟨index, place⟩ := List.mem_iff_getElem?.mp listed
  obtain ⟨level', found, levels⟩ := exists_of_rel (rel_getElem? (extended.chain types) index) place
  obtain ⟨method', declared', header⟩ := levels.definition.exists_method declared
  refine ⟨level', List.mem_of_getElem? found, method', declared', ?_⟩
  rw [← overrides]
  exact MethodDef.eq_of_header header (fun method =>
    decide (method.name = query) && method.parameters.isEmpty && method.isOverride) fun _ => rfl

private theorem overrideQuery_instance {context : WeavingContext}
    (target : context.metadata.target.Dispatched)
    (runtime : ∀ name other, context.metadata.resolver.find? name = some other → other.Dispatched)
    (executed : context.overrideQuery typeIndex = .ok edit) :
    edit.edits = [] ∨ ∃ method, edit.edits = [.addMethod method] ∧
      method.name = context.configuration.runtime.typeQuery ∧ method.parameters = [] ∧
      method.isStatic = false := by
  rcases overrideQuery_eq_ok executed with rfl | ⟨type, identifiers, declaration, wrapper, constructor,
    located, -, declared, -, -, rfl⟩
  · exact .inl rfl
  · refine .inr ⟨_, rfl, rfl, rfl, ?_⟩
    obtain ⟨level, stored, -, virtual⟩ := queryDeclaration_spec declared
    have start : context.metadata.Declares type.definition :=
      .inl (List.mem_of_getElem? (targetType_eq_ok.mp located).1)
    have dispatched : declaration.definition.isStatic = true →
        declaration.definition.isVirtual = false := by
      rcases Metadata.declares_of_mem_chain start (List.mem_of_mem_tail level) with own | ⟨name, other,
        found, listed⟩
      · exact target _ own _ (List.mem_of_getElem? stored)
      · exact runtime name other found _ listed _ (List.mem_of_getElem? stored)
    have instance_ : declaration.definition.isStatic = false := by
      cases static : declaration.definition.isStatic with
      | false => rfl
      | true => rw [dispatched static] at virtual; cases virtual
    exact (isStatic_overrideFlags _).trans instance_

end WeavingContext

/-! ## Declared queries -/

/-- A type that declares the query as an instance method. -/
def Module.DeclaresQuery (module : Module) (type : Nat) (query : String) : Prop :=
  ∃ definition, module.types[type]? = some definition ∧ ∃ method ∈ definition.methods,
    method.name = query ∧ method.parameters = [] ∧ method.isStatic = false

private theorem Module.Extends.declaresQuery {before after : Module}
    (extended : before.Extends after)
    {type : Nat} {query : String} (declares : before.DeclaresQuery type query) :
    after.DeclaresQuery type query := by
  obtain ⟨definition, found, method, declared, named, plain, ordinary⟩ := declares
  obtain ⟨definition', found', types⟩ := exists_of_rel extended.types? found
  obtain ⟨method', declared', header⟩ := types.exists_method declared
  refine ⟨definition', found', method', declared', ?_, ?_, ?_⟩
  · exact (MethodDef.eq_of_header header MethodDef.name fun _ => rfl).trans named
  · exact (MethodDef.eq_of_header header MethodDef.parameters fun _ => rfl).trans plain
  · exact (MethodDef.eq_of_header header MethodDef.isStatic fun _ => rfl).trans ordinary

/-- The query can be overridden in the types that do not declare it. -/
theorem Module.canOverrideQuery_iff {module : Module} {type : Nat} :
    (WeavingContext.ofModule module resolver configuration).canOverrideQuery type = true ↔
      (∃ definition, module.types[type]? = some definition) ∧
        ¬ module.DeclaresQuery type configuration.runtime.typeQuery := by
  change (module.types[type]?.any fun definition => !definition.methods.any fun method =>
    method.name = configuration.runtime.typeQuery && method.parameters.isEmpty &&
      !method.isStatic) = true ↔ _
  cases found : module.types[type]? with
  | none => simp
  | some definition => simp [Module.DeclaresQuery, found, and_assoc]

private theorem Module.DeclaresQuery.quiet {module : Module} {type : Nat}
    (declares : module.DeclaresQuery type configuration.runtime.typeQuery) :
    (Task.typeHierarchy type).Quiet resolver configuration module :=
  fun applies => absurd declares (Module.canOverrideQuery_iff.mp applies).2

/-- A task for the query that has nothing to do stays that way. -/
theorem Task.Quiet.typeHierarchy {before after : Module} {type : Nat}
    (quiet : (Task.typeHierarchy type).Quiet resolver configuration before)
    (extended : before.Extends after) :
    (Task.typeHierarchy type).Quiet resolver configuration after := by
  by_cases declares : before.DeclaresQuery type configuration.runtime.typeQuery
  · exact (extended.declaresQuery declares).quiet
  intro applies
  obtain ⟨⟨definition', found'⟩, -⟩ := Module.canOverrideQuery_iff.mp applies
  have applied : (Task.typeHierarchy type).canExecute
      (.ofModule before resolver configuration) = true := by
    have same := @Module.Extends.properties _ _ extended type
    rw [found'] at same
    obtain ⟨definition, found, -⟩ := Option.map_eq_some_iff.mp same
    exact Module.canOverrideQuery_iff.mpr ⟨⟨definition, found⟩, declares⟩
  obtain ⟨edit, executed, nothing⟩ := quiet applied
  rcases WeavingContext.overrideQuery_cases executed with asks | ⟨located, found, identified, inherits⟩
  · exact absurd nothing asks
  · obtain ⟨located', found', types⟩ := extended.targetType found
    refine ⟨TypeEdit.none type, WeavingContext.overrideQuery_of_inherited found' ?_
      (WeavingContext.hasQueryOverride_extends (extended.metadata resolver configuration) types
        inherits), rfl⟩
    rw [← identified]
    exact LocatedType.eq_of_header types.header (fun type =>
      (WeavingContext.ofModule after resolver configuration).typeIdentifiers type.definition)
      fun _ => rfl

/-! ## Running the task -/

namespace WeavingState

variable {type : Nat} {state after : WeavingState}

theorem types_addMethod {definition : TypeDef} (found : state.module.types[type]? = some definition)
    (method : MethodDef) :
    (applyEdit type state (.addMethod method)).module.types[type]? =
      some { definition with methods := definition.methods ++ [method] } := by
  rw [types_applyEdit, List.getElem?_modify_eq, found]
  exact congrArg (fun methods => some { definition with methods := methods })
    (methods_change_addMethod (state.cursor type) definition method)

private theorem dispatched_applyEdit {edit : Edit} (dispatched : state.module.Dispatched)
    (adds : ∀ method ∈ edit.addedMethods, method.isStatic = false) :
    (applyEdit type state edit).module.Dispatched := by
  intro changed member
  obtain ⟨index, found⟩ := List.mem_iff_getElem?.mp member
  rw [types_applyEdit, List.getElem?_modify] at found
  obtain ⟨definition, stored, rfl⟩ := Option.map_eq_some_iff.mp found
  have here := dispatched definition (List.mem_of_getElem? stored)
  split
  · intro method declared
    rcases List.mem_append.mp declared with old | new
    · obtain ⟨position, inside, rfl⟩ := List.mem_mapIdx.mp old
      have header := edit.header_changeMethod (state.cursor type) position definition.methods[position]
      rw [MethodDef.eq_of_header header MethodDef.isStatic fun _ => rfl,
        MethodDef.eq_of_header header MethodDef.isVirtual fun _ => rfl]
      exact here _ (List.getElem_mem inside)
    · intro static
      rw [adds method new] at static
      cases static
  · exact here

private theorem dispatched_foldl {edits : List Edit} (dispatched : state.module.Dispatched)
    (adds : ∀ edit ∈ edits, ∀ method ∈ edit.addedMethods, method.isStatic = false) :
    (edits.foldl (applyEdit type) state).module.Dispatched := by
  induction edits generalizing state with
  | nil => exact dispatched
  | cons edit edits hypothesis =>
      obtain ⟨here, rest⟩ := List.forall_mem_cons.mp adds
      exact hypothesis (dispatched_applyEdit dispatched here) rest

section Run

variable (runtime : ∀ name other, resolver.find? name = some other → other.Dispatched)

include runtime

private theorem dispatched_runTask {task : Task} (dispatched : state.module.Dispatched)
    (ran : runTask resolver configuration state task = .ok after) : after.module.Dispatched := by
  rcases runTask_eq_ok ran with rfl | ⟨edit, executed, rfl⟩
  · exact dispatched
  · refine dispatched_foldl dispatched fun change member method added => ?_
    rcases Task.addedMethods_of_execute executed with none | hierarchy
    · rw [none change member] at added
      cases added
    · rw [hierarchy] at executed
      rcases WeavingContext.overrideQuery_instance dispatched runtime executed with none | ⟨query, only,
        -, -, ordinary⟩
      · rw [none] at member
        cases member
      · rw [only] at member
        obtain rfl := List.mem_singleton.mp member
        obtain rfl := List.mem_singleton.mp added
        exact ordinary

theorem dispatched_foldlM {tasks : List Task} (dispatched : state.module.Dispatched)
    (ran : tasks.foldlM (runTask resolver configuration) state = .ok after) :
    after.module.Dispatched :=
  Outcome.foldlM_invariant (fun _ state => state.module.Dispatched)
    (fun _ _ _ _ dispatched executed => dispatched_runTask runtime dispatched executed) dispatched ran

theorem dispatched_weaveType (dispatched : state.module.Dispatched)
    (visited : weaveType resolver configuration state type = .ok after) : after.module.Dispatched :=
  @dispatched_foldlM _ _ { state with touched := [] } _ runtime _ dispatched
    (weaveType_eq_ok.mp visited).1

/-- A task for the query adds methods at most, and it would not do anything again. -/
theorem runTask_typeHierarchy {definition : TypeDef} (dispatched : state.module.Dispatched)
    (found : state.module.types[type]? = some definition)
    (ran : runTask resolver configuration state (.typeHierarchy type) = .ok after) :
    (∃ added, after.module.types[type]? =
        some { definition with methods := definition.methods ++ added }) ∧
      (Task.typeHierarchy type).Quiet resolver configuration after.module := by
  rcases runTask_cases ran with ⟨rfl, quiet⟩ | ⟨edit, applies, executed, asks, rfl⟩
  · exact ⟨⟨[], by rw [found, List.append_nil]⟩, quiet⟩
  · rcases WeavingContext.overrideQuery_instance dispatched runtime executed with none | ⟨query, only,
      named, plain, ordinary⟩
    · exact absurd none asks
    · obtain rfl : edit.type = type := Task.type_of_execute executed
      have changed : (state.apply edit).module.types[edit.type]? =
          some { definition with methods := definition.methods ++ [query] } := by
        rw [← types_addMethod found query]
        exact congrArg (fun edits =>
          (edits.foldl (applyEdit edit.type) state).module.types[edit.type]?) only
      exact ⟨⟨[query], changed⟩, Module.DeclaresQuery.quiet ⟨_, changed, query,
        List.mem_append_right _ List.mem_cons_self, named, plain, ordinary⟩⟩

end Run

end WeavingState

end PropertyWeaver
