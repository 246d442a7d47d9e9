import Mathlib.Data.List.Nodup
import PropertyWeaver.Proofs.Weaving.PassFrame

/-!
# References to fields

A type that has been visited declares every field of its own that its methods mention: mapping
fields are added before any code works on them, and a backing field goes only when the accessors
that used it have been replaced and no other method of the type mentions it.
-/

set_option autoImplicit false

namespace PropertyWeaver

variable {resolver : Resolver} {configuration : Configuration}

/-- A field that some instruction of the method takes as its operand. -/
def MethodDef.Mentions (method : MethodDef) (member : FieldRef) : Prop :=
  ∃ body ∈ method.body, ∃ instruction ∈ body.instructions, instruction.field? = some member

def MethodDef.mentioned (method : MethodDef) : List FieldRef :=
  method.body.toList.flatMap fun body => body.instructions.filterMap Instruction.field?

private theorem MethodDef.mem_mentioned {method : MethodDef} {member : FieldRef} :
    member ∈ method.mentioned ↔ method.Mentions member := by
  simp [mentioned, Mentions]

/-! ## Where mentions come from -/

/-- The code that an edit brings into the method at an index mentions a field. -/
def Edit.Mentions (index : Nat) (member : FieldRef) : Edit → Prop
  | .replaceBody target body =>
      target = index ∧ ∃ instruction ∈ body.instructions, instruction.field? = some member
  | .prependToConstructor target block _ =>
      target = index ∧ ∃ instruction ∈ block, instruction.field? = some member
  | .addMethod method => method.Mentions member
  | .addField _ | .removeField _ => False

variable {index : Nat} {member : FieldRef} {edit : Edit} {edits : List Edit}

private theorem Edit.Mentions.of_brings {fields : FieldRef → Prop}
    (mentions : edit.Mentions index member)
    (brings : edit.Brings (Instruction.Accesses fields)) : fields member := by
  cases edit with
  | replaceBody target body =>
      obtain ⟨-, instruction, listed, operand⟩ := mentions
      exact (brings instruction listed).1 member operand
  | prependToConstructor target block maxStack =>
      obtain ⟨-, instruction, listed, operand⟩ := mentions
      exact (brings instruction listed).1 member operand
  | addField field => cases mentions
  | removeField name => cases mentions
  | addMethod method =>
      obtain ⟨body, has, instruction, listed, operand⟩ := mentions
      exact (brings body has instruction listed).1 member operand

private theorem MethodBody.mentions_withPrelude {body : MethodBody} {cursor : Nat}
    {block : List Instruction} {maxStack : UInt16} {instruction : Instruction}
    (listed : instruction ∈ (body.withPrelude cursor block maxStack).instructions) :
    instruction ∈ block ∨ ∃ old ∈ body.instructions, old.field? = instruction.field? := by
  change instruction ∈ (body.insert cursor block).instructions at listed
  rw [MethodBody.instructions_insert] at listed
  have shifted : ∀ other ∈ body.instructions.map
      (Instruction.mapTarget (MethodBody.shiftTarget cursor block.length)),
      ∃ old ∈ body.instructions, old.field? = other.field? := by
    intro other listed
    obtain ⟨old, there, rfl⟩ := List.mem_map.mp listed
    exact ⟨old, there, (Instruction.field?_mapTarget _ old).symm⟩
  simp only [List.mem_append] at listed
  rcases listed with (front | inside) | back
  · exact .inr (shifted instruction (List.mem_of_mem_take front))
  · exact .inl inside
  · exact .inr (shifted instruction (List.mem_of_mem_drop back))

/-- What a method mentions after an edit has been brought in, or it has been there and not been
replaced. -/
theorem Edit.mentions_advance {slot : MethodState}
    (mentions : (edit.advance index slot).method.Mentions member) :
    edit.Mentions index member ∨
      slot.method.Mentions member ∧ ∀ body, edit ≠ .replaceBody index body := by
  cases edit with
  | replaceBody target body =>
      simp only [advance] at mentions
      split at mentions
      · next here =>
        obtain ⟨_, has, rest⟩ := mentions
        obtain rfl := Option.some.inj has
        exact .inl ⟨here, rest⟩
      · next other =>
        refine .inr ⟨mentions, fun body same => other ?_⟩
        injection same
  | prependToConstructor target block maxStack =>
      simp only [advance] at mentions
      split at mentions
      · next here =>
        split at mentions
        · exact .inr ⟨mentions, fun _ same => by cases same⟩
        · next old stored =>
          obtain ⟨_, has, instruction, listed, operand⟩ := mentions
          obtain rfl := Option.some.inj has
          rcases MethodBody.mentions_withPrelude listed with inside | ⟨before, there, same⟩
          · exact .inl ⟨here, instruction, inside, operand⟩
          · exact .inr ⟨⟨old, stored, before, there, same.trans operand⟩,
              fun _ same => by cases same⟩
      · exact .inr ⟨mentions, fun _ same => by cases same⟩
  | addField field => exact .inr ⟨mentions, fun _ same => by cases same⟩
  | removeField name => exact .inr ⟨mentions, fun _ same => by cases same⟩
  | addMethod method => exact .inr ⟨mentions, fun _ same => by cases same⟩

namespace WeavingState

variable {type : Nat} {state after : WeavingState} {slot : MethodState} {method : MethodDef}

private theorem mentions_foldl
    (found : (edits.foldl (applyEdit type) state).methodState? type index = some slot)
    (mentions : slot.method.Mentions member) :
    (∃ change ∈ edits, change.Mentions index member) ∨
      ∃ old, state.methodState? type index = some old ∧ old.method.Mentions member ∧
        ∀ body, .replaceBody index body ∉ edits := by
  induction edits generalizing state with
  | nil => exact .inr ⟨slot, found, mentions, by simp⟩
  | cons edit edits hypothesis =>
      rcases hypothesis found with ⟨change, listed, brought⟩ | ⟨between, there, mentions, kept⟩
      · exact .inl ⟨change, List.mem_cons_of_mem _ listed, brought⟩
      rcases methodState?_applyEdit_cases there with ⟨old, stored, rfl⟩ | rfl
      · rcases Edit.mentions_advance mentions with brought | ⟨mentions, other⟩
        · exact .inl ⟨edit, List.mem_cons_self, brought⟩
        · refine .inr ⟨old, stored, mentions, fun body listed => ?_⟩
          rcases List.mem_cons.mp listed with same | listed
          · exact other body same.symm
          · exact kept body listed
      · exact .inl ⟨_, List.mem_cons_self, mentions⟩

private theorem mentions_apply {edit : TypeEdit}
    (found : (state.apply edit).module.methodAt? edit.type index = some method)
    (mentions : method.Mentions member) :
    (∃ change ∈ edit.edits, change.Mentions index member) ∨
      ∃ old, state.module.methodAt? edit.type index = some old ∧ old.Mentions member ∧
        ∀ body, .replaceBody index body ∉ edit.edits := by
  have there : (edit.edits.foldl (applyEdit edit.type) state).methodState? edit.type index =
      some ⟨method, (state.apply edit).cursors (edit.type, index)⟩ :=
    methodState?_eq_some.mpr ⟨found, rfl⟩
  rcases mentions_foldl there mentions with brought | ⟨old, stored, mentions, kept⟩
  · exact .inl brought
  · exact .inr ⟨old.method, (methodState?_eq_some.mp stored).1, mentions, kept⟩

end WeavingState

/-! ## References into the module -/

/-- The declaring type of the field is the type of the target with the given name. -/
def Metadata.LeadsTo (metadata : Metadata) (member : FieldRef) (fullName : String) : Prop :=
  ∃ owner, metadata.resolveSig? none member.declaringType = some owner ∧ owner.scope = none ∧
    owner.fullName = fullName

private theorem Metadata.mem_target_of_resolveSig? {metadata : Metadata} {sig : TypeSig}
    {owner : LocatedType}
    (found : metadata.resolveSig? none sig = some owner) (own : owner.scope = none) :
    owner.definition ∈ metadata.target.types := by
  obtain ⟨scope, fullName, located⟩ := exists_findType?_of_resolveSig? found
  obtain ⟨module, means, named⟩ := findType?_eq_some.mp located
  cases module?_cases means with
  | inl target => exact target.1 ▸ List.mem_of_find?_eq_some named
  | inr foreign =>
      obtain ⟨_, -, -, -, elsewhere⟩ := foreign
      cases own.symm.trans elsewhere

/-- Every field operand whose declaring type is one of the module's own names a field of that type. -/
def Module.FieldsDeclared (resolver : Resolver) (configuration : Configuration) (module : Module) :
    Prop :=
  ∀ typeIndex index method member owner, module.methodAt? typeIndex index = some method →
    method.Mentions member →
    (WeavingContext.ofModule module resolver configuration).metadata.resolveSig? none
      member.declaringType = some owner → owner.scope = none →
    ∃ field ∈ owner.definition.fields, field.name = member.name

private theorem Module.fieldsDeclared_iff {module : Module} :
    module.FieldsDeclared resolver configuration ↔
      ∀ type ∈ module.types, ∀ method ∈ type.methods, ∀ member ∈ method.mentioned,
        ∀ owner ∈ (WeavingContext.ofModule module resolver configuration).metadata.resolveSig? none
          member.declaringType, owner.scope = none →
        ∃ field ∈ owner.definition.fields, field.name = member.name := by
  constructor
  · intro declared type listed method listed' member mentions owner leads own
    obtain ⟨typeIndex, found⟩ := List.mem_iff_getElem?.mp listed
    obtain ⟨index, found'⟩ := List.mem_iff_getElem?.mp listed'
    exact declared typeIndex index method member owner
      (WeavingState.methodAt?_eq_some.mpr ⟨type, found, found'⟩) (MethodDef.mem_mentioned.mp mentions)
      leads own
  · intro declared typeIndex index method member owner stored mentions leads own
    obtain ⟨type, found, found'⟩ := WeavingState.methodAt?_eq_some.mp stored
    exact declared type (List.mem_of_getElem? found) method (List.mem_of_getElem? found') member
      (MethodDef.mem_mentioned.mpr mentions) owner leads own

instance (module : Module) : Decidable (module.FieldsDeclared resolver configuration) :=
  decidable_of_iff _ Module.fieldsDeclared_iff.symm

private theorem WeavingContext.Routes.replaces {context : WeavingContext}
    {typeIndex propertyIndex : Nat}
    {type mapping : LocatedType} {property : PropertyDef} {edit : TypeEdit}
    (routes : context.Routes typeIndex propertyIndex type property mapping edit) {accessor : Nat}
    (member : accessor ∈ property.accessors) : ∃ body, .replaceBody accessor body ∈ edit.edits := by
  obtain ⟨identifier, routed⟩ := routes.routed
  obtain ⟨api, code, maxStack, setterEdits, -, -, setters, count, rfl⟩ := routeThrough_eq_ok routed
  rcases List.mem_append.mp member with getter | setter
  · refine ⟨mappedGetter _ _, List.mem_append_left _ (List.mem_append_left _ (List.mem_append_left _
      (List.mem_cons_of_mem _ (List.mem_map_of_mem getter))))⟩
  · rw [Option.mem_def.mp (Option.mem_toList.mp setter)] at count
    obtain ⟨setterEdit, rfl⟩ := List.length_eq_one_iff.mp count
    obtain ⟨setter', body, accessor', rfl, -⟩ := setters setterEdit List.mem_cons_self
    obtain rfl := Option.some.inj ((Option.mem_toList.mp setter).symm.trans accessor')
    exact ⟨body, by simp⟩

private theorem TypeDef.usesFieldElsewhere_of_mentions {definition : TypeDef}
    {property : PropertyDef}
    {method : MethodDef} {name : String} (listed : definition.methods[index]? = some method)
    (mentions : method.Mentions member) (other : index ∉ property.accessors)
    (named : member.name = name) :
    WeavingContext.usesFieldElsewhere definition property name = true := by
  obtain ⟨body, has, instruction, there, operand⟩ := mentions
  refine List.any_eq_true.mpr ⟨index, List.mem_range.mpr (List.getElem?_eq_some_iff.mp listed).1, ?_⟩
  have uses : (body.instructions.any fun instruction =>
      instruction.field?.any fun field => field.name = name) = true :=
    List.any_eq_true.mpr ⟨instruction, there, by simp [operand, named]⟩
  simpa [other, listed, Option.mem_def.mp has] using uses

/-! ## The tasks of a type -/

namespace WeavingState

/-- What holds between two tasks of a type. A mention is one of the original method or of a field of
the type itself, and fields of the type that are mentioned are declared. -/
structure Referring (resolver : Resolver) (configuration : Configuration) (module : Module)
    (original : TypeDef) (type : Nat) (state : WeavingState) : Prop where
  extended : module.Extends state.module
  found : module.types[type]? = some original
  origins : ∀ index method member, state.module.methodAt? type index = some method →
    method.Mentions member →
    (∃ old, module.methodAt? type index = some old ∧ old.Mentions member) ∨
      member.declaringType = LocatedType.sig ⟨original, none⟩
  declared : ∀ index method member, state.module.methodAt? type index = some method →
    method.Mentions member →
    (WeavingContext.ofModule module resolver configuration).metadata.LeadsTo member original.fullName →
    ∃ definition, state.module.types[type]? = some definition ∧
      ∃ field ∈ definition.fields, field.name = member.name

variable {module : Module} {original definition : TypeDef} {type : Nat} {state after : WeavingState}
  {task : Task}

section Referring

variable (referring : Referring resolver configuration module original type state)

include referring

private theorem Referring.apply_still {edit : TypeEdit} (own : edit.type = type)
    (plain : ∀ change ∈ edit.edits, change.Plain)
    (still : ∀ change ∈ edit.edits, ∀ fields, change.changeFields fields = fields)
    (known : ∀ change ∈ edit.edits, ∀ index member, change.Mentions index member →
      ∃ method, state.module.methodAt? type index = some method ∧ method.Mentions member) :
    Referring resolver configuration module original type (state.apply edit) := by
  subst own
  have old : ∀ index method member, (state.apply edit).module.methodAt? edit.type index = some method →
      method.Mentions member →
      ∃ old, state.module.methodAt? edit.type index = some old ∧ old.Mentions member := by
    intro index method member stored mentions
    rcases mentions_apply stored mentions with ⟨change, listed, brought⟩ | ⟨old, stored, mentions, -⟩
    · exact known change listed index member brought
    · exact ⟨old, stored, mentions⟩
  refine ⟨referring.extended.trans (extends_foldl plain edit.type state), referring.found,
    fun index method member stored mentions => ?_, fun index method member stored mentions leads => ?_⟩
  · obtain ⟨before, stored, mentions⟩ := old index method member stored mentions
    exact referring.origins index before member stored mentions
  · obtain ⟨before, stored, mentions⟩ := old index method member stored mentions
    obtain ⟨definition, there, declared⟩ := referring.declared index before member stored mentions leads
    obtain ⟨methods, there', -⟩ := types_foldl edit.edits there
    refine ⟨_, there', ?_⟩
    have same : edit.edits.foldl (fun fields edit => edit.changeFields fields) definition.fields =
        definition.fields :=
      List.foldlRecOn edit.edits (fun fields edit => edit.changeFields fields)
        (motive := fun next => next = definition.fields) rfl
        fun _ hypothesis change listed => (still change listed _).trans hypothesis
    change ∃ field ∈ edit.edits.foldl (fun fields edit => edit.changeFields fields) definition.fields,
      field.name = member.name
    rw [same]
    exact declared

/-- Routing a property: its mapping field is there when its code works on it, and the backing field goes
with the code that worked on it. -/
theorem Referring.apply_routed {index : Nat} {property : PropertyDef} {mapping : LocatedType}
    {edit : TypeEdit} (here : state.module.types[type]? = some definition)
    (routes : (WeavingContext.ofModule state.module resolver configuration).Routes type index
      ⟨definition, none⟩ property mapping edit) :
    Referring resolver configuration module original type (state.apply edit) := by
  have own : edit.type = type := routes.type_eq
  subst own
  have header : definition.header = original.header :=
    TypeDef.header_of_headers referring.extended.headers here referring.found
  have brought : ∀ position method member,
      (state.apply edit).module.methodAt? edit.type position = some method → method.Mentions member →
      member = ⟨LocatedType.sig ⟨definition, none⟩, configuration.mappingFieldName property.name,
        .instantiated mapping.typeRef false [property.propertyType]⟩ ∨
      ∃ old, state.module.methodAt? edit.type position = some old ∧ old.Mentions member ∧
        position ∉ property.accessors := by
    intro position method member stored mentions
    rcases mentions_apply stored mentions with ⟨change, listed, brought⟩ | ⟨old, stored, mentions, kept⟩
    · exact .inl (brought.of_brings (routes.accesses change listed))
    · refine .inr ⟨old, stored, mentions, fun accessor => ?_⟩
      obtain ⟨body, replaced⟩ := routes.replaces accessor
      exact kept body replaced
  obtain ⟨methods, there, -⟩ := types_foldl edit.edits here
  rw [routes.fields] at there
  refine ⟨referring.extended.trans (extends_foldl routes.plain edit.type state), referring.found,
    fun position method member stored mentions => ?_,
    fun position method member stored mentions leads => ⟨_, there, ?_⟩⟩
  · rcases brought position method member stored mentions with rfl | ⟨old, stored, mentions, -⟩
    · have same : LocatedType.header ⟨definition, none⟩ = LocatedType.header ⟨original, none⟩ :=
        congrArg (LocatedType.mk · none) header
      exact .inr (LocatedType.eq_of_header same LocatedType.sig fun _ => rfl)
    · exact referring.origins position old member stored mentions
  · simp only [List.mem_filter, List.mem_append, decide_eq_true_eq]
    rcases brought position method member stored mentions with rfl | ⟨old, stored, mentions, other⟩
    · refine ⟨configuration.mappingField mapping.typeRef property,
        ⟨.inr List.mem_cons_self, fun goes => ?_⟩, rfl⟩
      obtain ⟨-, _, -, -, first, -⟩ := WeavingContext.removableBackingField?_eq_some.mp goes
      cases routes.absent.symm.trans first
    · obtain ⟨definition', here', field, listed, named⟩ :=
        referring.declared position old member stored mentions leads
      obtain rfl := Option.some.inj (here.symm.trans here')
      refine ⟨field, ⟨.inl listed, fun goes => ?_⟩, named⟩
      obtain ⟨-, _, -, -, -, -, unused⟩ := WeavingContext.removableBackingField?_eq_some.mp goes
      obtain ⟨definition', here', stored⟩ := methodAt?_eq_some.mp stored
      obtain rfl := Option.some.inj (here.symm.trans here')
      rw [TypeDef.usesFieldElsewhere_of_mentions stored mentions other named.symm] at unused
      cases unused

private theorem Referring.runTask (planned : task ∈ original.tasks configuration type)
    (ran : WeavingState.runTask resolver configuration state task = .ok after) :
    Referring resolver configuration module original type after := by
  obtain ⟨definition, here, types⟩ := exists_of_rel referring.extended.types? referring.found
  simp only [TypeDef.tasks, List.mem_append, List.mem_map] at planned
  obtain (⟨index, member, rfl⟩ | ⟨index, member, rfl⟩) | query := planned
  · obtain ⟨property, listed, maps⟩ := TypeDef.mem_mappedProperties.mp member
    have properties : definition.properties = original.properties :=
      TypeDef.eq_of_header types.header TypeDef.properties fun _ => rfl
    rcases runTask_mappedProperty here (properties ▸ listed) maps ran with ⟨rfl, -⟩ | ⟨mapping, edit,
      routes, rfl⟩
    · exact referring
    · exact referring.apply_routed here routes
  · rcases runTask_eq_ok ran with rfl | ⟨edit, executed, rfl⟩
    · exact referring
    refine referring.apply_still (Task.type_of_execute executed) (Task.plain_of_execute executed) ?_ ?_
    all_goals rcases WeavingContext.notifyChanges_eq_ok executed with rfl | ⟨located, property, setter,
      backing, body, located', -, accessor, -, stores, made, rfl⟩
    · exact fun change listed => absurd listed List.not_mem_nil
    · exact List.forall_mem_singleton.mpr fun _ => rfl
    · exact fun change listed => absurd listed List.not_mem_nil
    · refine List.forall_mem_singleton.mpr ?_
      rintro index member ⟨rfl, instruction, listed, operand⟩
      -- the backing field is what the setter that is replaced stores first
      obtain rfl := (WeavingContext.setter_accesses made instruction listed).1 member operand
      obtain ⟨found, -⟩ := WeavingContext.targetType_eq_ok.mp located'
      obtain ⟨setter', method, before, accessor', there, -, has, first⟩ :=
        TypeDef.backingField?_eq_some.mp stores
      obtain rfl := Option.some.inj (accessor.symm.trans accessor')
      obtain ⟨store, seen, operand⟩ := Option.bind_eq_some_iff.mp first
      exact ⟨method, methodAt?_eq_some.mpr ⟨_, found, there⟩, before, has, store,
        List.mem_of_find?_eq_some seen, operand⟩
  · rw [TypeDef.mem_queryTasks query] at ran
    rcases runTask_eq_ok ran with rfl | ⟨edit, executed, rfl⟩
    · exact referring
    have accesses := @WeavingContext.overrideQuery_accesses
      (.ofModule state.module resolver configuration) type edit (fun _ => False) executed
    refine referring.apply_still (Task.type_of_execute executed) (Task.plain_of_execute executed)
      ?_ fun change listed index member mentions =>
        (mentions.of_brings (accesses change listed)).elim
    rcases WeavingContext.overrideQuery_eq_ok executed with rfl | ⟨_, _, _, _, _, -, -, -, -, -, rfl⟩
    · exact fun change listed => absurd listed List.not_mem_nil
    · exact List.forall_mem_singleton.mpr fun _ => rfl

end Referring

end WeavingState

/-- A field of the given name that routing a property of the type may take away. -/
def TypeDef.Releases (configuration : Configuration) (type : TypeDef) (name : String) : Prop :=
  ∃ property ∈ type.properties, mapsProperty configuration property = true ∧
    ∃ backing, type.backingField? property = some backing ∧ backing.name = name

private theorem TypeDef.Framed.exists_field {context : WeavingContext} {before after : TypeDef}
    {name : String}
    (framed : before.Framed context after) (declared : ∃ field ∈ before.fields, field.name = name) :
    (∃ field ∈ after.fields, field.name = name) ∨ before.Releases context.configuration name := by
  obtain ⟨field, listed, named⟩ := declared
  obtain ⟨removed, routed, injected, fields, -, -, sources⟩ := framed.fields
  by_cases goes : name ∈ removed
  · obtain ⟨index, member, property, backing, found, stores, named⟩ := sources name goes
    obtain ⟨property', found', maps⟩ := TypeDef.mem_mappedProperties.mp member
    obtain rfl := Option.some.inj (found.symm.trans found')
    exact .inr ⟨property, List.mem_of_getElem? found, maps, backing, stores, named⟩
  · refine .inl ⟨field, ?_, named⟩
    rw [fields, TypeDef.fieldsWith]
    exact List.mem_append_left _ (List.mem_filter.mpr ⟨listed, by simpa [named] using goes⟩)

private theorem Module.eq_of_fullName {module : Module}
    (distinct : (module.types.map TypeDef.fullName).Nodup)
    {type type' : TypeDef} (member : type ∈ module.types) (member' : type' ∈ module.types)
    (named : type.fullName = type'.fullName) : type = type' :=
  List.inj_on_of_nodup_map distinct member member' named

namespace Visit

variable {module woven : Module} {type index : Nat} {original : TypeDef} {before after : WeavingState}
  {method : MethodDef}
  (visit : Visit resolver configuration module woven type original before after)

include visit

private theorem referring (distinct : (module.types.map TypeDef.fullName).Nodup)
    (declared : module.FieldsDeclared resolver configuration)
    (found : module.types[type]? = some original) :
    WeavingState.Referring resolver configuration module original type after := by
  have unchanged : ∀ index, before.module.methodAt? type index = module.methodAt? type index :=
    Module.methodAt?_congr (visit.found.trans found.symm)
  have start : WeavingState.Referring resolver configuration module original type before := {
    extended := visit.earlier
    found := found
    origins := fun index method member stored mentions =>
      .inl ⟨method, (unchanged index).symm.trans stored, mentions⟩
    declared := by
      rintro index method member stored mentions ⟨owner, leads, own, named⟩
      have same : owner.definition = original := Module.eq_of_fullName distinct
        (Metadata.mem_target_of_resolveSig? leads own) (List.mem_of_getElem? found) named
      rw [unchanged] at stored
      exact ⟨original, visit.found, same ▸ declared type index method member owner stored mentions leads
        own⟩ }
  exact (Outcome.foldlM_invariant (fun rest state =>
    (∀ task ∈ rest, task ∈ original.tasks configuration type) ∧
      WeavingState.Referring resolver configuration module original type state)
    (fun task _ _ _ ⟨planned, referring⟩ ran =>
      ⟨fun task member => planned task (List.mem_cons_of_mem _ member),
        referring.runTask (planned task List.mem_cons_self) ran⟩)
    ⟨fun _ member => member, start⟩ visit.ran).2

end Visit

namespace Module

variable {module woven : Module} {report : WeaveReport}

/-- Weaving leaves no reference of a type to a field of its own dangling. A reference of another
type that comes to dangle has been in the original code, and names what a property of that type
stored to. -/
theorem weave_declares_fields (distinct : (module.types.map TypeDef.fullName).Nodup)
    (declared : module.FieldsDeclared resolver configuration)
    (weaves : module.weave resolver configuration = .ok (woven, report)) :
    ∀ typeIndex index method member owner, woven.methodAt? typeIndex index = some method →
      method.Mentions member →
      (WeavingContext.ofModule woven resolver configuration).metadata.resolveSig? none
        member.declaringType = some owner → owner.scope = none →
      (∃ field ∈ owner.definition.fields, field.name = member.name) ∨
        woven.types[typeIndex]? ≠ some owner.definition ∧
          (∃ old, module.methodAt? typeIndex index = some old ∧ old.Mentions member) ∧
          ∃ (ownerIndex : Nat) (type : TypeDef), module.types[ownerIndex]? = some type ∧
            woven.types[ownerIndex]? = some owner.definition ∧
            type.Releases configuration member.name := by
  intro typeIndex index method member owner' stored mentions leads' own'
  cases fresh : module.isInstrumented with
  | true =>
      rw [weave, if_pos fresh] at weaves
      obtain ⟨rfl, -⟩ := Prod.mk.inj (Except.ok.inj weaves)
      exact .inl (declared typeIndex index method member owner' stored mentions leads' own')
  | false =>
    have extended := extends_weave weaves
    have distinct' : (woven.types.map TypeDef.fullName).Nodup := by
      rw [TypeDef.fullNames_of_headers extended.headers]
      exact distinct
    obtain ⟨definition, here, -⟩ := WeavingState.methodAt?_eq_some.mp stored
    obtain ⟨original, found, types⟩ := exists_of_rel_right extended.types? here
    obtain ⟨before, after, visit⟩ := exists_visit fresh weaves found
    have referring := visit.referring distinct declared found
    have stored' := visit.methodAt?.symm.trans stored
    obtain ⟨owner, leads, owners⟩ := exists_of_rel_right
      ((extended.metadata resolver configuration).resolveSig? none member.declaringType) leads'
    have own : owner.scope = none := owners.scope.symm.trans own'
    have named : owner'.fullName = owner.fullName :=
      LocatedType.eq_of_header owners.header LocatedType.fullName fun _ => rfl
    have named' : definition.fullName = original.fullName :=
      TypeDef.eq_of_header types.header TypeDef.fullName fun _ => rfl
    by_cases same : owner.fullName = original.fullName
    · -- a field of the type itself
      obtain ⟨definition', there, declared⟩ := referring.declared index method member stored' mentions
        ⟨owner, leads, own, same⟩
      obtain rfl := Option.some.inj (here.symm.trans (visit.stays.trans there))
      have owns : owner'.definition = definition := eq_of_fullName distinct'
        (Metadata.mem_target_of_resolveSig? leads' own') (List.mem_of_getElem? here)
        (named.trans (same.trans named'.symm))
      exact .inl (owns ▸ declared)
    · rcases referring.origins index method member stored' mentions with ⟨old, there, mentions⟩ | sig
      · obtain ⟨position, listed⟩ := List.mem_iff_getElem?.mp
          (Metadata.mem_target_of_resolveSig? leads own)
        obtain ⟨before', after', visit'⟩ := exists_visit fresh weaves listed
        obtain ⟨type', there', framed⟩ := visit'.framed
        have owns : owner'.definition = type' := eq_of_fullName distinct'
          (Metadata.mem_target_of_resolveSig? leads' own') (List.mem_of_getElem? there')
          (named.trans (TypeDef.eq_of_header framed.header TypeDef.fullName fun _ => rfl).symm)
        rcases framed.exists_field (declared typeIndex index old member owner there mentions leads own)
          with stays | releases
        · exact .inl (owns ▸ stays)
        · refine .inr ⟨fun self => same ?_, ⟨old, there, mentions⟩, position, owner.definition, listed,
            owns ▸ there', releases⟩
          obtain rfl := Option.some.inj (here.symm.trans self)
          exact named.symm.trans named'
      · rw [sig, Metadata.resolveSig?_of_typeRef? (Metadata.typeRef?_sig _)] at leads
        exact absurd (Metadata.fullName_of_findType? leads) same

/-! The backing field of the sample goes with its accessors. A type that looks at the field of
another one keeps it in no way, and a type that shares its name gets references that are not meant
for it. -/

def autoField : FieldDef :=
  ⟨"<Count>k__BackingField", FieldFlag.privateAccess, .builtin .int32,
    [⟨⟨some "System.Runtime", "System.Runtime.CompilerServices", "CompilerGeneratedAttribute"⟩, []⟩]⟩

def autoMember : FieldRef :=
  ⟨.classType ⟨none, "Demo", "Counter"⟩, autoField.name, autoField.fieldType⟩

def autoCounter : TypeDef :=
  { sampleCounter with
    fields := [autoField]
    methods :=
      [{ sampleMethod "get_Count" (.builtin .int32) []
          (some (.ofCode 1 [Opcode.ldarg0.plain, ⟨.ldfld, .field autoMember⟩, Opcode.ret.plain])) with
          flags := MethodFlag.compilerControlled },
       { sampleMethod "set_Count" (.builtin .void) [.builtin .int32]
          (some (.ofCode 2 [Opcode.ldarg0.plain, Opcode.ldarg1.plain, ⟨.stfld, .field autoMember⟩,
            Opcode.ret.plain])) with
          flags := MethodFlag.compilerControlled },
       sampleMethod MethodDef.constructorName (.builtin .void) []
        (some (.ofCode 0 [Opcode.ret.plain]))] }

def autoModule : Module := sample "App" [autoCounter]

theorem weave_declares_fields_autoModule :
    (autoModule.types.map TypeDef.fullName).Nodup ∧ autoModule.FieldsDeclared sampleResolver {} ∧
      ∃ woven report getter, autoModule.weave sampleResolver {} = .ok (woven, report) ∧
        woven.types.map (fun type => type.fields.map FieldDef.name) = [["CountMapping"]] ∧
        woven.methodAt? 0 0 = some getter ∧
        ∀ member owner, getter.Mentions member →
          (WeavingContext.ofModule woven sampleResolver {}).metadata.resolveSig? none
            member.declaringType = some owner → owner.scope = none →
          woven.types[0]? = some owner.definition →
          ∃ field ∈ owner.definition.fields, field.name = member.name := by
  have distinct : (autoModule.types.map TypeDef.fullName).Nodup := by decide
  have declared : autoModule.FieldsDeclared sampleResolver {} := by decide +kernel
  have computed : ((autoModule.weave sampleResolver {}).toOption.map fun result =>
      (result.1.types.map fun type => type.fields.map FieldDef.name,
        (result.1.methodAt? 0 0).isSome)) = some ([["CountMapping"]], true) := by decide +kernel
  obtain ⟨⟨woven, report⟩, weaves, same⟩ := Option.map_eq_some_iff.mp computed
  obtain ⟨fields, found⟩ := Prod.mk.inj same
  obtain ⟨getter, found⟩ := Option.isSome_iff_exists.mp found
  have outcome := Outcome.toOption_eq_some.mp weaves
  refine ⟨distinct, declared, woven, report, getter, outcome, fields, found, ?_⟩
  intro member owner mentions leads own self
  rcases weave_declares_fields distinct declared outcome 0 0 getter member owner found mentions leads
    own with declared | ⟨other, -⟩
  · exact declared
  · exact absurd self other

def peekingModule : Module :=
  sample "App"
    [autoCounter,
     sampleRuntimeType "Demo" "Peer" []
      [{ sampleMethod "Peek" (.builtin .int32) [autoMember.declaringType]
          (some (.ofCode 1 [Opcode.ldarg0.plain, ⟨.ldfld, .field autoMember⟩, Opcode.ret.plain])) with
          flags := MethodFlag.publicAccess ||| MethodFlag.static }]]

private theorem exists_dangling {module : Module} {types : List Nat}
    (fresh : module.isInstrumented = false) (order : module.baseFirstOrder = types)
    (dangles : (types.foldlM (WeavingState.weaveType resolver configuration)
      (.initial module)).toOption.map (fun state =>
        decide (state.module.markInstrumented.FieldsDeclared resolver configuration)) = some false) :
    ∃ woven report, module.weave resolver configuration = .ok (woven, report) ∧
      ¬ woven.FieldsDeclared resolver configuration := by
  obtain ⟨state, ran, same⟩ := Option.map_eq_some_iff.mp dangles
  refine ⟨_, state.report, ?_, of_decide_eq_false same⟩
  rw [weave_of_order fresh order, Outcome.toOption_eq_some.mp ran]
  rfl

/-- A type peeks at a backing field of another one, which goes. -/
theorem weave_dangles_fields :
    (peekingModule.types.map TypeDef.fullName).Nodup ∧
      peekingModule.FieldsDeclared sampleResolver {} ∧
      ∃ woven report, peekingModule.weave sampleResolver {} = .ok (woven, report) ∧
        ¬ woven.FieldsDeclared sampleResolver {} :=
  ⟨by decide, by decide +kernel, exists_dangling (by decide) (List.mergeSort_of_pairwise (by decide))
    (by decide +kernel)⟩

def eclipsedModule : Module :=
  sample "App" [sampleRuntimeType "Demo" "Counter" [] [], sampleCounter]

/-- A type hides another one of its name that gets a mapping field, so names have to differ. -/
theorem weave_dangles_mappingField :
    eclipsedModule.FieldsDeclared sampleResolver {} ∧
      ∃ woven report, eclipsedModule.weave sampleResolver {} = .ok (woven, report) ∧
        ¬ woven.FieldsDeclared sampleResolver {} :=
  ⟨by decide +kernel, exists_dangling (by decide) (List.mergeSort_of_pairwise (by decide))
    (by decide +kernel)⟩

end Module

end PropertyWeaver
