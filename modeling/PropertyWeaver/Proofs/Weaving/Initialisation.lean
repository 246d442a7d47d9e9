import PropertyWeaver.Proofs.Weaving.Preludes
import PropertyWeaver.Proofs.Weaving.Visits

/-!
# The prelude of a property

Routing a property puts one prelude into every constructor, made from what the type and the runtime say
of the property. It does not depend on what tasks before have changed, as long as types keep their
headers.
-/

set_option autoImplicit false

namespace PropertyWeaver

/-- A prelude for a property of a type: it is made from the name, the identifier and the default value
of the property, by a constructor of the mapping type, and stores into the property's own mapping
field. -/
structure Prelude.Initialises (context : WeavingContext) (type : LocatedType) (block : Prelude) :
    Prop where
  owner : block.owner = type.fullName
  listed : type.definition.properties[block.index]? = some block.property
  identified : context.persistentIdentifier type.definition block.property =
    .ok (some block.identifier)
  literal : context.defaultCode type block.property = .ok block.literal
  constructs : block.constructor.name = MethodDef.constructorName ∧ block.constructor.hasThis = true ∧
    block.constructor.declaringType = block.field.fieldType
  mapping : ∃ mapping parameter, context.mappingType = .ok mapping ∧
    mapping.definition.genericParameters = [parameter] ∧
    block.field = ⟨type.sig, context.configuration.mappingFieldName block.property.name,
      .instantiated mapping.typeRef false [block.property.propertyType]⟩ ∧
    block.constructor.parameters.map TypeSig.fullName =
      ["System.String", "System.String"] ++ if block.literal.isSome then [parameter] else []

namespace WeavingContext

variable {left right context : WeavingContext} {type type' : LocatedType} {property : PropertyDef}
  {typeIndex propertyIndex : Nat} {edit : TypeEdit}

theorem mappingType_of_alike (alike : left.metadata.Alike right.metadata)
    (same : left.configuration = right.configuration) {mapping : LocatedType}
    (found : left.mappingType = .ok mapping) :
    ∃ mapping', right.mappingType = .ok mapping' ∧ mapping.header = mapping'.header := by
  simp only [mappingType, runtimeType, orError_eq_ok, same] at found ⊢
  have headers := alike.findType? (some right.configuration.runtime.module)
    right.configuration.runtime.mappingType
  rw [found, Option.map_some] at headers
  obtain ⟨mapping', found', header⟩ := Option.map_eq_some_iff.mp headers.symm
  exact ⟨mapping', found', header.symm⟩

theorem persistentIdentifier_of_alike (same : left.configuration = right.configuration)
    (header : type.header = type'.header) (property : PropertyDef) :
    left.persistentIdentifier type.definition property =
      right.persistentIdentifier type'.definition property := by
  obtain ⟨metadata, configuration⟩ := left
  subst same
  exact LocatedType.eq_of_header header
    (fun type => right.persistentIdentifier type.definition property) fun _ => rfl

private theorem defaultCode_of_alike (same : left.configuration = right.configuration)
    (header : type.header = type'.header) (property : PropertyDef) :
    left.defaultCode type property = right.defaultCode type' property := by
  obtain ⟨metadata, configuration⟩ := left
  subst same
  exact LocatedType.eq_of_header header (fun type => right.defaultCode type property) fun _ => rfl

/-- The prelude of a routed property, and what routing makes of a method that is none of its
accessors. -/
theorem routeThrough_prelude {mapping : LocatedType} {identifier : String}
    (listed : propertyOf type propertyIndex = .ok property)
    (identified : context.persistentIdentifier type.definition property = .ok (some identifier))
    (found : context.mappingType = .ok mapping)
    (routed : context.routeThrough typeIndex type property mapping identifier
      (context.configuration.mappingFieldName property.name)
      (.instantiated mapping.typeRef false [property.propertyType]) = .ok edit) :
    ∃ block : Prelude, block.index = propertyIndex ∧ block.property = property ∧
      block.Initialises context type ∧
      (∀ instruction ∈ block.code, instruction.target? = none) ∧
      edit.woven = some block.member ∧
      ∀ index state, index ∉ property.accessors →
        MethodState.after state index edit.edits =
          if index ∈ type.definition.constructors then (block.edit index).advance index state
          else state := by
  obtain ⟨api, code, maxStack, setterEdits, -, built, setters, -, rfl⟩ := routeThrough_eq_ok routed
  have straight := (prelude_sound built).2 ⟨1, false⟩ Nat.one_pos 0
  obtain ⟨literal, parameter, constructor, default, only, constructs, rfl, rfl⟩ :=
    constructorBlock_eq_ok built
  have accepted := (Metadata.findMethod?_spec constructs).2.2
  simp only [Bool.and_eq_true, decide_eq_true_eq, MethodDef.isConstructor] at accepted
  obtain ⟨⟨named, receiver⟩, parameters⟩ := accepted
  refine ⟨⟨type.fullName, propertyIndex, property, identifier, literal, _, _⟩, rfl, rfl, ?_,
    straight.still, rfl, ?_⟩
  · exact {
      owner := rfl
      listed := propertyOf_eq_ok.mp listed
      identified := identified
      literal := default
      constructs := ⟨named, receiver, rfl⟩
      mapping := ⟨mapping, parameter, found, only, rfl,
        constructor.fullNames_parameters_methodRef.trans parameters⟩ }
  · intro index state absent
    rw [MethodState.after_append, @MethodState.after_eq_self state index]
    · exact MethodState.after_block (nodup_constructors type.definition)
        ⟨type.fullName, propertyIndex, property, identifier, literal, _, _⟩ state index
    · intro change member
      simp only [List.mem_append, List.mem_cons, List.mem_map, Option.mem_toList] at member
      obtain ((rfl | ⟨getter, accessor, rfl⟩) | member) | ⟨name, _, rfl⟩ := member
      · rfl
      · refine if_neg fun same => absent ?_
        exact List.mem_append_left _ (Option.mem_toList.mpr (same ▸ accessor))
      · obtain ⟨setter, body, accessor, rfl, -⟩ := setters change member
        refine if_neg fun same => absent ?_
        exact List.mem_append_right _ (Option.mem_toList.mpr (same ▸ accessor))
      · rfl

end WeavingContext

theorem Prelude.Initialises.of_alike {left right : WeavingContext} {type type' : LocatedType}
    {block : Prelude} (alike : left.metadata.Alike right.metadata)
    (same : left.configuration = right.configuration) (header : type.header = type'.header)
    (initialises : block.Initialises left type) : block.Initialises right type' := by
  have properties : type.definition.properties = type'.definition.properties :=
    LocatedType.eq_of_header header (fun type => type.definition.properties) fun _ => rfl
  obtain ⟨mapping, parameter, found, only, field, parameters⟩ := initialises.mapping
  obtain ⟨mapping', found', headers⟩ := WeavingContext.mappingType_of_alike alike same found
  refine ⟨?_, ?_, ?_, ?_, initialises.constructs, mapping', parameter, found', ?_, ?_, parameters⟩
  · rw [initialises.owner]
    exact LocatedType.eq_of_header header LocatedType.fullName fun _ => rfl
  · rw [← properties]
    exact initialises.listed
  · rw [← WeavingContext.persistentIdentifier_of_alike same header]
    exact initialises.identified
  · rw [← WeavingContext.defaultCode_of_alike same header]
    exact initialises.literal
  · rw [← only]
    exact (LocatedType.eq_of_header headers
      (fun type => type.definition.genericParameters) fun _ => rfl).symm
  · rw [field, LocatedType.eq_of_header header LocatedType.sig fun _ => rfl,
      LocatedType.eq_of_header headers LocatedType.typeRef fun _ => rfl, same]

theorem TypeDef.header_of_headers {left right : List TypeDef}
    (same : left.map header = right.map header) {index : Nat} {type type' : TypeDef}
    (found : left[index]? = some type) (found' : right[index]? = some type') :
    type.header = type'.header := by
  have headers := congrArg (·[index]?) same
  simp only [List.getElem?_map, found, found', Option.map_some, Option.some.injEq] at headers
  exact headers

def WovenMember.isRouted (member : WovenMember) : Bool :=
  member.task = .mappedProperty

def Task.routed? : Task → Option Nat
  | .mappedProperty _ property => some property
  | .changeNotification _ _ | .typeHierarchy _ => none

namespace WeavingState

private theorem members_applyEdit (type : Nat) (state : WeavingState) (edit : Edit) :
    (applyEdit type state edit).report.members = state.report.members := by
  cases edit with
  | prependToConstructor method block maxStack =>
      simp only [applyEdit, prepend]
      split <;> rfl
  | _ => rfl

theorem members_apply (state : WeavingState) (edit : TypeEdit) :
    (state.apply edit).report.members = state.report.members ++ edit.woven.toList := by
  have folded : ∀ (edits : List Edit) (state : WeavingState),
      (edits.foldl (applyEdit edit.type) state).report.members = state.report.members := by
    intro edits
    induction edits with
    | nil => exact fun _ => rfl
    | cons change edits hypothesis =>
        exact fun state => (hypothesis _).trans (members_applyEdit edit.type state change)
  exact congrArg (· ++ edit.woven.toList) (folded edit.edits state)

end WeavingState

end PropertyWeaver
