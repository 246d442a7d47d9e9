import PropertyWeaver.Proofs.Metadata.Within
import PropertyWeaver.Proofs.Weaving.Links

/-!
# Scopes of synthesized code

Operands of synthesized code fit their opcodes. They name what lookups have found, so where lookups stay
within known modules every scope that an edit brings in is known.
-/

set_option autoImplicit false

namespace PropertyWeaver

variable {known : String → Prop}

/-- The operand fits its opcode and names known scopes alone. -/
structure Instruction.Fitting (known : String → Prop) (instruction : Instruction) : Prop where
  fits : instruction.wellFormed = true
  scopes : ∀ scope ∈ instruction.scopes, known scope

/-- An edit that brings in operands that fit and known scopes alone. -/
structure Edit.Fitting (known : String → Prop) (edit : Edit) : Prop where
  fits : edit.Brings fun instruction => instruction.wellFormed = true
  scopes : ∀ scope ∈ edit.scopes, known scope

namespace Instruction

variable {opcode : Opcode}

private theorem fitting_of_operand {operand : Operand}
    (fits : operand.fits opcode.operandKind = true)
    (unscoped : scopes ⟨opcode, operand⟩ = []) : Fitting known ⟨opcode, operand⟩ :=
  ⟨fits, by rw [unscoped]; simp⟩

private theorem fitting_plain (kind : opcode.operandKind = .none) : opcode.plain.Fitting known :=
  fitting_of_operand (by rw [kind]; rfl) rfl

private theorem Scalar.fitting {instruction : Instruction} (scalar : instruction.Scalar) :
    instruction.Fitting known :=
  ⟨scalar.fits, by rw [scalar.scopes_eq_nil]; simp⟩

private theorem fitting_pushInt32 (value : Int32) : (pushInt32 value).Fitting known :=
  (scalar_pushInt32 value).fitting

private theorem fitting_pushString (value : String) : (pushString value).Fitting known :=
  fitting_of_operand rfl rfl

private theorem fitting_branch {target : UInt64} (kind : opcode.operandKind = .branch) :
    Fitting known ⟨opcode, .branch target⟩ :=
  fitting_of_operand (by rw [kind]; rfl) rfl

private theorem fitting_field {member : FieldRef} (within : ∀ scope ∈ member.scopes, known scope)
    (kind : opcode.operandKind = .field) : Fitting known ⟨opcode, .field member⟩ :=
  ⟨by rw [wellFormed, kind]; rfl, within⟩

private theorem fitting_method {member : MethodRef} (within : ∀ scope ∈ member.scopes, known scope)
    (kind : opcode.operandKind = .method) : Fitting known ⟨opcode, .method member⟩ :=
  ⟨by rw [wellFormed, kind]; rfl, within⟩

private theorem fitting_type {sig : TypeSig} (within : ∀ scope ∈ sig.scopes, known scope)
    (kind : opcode.operandKind = .type) : Fitting known ⟨opcode, .type sig⟩ :=
  ⟨by rw [wellFormed, kind]; rfl, within⟩

private theorem within_of_fitting {code : List Instruction}
    (fitting : ∀ instruction ∈ code, instruction.Fitting known) :
    ∀ scope ∈ code.flatMap scopes, known scope := by
  intro scope named
  obtain ⟨instruction, member, named⟩ := List.mem_flatMap.mp named
  exact (fitting instruction member).scopes scope named

end Instruction

open Instruction

/-! ## Templates -/

def ValueSource.Within (known : String → Prop) : ValueSource → Prop
  | .field member => ∀ scope ∈ member.scopes, known scope
  | .mapping member getValue setValue =>
      (∀ scope ∈ member.scopes, known scope) ∧ (∀ scope ∈ getValue.scopes, known scope) ∧
        ∀ scope ∈ setValue.scopes, known scope

private theorem ValueSource.fitting_load {source : ValueSource} (within : source.Within known) :
    ∀ instruction ∈ source.load, instruction.Fitting known := by
  cases source with
  | field member =>
      simp only [load, List.forall_mem_cons]
      exact ⟨fitting_plain rfl, fitting_field within rfl, by simp⟩
  | mapping member getValue setValue =>
      simp only [load, List.forall_mem_cons]
      exact ⟨fitting_plain rfl, fitting_plain rfl, fitting_field within.1 rfl,
        fitting_method within.2.1 rfl, by simp⟩

private theorem ValueSource.fitting_store {source : ValueSource} (within : source.Within known) :
    ∀ instruction ∈ source.store, instruction.Fitting known := by
  cases source with
  | field member =>
      simp only [store, List.forall_mem_cons]
      exact ⟨fitting_plain rfl, fitting_plain rfl, fitting_field within rfl, by simp⟩
  | mapping member getValue setValue =>
      simp only [store, List.forall_mem_cons]
      exact ⟨fitting_plain rfl, fitting_plain rfl, fitting_field within.1 rfl, fitting_plain rfl,
        fitting_method within.2.2 rfl, by simp⟩

namespace WeavingContext

variable {context : WeavingContext} {type : LocatedType} {property : PropertyDef}

private theorem mappedGetter_fitting {field : FieldRef} {getValue : MethodRef}
    (stored : ∀ scope ∈ field.scopes, known scope) (read : ∀ scope ∈ getValue.scopes, known scope) :
    ∀ instruction ∈ (mappedGetter field getValue).instructions, instruction.Fitting known := by
  simp only [mappedGetter, MethodBody.ofCode, List.forall_mem_cons]
  exact ⟨fitting_plain rfl, fitting_plain rfl, fitting_field stored rfl, fitting_method read rfl,
    fitting_plain rfl, by simp⟩

private theorem setter_fitting (within : context.metadata.Within known)
    (located : type.Within known)
    {source : ValueSource} {body : MethodBody} (accessible : source.Within known)
    (compared : ∀ scope ∈ (source.valueType property.propertyType).scopes, known scope)
    (made : context.setter type property source = .ok body) :
    ∀ instruction ∈ body.instructions, instruction.Fitting known := by
  obtain ⟨equality, notify, compares, notifies, rfl⟩ := setter_eq_ok.mp made
  have compare : equality.compare.Fitting known := by
    cases equality with
    | primitive => exact fitting_plain rfl
    | method member => exact fitting_method (within.equality? compared compares) rfl
  simp only [MethodBody.ofCode, setterCode, List.forall_mem_append, List.forall_mem_cons]
  exact ⟨⟨⟨ValueSource.fitting_load accessible, fitting_plain rfl, compare, fitting_pushInt32 0,
    fitting_plain rfl, fitting_branch rfl, fitting_branch rfl, by simp⟩,
    ValueSource.fitting_store accessible⟩, fitting_plain rfl, fitting_pushString _,
    fitting_method (within.findMethod? located notifies) rfl, fitting_plain rfl, by simp⟩

private theorem constructorBlock_fitting (within : context.metadata.Within known)
    {mapping : LocatedType} (mapped : mapping.Within known) {identifier : String} {field : FieldRef}
    (stored : ∀ scope ∈ field.scopes, known scope) {code : List Instruction} {maxStack : UInt16}
    (built : context.constructorBlock type property mapping identifier field = .ok (code, maxStack)) :
    ∀ instruction ∈ code, instruction.Fitting known := by
  obtain ⟨default, parameter, constructor, literal, -, found, rfl, -⟩ := constructorBlock_eq_ok built
  have pushed : ∀ instruction ∈ default.getD [], instruction.Fitting known := by
    cases default with
    | none => simp
    | some code =>
        obtain ⟨constant, pushes⟩ := defaultCode_eq_ok literal code rfl
        exact fun instruction member =>
          ((Constant.literalForm_of_push? pushes).scalar instruction member).fitting
  -- The call names the type of the field in place of the type that declares the constructor.
  have bound : ∀ scope ∈ (constructor.methodRef.bindTo field.fieldType).scopes, known scope := by
    have named := within.findMethod? mapped found
    simp only [MethodRef.scopes, FieldRef.scopes, List.forall_mem_append] at named stored
    simp only [MethodRef.scopes, MethodRef.bindTo, List.forall_mem_append]
    exact ⟨⟨⟨stored.2, named.1.1.2⟩, named.1.2⟩, named.2⟩
  simp only [List.forall_mem_append, List.forall_mem_cons]
  exact ⟨⟨⟨fitting_plain rfl, fitting_pushString _, fitting_pushString _, by simp⟩, pushed⟩,
    fitting_method bound rfl, fitting_field stored rfl, by simp⟩

private theorem queryCode_fitting {element : TypeSig} {constructor : MethodRef}
    (wraps : ∀ scope ∈ element.scopes, known scope)
    (constructs : ∀ scope ∈ constructor.scopes, known scope) (identifiers : List String) :
    ∀ instruction ∈ queryCode element constructor identifiers, instruction.Fitting known := by
  have one : ∀ index identifier, ∀ instruction ∈ storeIdentifier constructor index identifier,
      instruction.Fitting known := by
    intro index identifier
    simp only [storeIdentifier, List.forall_mem_cons]
    exact ⟨fitting_plain rfl, fitting_pushInt32 _, fitting_pushString _,
      fitting_method constructs rfl, fitting_plain rfl, by simp⟩
  have stored : ∀ instruction ∈ (identifiers.mapIdx (storeIdentifier constructor)).flatten,
      instruction.Fitting known := by
    intro instruction member
    obtain ⟨code, listed, member⟩ := List.mem_flatten.mp member
    obtain ⟨index, inside, rfl⟩ := List.mem_mapIdx.mp listed
    exact one index _ instruction member
  simp only [queryCode, List.forall_mem_append, List.forall_mem_cons]
  exact ⟨⟨⟨fitting_pushInt32 _, fitting_type wraps rfl, by simp⟩, stored⟩, fitting_plain rfl,
    fitting_branch rfl, fitting_plain rfl, fitting_plain rfl, by simp⟩

/-! ## Edits -/

private theorem fitting_replaceBody {method : Nat} {body : MethodBody}
    (fitting : ∀ instruction ∈ body.instructions, instruction.Fitting known) :
    (Edit.replaceBody method body).Fitting known :=
  ⟨fun instruction member => (fitting instruction member).fits, within_of_fitting fitting⟩

private theorem fitting_prelude {method : Nat} {block : List Instruction} {maxStack : UInt16}
    (fitting : ∀ instruction ∈ block, instruction.Fitting known) :
    (Edit.prependToConstructor method block maxStack).Fitting known :=
  ⟨fun instruction member => (fitting instruction member).fits, within_of_fitting fitting⟩

private theorem within_backingField? (located : type.Within known) {field : FieldRef}
    (backing : type.definition.backingField? property = some field) :
    ∀ scope ∈ field.scopes, known scope := by
  simp only [TypeDef.backingField?, Option.bind_eq_bind, Option.bind_eq_some_iff] at backing
  obtain ⟨index, -, setter, declared, rest⟩ := backing
  split at rest
  · cases rest
  · simp only [Option.bind_eq_some_iff] at rest
    obtain ⟨body, stored, instruction, found, member⟩ := rest
    have within := located.method declared
    have listed := List.mem_of_find?_eq_some found
    intro scope named
    have inside : scope ∈ instruction.scopes := by
      obtain ⟨opcode, operand⟩ := instruction
      cases operand with
      | field other =>
          obtain rfl := Option.some.inj member
          exact named
      | _ => cases member
    refine within scope ?_
    simp only [MethodDef.scopes, stored, Option.toList_some, List.flatMap_singleton,
      MethodBody.scopes, List.mem_append]
    exact .inr (.inr (List.mem_flatMap.mpr ⟨instruction, listed, inside⟩))

private theorem routeThrough_fitting (within : context.metadata.Within known) {typeIndex : Nat}
    (located : type.Within known) {mapping : LocatedType} (mapped : mapping.Within known)
    (held : ∀ scope ∈ property.propertyType.scopes, known scope) {identifier fieldName : String}
    {edit : TypeEdit}
    (routed : context.routeThrough typeIndex type property mapping identifier fieldName
      (.instantiated mapping.typeRef false [property.propertyType]) = .ok edit) :
    ∀ change ∈ edit.edits, change.Fitting known := by
  obtain ⟨api, code, maxStack, setterEdits, apis, built, setters, -, rfl⟩ := routeThrough_eq_ok routed
  obtain ⟨parameter, -, reads, writes⟩ := mappingApi_eq_ok.mp apis
  have fieldType : ∀ scope ∈
      (TypeSig.instantiated mapping.typeRef false [property.propertyType]).scopes, known scope := by
    simp only [TypeSig.scopes, TypeSig.scopesOfAll, List.append_nil, List.forall_mem_append]
    exact ⟨mapped.typeRef, held⟩
  have field : ∀ scope ∈ (FieldRef.mk type.sig fieldName
      (.instantiated mapping.typeRef false [property.propertyType])).scopes, known scope :=
    List.forall_mem_append.mpr ⟨located.sig, fieldType⟩
  have api' : ∀ {method : LocatedMethod}, (∀ scope ∈ method.methodRef.scopes, known scope) →
      ∀ scope ∈ (method.instantiate [property.propertyType]).scopes, known scope := by
    intro method named
    simp only [LocatedMethod.instantiate, MethodRef.scopes, List.flatMap_singleton,
      List.forall_mem_append] at named ⊢
    exact ⟨named.1, held⟩
  have getValue := api' (within.findMethod? located reads)
  have setValue := api' (within.findMethod? located writes)
  intro change member
  simp only [List.mem_append, List.mem_cons, List.mem_map] at member
  obtain (((rfl | ⟨getter, _, rfl⟩) | member) | ⟨name, _, rfl⟩) | ⟨constructor, _, rfl⟩ := member
  · exact ⟨trivial, fieldType⟩
  · exact fitting_replaceBody (mappedGetter_fitting field getValue)
  · obtain ⟨setter, body, _, rfl, made⟩ := setters change member
    have accessible : ValueSource.Within known (.mapping _ _ _) := ⟨field, getValue, setValue⟩
    exact fitting_replaceBody (setter_fitting within located accessible held made)
  · exact ⟨trivial, fun scope named => absurd named List.not_mem_nil⟩
  · exact fitting_prelude (constructorBlock_fitting within mapped field built)

private theorem overrideQuery_fitting (within : context.metadata.Within known)
    (runtime : known context.configuration.runtime.module) {typeIndex : Nat} {edit : TypeEdit}
    (overridden : context.overrideQuery typeIndex = .ok edit) :
    ∀ change ∈ edit.edits, change.Fitting known := by
  rcases overrideQuery_eq_ok overridden with rfl | ⟨type, identifiers, declaration, wrapper,
    constructor, located, -, inherited, wraps, constructs, rfl⟩
  · exact fun change member => absurd member List.not_mem_nil
  have start := within.targetType? (orError_eq_ok.mp located)
  have wrapped := within.findType? (by rintro _ ⟨⟩; exact runtime) (orError_eq_ok.mp wraps)
  have code := queryCode_fitting wrapped.sig (within.findMethod? wrapped constructs)
    identifiers.flatten
  obtain ⟨level, listed, declares⟩ := List.exists_of_findSome?_eq_some inherited
  obtain ⟨rfl, declared⟩ := LocatedType.mem_methods.mp (List.mem_of_find?_eq_some declares)
  have owner := within.mem_chain start (List.mem_of_mem_tail listed)
  have named := owner.method declared
  simp only [MethodDef.scopes, List.forall_mem_append] at named
  have returned := TypeSig.within_qualify owner.origin _ named.1.1.1
  intro change member
  obtain rfl := List.mem_singleton.mp member
  refine ⟨?_, ?_⟩
  · intro body has instruction member
    obtain rfl := Option.some.inj has
    exact (code instruction member).fits
  · simp only [Edit.scopes, Option.getD_some, List.flatMap_singleton, List.forall_mem_append]
    exact ⟨⟨returned, returned⟩, within_of_fitting code⟩

end WeavingContext

/-- The edits that a task asks for bring in operands that fit, and known scopes alone if the target, the
core module and the runtime mention known scopes alone. -/
theorem Task.fitting_of_execute {context : WeavingContext} (within : context.metadata.Within known)
    (runtime : known context.configuration.runtime.module) {task : Task} {edit : TypeEdit}
    (executed : task.execute context = .ok edit) : ∀ change ∈ edit.edits, change.Fitting known := by
  cases task with
  | mappedProperty typeIndex propertyIndex =>
      rcases WeavingContext.mapProperty_eq_ok executed with rfl | ⟨type, property, identifier,
        mapping, located, listed, -, -, -, mapped, -, routed⟩
      · exact fun change member => absurd member List.not_mem_nil
      · have start := within.targetType? (orError_eq_ok.mp located)
        have host := within.findType? (by rintro _ ⟨⟩; exact runtime) (orError_eq_ok.mp mapped)
        exact WeavingContext.routeThrough_fitting within start host
          (start.property (orError_eq_ok.mp listed)) routed
  | changeNotification typeIndex propertyIndex =>
      rcases WeavingContext.notifyChanges_eq_ok executed with rfl | ⟨type, property, setter, field,
        body, located, -, -, -, backing, made, rfl⟩
      · exact fun change member => absurd member List.not_mem_nil
      · have start := within.targetType? (orError_eq_ok.mp located)
        have stored : ValueSource.Within known (.field field) :=
          WeavingContext.within_backingField? start backing
        intro change member
        obtain rfl := List.mem_singleton.mp member
        exact WeavingContext.fitting_replaceBody (WeavingContext.setter_fitting within start stored
          (List.forall_mem_append.mp stored).2 made)
  | typeHierarchy typeIndex => exact WeavingContext.overrideQuery_fitting within runtime executed

end PropertyWeaver
