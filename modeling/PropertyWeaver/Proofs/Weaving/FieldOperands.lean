import PropertyWeaver.Proofs.Weaving.Composition
import PropertyWeaver.Proofs.Weaving.Reach

/-!
# Fields that synthesized code works on

The code that routes a property works on its mapping field alone, a notifying setter on the backing
field, and the code of a query on no field. Code that stays keeps its operands while its targets are
shifted.
-/

set_option autoImplicit false

namespace PropertyWeaver

namespace Instruction

@[simp] theorem field?_mapTarget (shift : UInt64 → UInt64) (instruction : Instruction) :
    (instruction.mapTarget shift).field? = instruction.field? := by
  obtain ⟨opcode, operand⟩ := instruction
  cases operand <;> rfl

/-- The instruction works on one of the given fields or on none. A field store works on one. -/
def Accesses (fields : FieldRef → Prop) (instruction : Instruction) : Prop :=
  (∀ member ∈ instruction.field?, fields member) ∧
    (instruction.opcode = .stfld → instruction.field?.isSome = true)

variable {fields fields' : FieldRef → Prop} {instruction : Instruction}

theorem Accesses.mono (accesses : instruction.Accesses fields)
    (weaker : ∀ member, fields member → fields' member) : instruction.Accesses fields' :=
  ⟨fun member operand => weaker member (accesses.1 member operand), accesses.2⟩

theorem Accesses.mapTarget (shift : UInt64 → UInt64) (accesses : instruction.Accesses fields) :
    (instruction.mapTarget shift).Accesses fields := by
  simpa [Accesses] using accesses

private theorem accesses_field {opcode : Opcode} {member : FieldRef} (allowed : fields member) :
    Accesses fields ⟨opcode, .field member⟩ := by
  refine ⟨fun other operand => ?_, fun _ => rfl⟩
  obtain rfl := Option.some.inj operand
  exact allowed

private theorem accesses_of_field? (plain : instruction.field? = none)
    (other : instruction.opcode ≠ .stfld) :
    instruction.Accesses fields := by
  refine ⟨fun member operand => ?_, fun stores => absurd stores other⟩
  rw [plain] at operand
  cases operand

private theorem accesses_plain {opcode : Opcode}
    (other : opcode ≠ .stfld) : opcode.plain.Accesses fields :=
  accesses_of_field? rfl other

private theorem Scalar.accesses (scalar : instruction.Scalar) : instruction.Accesses fields :=
  accesses_of_field? scalar.field?_eq_none scalar.ne_stfld

private theorem accesses_pushInt32 (value : Int32) : (pushInt32 value).Accesses fields :=
  (scalar_pushInt32 value).accesses

private theorem accesses_pushString (value : String) : (pushString value).Accesses fields :=
  accesses_of_field? rfl (by simp [pushString])

end Instruction

theorem Edit.Brings.mono {holds holds' : Instruction → Prop} {edit : Edit} (brings : edit.Brings holds)
    (weaker : ∀ instruction, holds instruction → holds' instruction) : edit.Brings holds' := by
  cases edit with
  | replaceBody method body => exact fun instruction member => weaker _ (brings instruction member)
  | prependToConstructor method block maxStack =>
      exact fun instruction member => weaker _ (brings instruction member)
  | addField field => trivial
  | removeField name => trivial
  | addMethod method =>
      exact fun body has instruction member => weaker _ (brings body has instruction member)

open Instruction

section Templates

variable {fields : FieldRef → Prop}

def ValueSource.member : ValueSource → FieldRef
  | .field member | .mapping member _ _ => member

private theorem ValueSource.accesses_load (source : ValueSource) :
    ∀ instruction ∈ source.load, instruction.Accesses (· = source.member) := by
  cases source with
  | field member =>
      simp only [load, List.forall_mem_cons]
      exact ⟨accesses_plain (by decide), accesses_field rfl, by simp⟩
  | mapping member getValue setValue =>
      simp only [load, List.forall_mem_cons]
      exact ⟨accesses_plain (by decide), accesses_plain (by decide), accesses_field rfl,
        accesses_of_field? rfl (by simp), by simp⟩

private theorem ValueSource.accesses_store (source : ValueSource) :
    ∀ instruction ∈ source.store, instruction.Accesses (· = source.member) := by
  cases source with
  | field member =>
      simp only [store, List.forall_mem_cons]
      exact ⟨accesses_plain (by decide), accesses_plain (by decide), accesses_field rfl, by simp⟩
  | mapping member getValue setValue =>
      simp only [store, List.forall_mem_cons]
      exact ⟨accesses_plain (by decide), accesses_plain (by decide), accesses_field rfl,
        accesses_plain (by decide), accesses_of_field? rfl (by simp), by simp⟩

end Templates

namespace WeavingContext

variable {context : WeavingContext} {typeIndex propertyIndex : Nat} {type : LocatedType}
  {property : PropertyDef} {edit : TypeEdit} {fields : FieldRef → Prop}

private theorem mappedGetter_accesses (field : FieldRef) (getValue : MethodRef) :
    ∀ instruction ∈ (mappedGetter field getValue).instructions, instruction.Accesses (· = field) := by
  simp only [mappedGetter, MethodBody.ofCode, List.forall_mem_cons]
  exact ⟨accesses_plain (by decide), accesses_plain (by decide), accesses_field rfl,
    accesses_of_field? rfl (by simp), accesses_plain (by decide), by simp⟩

theorem setter_accesses {source : ValueSource} {body : MethodBody}
    (made : context.setter type property source = .ok body) :
    ∀ instruction ∈ body.instructions, instruction.Accesses (· = source.member) := by
  obtain ⟨equality, notify, -, -, rfl⟩ := setter_eq_ok.mp made
  have compare : equality.compare.Accesses (· = source.member) := by
    cases equality with
    | primitive => exact accesses_plain (by decide)
    | method member => exact accesses_of_field? rfl (by simp [Equality.compare])
  simp only [MethodBody.ofCode, setterCode, List.forall_mem_append, List.forall_mem_cons]
  exact ⟨⟨⟨source.accesses_load, accesses_plain (by decide), compare, accesses_pushInt32 0,
    accesses_plain (by decide), accesses_of_field? rfl (by simp), accesses_of_field? rfl (by simp),
    by simp⟩, source.accesses_store⟩, accesses_plain (by decide), accesses_pushString _,
    accesses_of_field? rfl (by simp), accesses_plain (by decide), by simp⟩

private theorem constructorBlock_accesses {mapping : LocatedType} {identifier : String}
    {field : FieldRef} {code : List Instruction} {maxStack : UInt16}
    (built : context.constructorBlock type property mapping identifier field = .ok (code, maxStack)) :
    ∀ instruction ∈ code, instruction.Accesses (· = field) := by
  obtain ⟨default, parameter, constructor, literal, -, -, rfl, -⟩ := constructorBlock_eq_ok built
  have pushed : ∀ instruction ∈ default.getD [], instruction.Accesses (· = field) := by
    cases default with
    | none => simp
    | some code =>
        obtain ⟨constant, pushes⟩ := defaultCode_eq_ok literal code rfl
        exact fun instruction member =>
          ((Constant.literalForm_of_push? pushes).scalar instruction member).accesses
  simp only [List.forall_mem_append, List.forall_mem_cons]
  exact ⟨⟨⟨accesses_plain (by decide), accesses_pushString _, accesses_pushString _, by simp⟩, pushed⟩,
    accesses_of_field? rfl (by simp), accesses_field rfl, by simp⟩

private theorem queryCode_accesses (element : TypeSig) (constructor : MethodRef)
    (identifiers : List String) :
    ∀ instruction ∈ queryCode element constructor identifiers, instruction.Accesses fields := by
  have one : ∀ index identifier, ∀ instruction ∈ storeIdentifier constructor index identifier,
      instruction.Accesses fields := by
    intro index identifier
    simp only [storeIdentifier, List.forall_mem_cons]
    exact ⟨accesses_plain (by decide), accesses_pushInt32 _, accesses_pushString _,
      accesses_of_field? rfl (by simp), accesses_plain (by decide), by simp⟩
  have stored : ∀ instruction ∈ (identifiers.mapIdx (storeIdentifier constructor)).flatten,
      instruction.Accesses fields := by
    intro instruction member
    obtain ⟨code, listed, member⟩ := List.mem_flatten.mp member
    obtain ⟨index, inside, rfl⟩ := List.mem_mapIdx.mp listed
    exact one index _ instruction member
  simp only [queryCode, List.forall_mem_append, List.forall_mem_cons]
  exact ⟨⟨⟨accesses_pushInt32 _, accesses_of_field? rfl (by simp), by simp⟩, stored⟩,
    accesses_plain (by decide), accesses_of_field? rfl (by simp), accesses_plain (by decide),
    accesses_plain (by decide), by simp⟩

/-! ## Edits -/

theorem routeThrough_accesses {mapping : LocatedType} {identifier fieldName : String}
    {fieldType : TypeSig}
    (routed : context.routeThrough typeIndex type property mapping identifier fieldName fieldType =
      .ok edit) :
    ∀ change ∈ edit.edits,
      change.Brings (Instruction.Accesses (· = ⟨type.sig, fieldName, fieldType⟩)) := by
  obtain ⟨api, code, maxStack, setterEdits, -, built, setters, -, rfl⟩ := routeThrough_eq_ok routed
  intro change member
  simp only [List.mem_append, List.mem_cons, List.mem_map] at member
  obtain (((rfl | ⟨getter, _, rfl⟩) | member) | ⟨name, _, rfl⟩) | ⟨constructor, _, rfl⟩ := member
  · trivial
  · exact mappedGetter_accesses _ _
  · obtain ⟨setter, body, _, rfl, made⟩ := setters change member
    exact setter_accesses made
  · trivial
  · exact constructorBlock_accesses built

/-- A query that is added works on no field. -/
theorem overrideQuery_accesses (overridden : context.overrideQuery typeIndex = .ok edit) :
    ∀ change ∈ edit.edits, change.Brings (Instruction.Accesses fields) := by
  rcases overrideQuery_eq_ok overridden with rfl | ⟨type, identifiers, declaration, wrapper,
    constructor, -, -, -, -, -, rfl⟩
  · exact fun change member => absurd member List.not_mem_nil
  · intro change member
    obtain rfl := List.mem_singleton.mp member
    intro body has
    obtain rfl := Option.some.inj has
    exact queryCode_accesses wrapper.sig constructor.methodRef identifiers.flatten

end WeavingContext

end PropertyWeaver
