import PropertyWeaver.Proofs.Outcome
import PropertyWeaver.Weaving.Hierarchy
import PropertyWeaver.Weaving.MappedProperty
import PropertyWeaver.Weaving.Setter

/-!
# Synthesized code in closed form

The code that the tasks assemble, with its labels resolved.
-/

set_option autoImplicit false

namespace PropertyWeaver

@[simp] theorem orError_eq_ok {ε α : Type} {error : ε} {found : Option α} {value : α} :
    orError error found = .ok value ↔ found = some value := by
  cases found <;> simp [orError]

/-- The code of a notifying setter. The first branch leads to the store, the second one to the
return behind it. -/
def setterCode (source : ValueSource) (equality : Equality) (notify : MethodRef)
    (propertyName : String) : List Instruction :=
  let store := source.load.length + 6
  let exit := store + source.store.length + 3
  source.load ++
    [Opcode.ldarg1.plain, equality.compare, .pushInt32 0, Opcode.ceq.plain,
     ⟨.brtrue, .branch (.ofNat store)⟩, ⟨.br, .branch (.ofNat exit)⟩] ++
    source.store ++
    [Opcode.ldarg0.plain, .pushString propertyName, ⟨.callvirt, .method notify⟩, Opcode.ret.plain]

private theorem finish_setterAssembly (source : ValueSource) (equality : Equality)
    (notify : MethodRef) (propertyName : String) :
    (setterAssembly source equality notify propertyName).finish =
      .ok (setterCode source equality notify propertyName) := by
  cases source <;> rfl

namespace WeavingContext

/-- A setter is found together with the comparison and the notification method that it uses. -/
theorem setter_eq_ok {context : WeavingContext} {type : LocatedType} {property : PropertyDef}
    {source : ValueSource} {body : MethodBody} :
    context.setter type property source = .ok body ↔
      ∃ equality notify,
        context.metadata.equality? (source.valueType property.propertyType)
          context.configuration.runtime.equals context.configuration.runtime.rootObject =
            some equality ∧
        context.metadata.inheritedMethod? type context.configuration.runtime.raisePropertyChanged
          ["System.String"] = some notify ∧
        body = .ofCode source.maxStack
          (setterCode source equality notify.methodRef property.name) := by
  simp only [setter, Outcome.bind_eq_ok, orError_eq_ok, Outcome.mapError_eq_ok,
    finish_setterAssembly, Outcome.pure_eq, Except.ok.injEq]
  constructor
  · rintro ⟨equality, compares, notify, notifies, _, rfl, rfl⟩
    exact ⟨equality, notify, compares, notifies, rfl⟩
  · rintro ⟨equality, notify, compares, notifies, rfl⟩
    exact ⟨equality, compares, notify, notifies, _, rfl, rfl⟩

/-- The code of a query: the array is filled, kept in the local and returned. -/
def queryCode (element : TypeSig) (constructor : MethodRef) (identifiers : List String) :
    List Instruction :=
  [.pushInt32 (Int32.ofNat identifiers.length), ⟨.newarr, .type element⟩] ++
    (identifiers.mapIdx (storeIdentifier constructor)).flatten ++
    [.storeLocal 0, ⟨.br, .branch (.ofNat (5 * identifiers.length + 4))⟩, .loadLocal 0,
     Opcode.ret.plain]

theorem length_storeIdentifiers (constructor : MethodRef) (identifiers : List String) :
    (identifiers.mapIdx (storeIdentifier constructor)).flatten.length = 5 * identifiers.length := by
  have sizes : (identifiers.mapIdx (storeIdentifier constructor)).map List.length =
      List.replicate identifiers.length 5 := by
    apply List.ext_getElem
    · simp
    · intro index _ _
      simp [storeIdentifier]
  rw [List.length_flatten, sizes]
  simp [Nat.mul_comm]

private theorem mapM_resolve_instruction (assembly : Assembly) (code : List Instruction) :
    (code.map Line.instruction).mapM assembly.resolve = .ok code := by
  induction code with
  | nil => rfl
  | cons instruction code hypothesis =>
      simp [List.mapM_cons, hypothesis, Assembly.resolve]

theorem finish_queryAssembly (element : TypeSig) (constructor : MethodRef)
    (identifiers : List String) :
    (queryAssembly element constructor identifiers).finish =
      .ok (queryCode element constructor identifiers) := by
  simp only [queryAssembly, queryCode, Assembly.finish, Assembly.append, Assembly.mark,
    Assembly.branch, Assembly.defineLabel, Assembly.empty, Assembly.size, List.mapM_append,
    mapM_resolve_instruction]
  simp only [List.length_append, List.length_map, length_storeIdentifiers]
  simp [Assembly.resolve, Assembly.position?]
  grind

end WeavingContext

end PropertyWeaver
