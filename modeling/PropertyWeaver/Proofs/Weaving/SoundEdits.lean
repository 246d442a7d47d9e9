import PropertyWeaver.Proofs.Metadata.Lookup
import PropertyWeaver.Proofs.Weaving.Frame
import PropertyWeaver.Proofs.Weaving.Tasks
import PropertyWeaver.Proofs.Weaving.TemplateDepth

/-!
# Edits that verify

If the methods of the runtime have the shape with which woven code calls them, every edit that a
task asks for is sound: a body that it sets verifies, and a prelude keeps the stack empty.
-/

set_option autoImplicit false

namespace PropertyWeaver

open Verification

/-- A method that bears the name of a runtime method has the shape that woven code relies on. -/
structure RuntimeShape (names : RuntimeNames) (method : MethodDef) : Prop where
  getValue : method.name = names.getValue → method.isStatic = false ∧ method.returnsValue = true
  setValue : method.name = names.setValue → method.isStatic = false ∧ method.returnsValue = false
  raisePropertyChanged : method.name = names.raisePropertyChanged →
    method.isStatic = false ∧ method.returnsValue = false
  equals : method.name = names.equals → method.returnsValue = true
  typeQuery : method.name = names.typeQuery → method.returnsValue = true

instance (names : RuntimeNames) (method : MethodDef) : Decidable (RuntimeShape names method) :=
  decidable_of_iff
    ((method.name = names.getValue → method.isStatic = false ∧ method.returnsValue = true) ∧
      (method.name = names.setValue → method.isStatic = false ∧ method.returnsValue = false) ∧
      (method.name = names.raisePropertyChanged →
        method.isStatic = false ∧ method.returnsValue = false) ∧
      (method.name = names.equals → method.returnsValue = true) ∧
      (method.name = names.typeQuery → method.returnsValue = true))
    ⟨fun ⟨getValue, setValue, raise, equals, query⟩ => ⟨getValue, setValue, raise, equals, query⟩,
      fun ⟨getValue, setValue, raise, equals, query⟩ => ⟨getValue, setValue, raise, equals, query⟩⟩

/-- The accessors of a property are instance methods; getters return a value, setters take one and
return nothing. -/
structure AccessorShape (type : TypeDef) (property : PropertyDef) : Prop where
  getter : ∀ index ∈ property.getter, ∀ method, type.methods[index]? = some method →
    method.isStatic = false ∧ method.returnsValue = true
  setter : ∀ index ∈ property.setter, ∀ method, type.methods[index]? = some method →
    method.isStatic = false ∧ method.returnsValue = false ∧ 0 < method.parameters.length

/-- A property whose accessors may be replaced: none of them is a constructor. -/
structure Replaceable (type : TypeDef) (property : PropertyDef) : Prop
    extends AccessorShape type property where
  ordinary : ∀ index ∈ property.accessors, ∀ method, type.methods[index]? = some method →
    method.isConstructor = false

private theorem RuntimeShape.of_eq {names : RuntimeNames} {left right : MethodDef}
    (shaped : RuntimeShape names left) (name : right.name = left.name)
    (static : right.isStatic = left.isStatic) (returns : right.returnsValue = left.returnsValue) :
    RuntimeShape names right where
  getValue named := by
    rw [static, returns]
    exact shaped.getValue (name ▸ named)
  setValue named := by
    rw [static, returns]
    exact shaped.setValue (name ▸ named)
  raisePropertyChanged named := by
    rw [static, returns]
    exact shaped.raisePropertyChanged (name ▸ named)
  equals named := by
    rw [returns]
    exact shaped.equals (name ▸ named)
  typeQuery named := by
    rw [returns]
    exact shaped.typeQuery (name ▸ named)

theorem RuntimeShape.of_header {names : RuntimeNames} {left right : MethodDef}
    (shaped : RuntimeShape names left) (same : right.header = left.header) :
    RuntimeShape names right :=
  shaped.of_eq (MethodDef.eq_of_header same _ fun _ => rfl)
    (MethodDef.eq_of_header same _ fun _ => rfl) (MethodDef.eq_of_header same _ fun _ => rfl)

/-- Every method of the target and of the modules at hand has the shape of its name. -/
def Metadata.Shaped (metadata : Metadata) (names : RuntimeNames) : Prop :=
  ∀ definition, metadata.Declares definition → ∀ method ∈ definition.methods,
    RuntimeShape names method

namespace LocatedMethod

private theorem exchanges_instantiate {method : LocatedMethod} (arguments : List TypeSig)
    {count : Nat} {returns : Bool} (instanceMethod : method.definition.isStatic = false)
    (parameters : method.definition.parameters.length = count)
    (result : method.definition.returnsValue = returns) :
    (method.instantiate arguments).Exchanges (count + 1) returns.toNat where
  pops := by
    have pops := method.popCount_methodRef
    simp only [MethodDef.argumentCount, parameters, instanceMethod, Bool.not_false,
      Bool.toNat_true] at pops
    exact pops
  pushes := by
    have pushes := method.returnsValue_methodRef
    rw [result] at pushes
    exact congrArg Bool.toNat pushes

end LocatedMethod

namespace Metadata

variable {metadata : Metadata} {type : LocatedType} {method : LocatedMethod} {name : String}
  {returns : Bool}

/-- A call of an instance method that is found takes the receiver and the parameters asked for. -/
theorem exchanges_of_inheritedMethod? {parameters : List String}
    (found : metadata.inheritedMethod? type name parameters = some method)
    (instanceMethod : method.definition.isStatic = false)
    (result : method.definition.returnsValue = returns) :
    method.methodRef.Exchanges (parameters.length + 1) returns.toNat := by
  obtain ⟨_, _, accepted⟩ := findMethod?_spec found
  simp only [Bool.and_eq_true, decide_eq_true_eq] at accepted
  have count := method.definition.length_parameterNames
  rw [accepted.2] at count
  exact method.exchanges_instantiate [] instanceMethod count.symm result

theorem exchanges_of_inheritedGenericMethod? {arguments : List TypeSig}
    (instantiation : List TypeSig)
    (found : metadata.inheritedGenericMethod? type name arguments = some method)
    (instanceMethod : method.definition.isStatic = false)
    (result : method.definition.returnsValue = returns) :
    (method.instantiate instantiation).Exchanges (arguments.length + 1) returns.toNat := by
  obtain ⟨_, _, accepted⟩ := findMethod?_spec found
  simp only [Bool.and_eq_true, decide_eq_true_eq] at accepted
  exact method.exchanges_instantiate instantiation instanceMethod accepted.1.2 result

/-- A comparison that is found takes two values. -/
theorem exchanges_of_equality? {valueType : TypeSig} {equals rootObject : String}
    {member : MethodRef}
    (found : metadata.equality? valueType equals rootObject = some (.method member))
    (result : member.returnsValue = true) : member.Exchanges 2 1 := by
  obtain ⟨method, typeName, rfl, _, _, compares⟩ := equality?_spec found
  simp only [MethodDef.comparesPairsOf, Bool.and_eq_true, decide_eq_true_eq] at compares
  have parameters := method.definition.length_parameterNames
  rw [compares.2] at parameters
  refine ⟨?_, by rw [result]; rfl⟩
  rw [LocatedMethod.popCount_methodRef, MethodDef.argumentCount, compares.1.2, ← parameters]
  rfl

end Metadata

namespace WeavingContext

variable {context : WeavingContext} {type : LocatedType} {property : PropertyDef}
  {shape : BodyShape}

section Lookups

variable (shaped : context.metadata.Shaped context.configuration.runtime)
  (declared : context.metadata.Declares type.definition)

include shaped declared

private theorem shape_of_findMethod? {accepts : MethodDef → Bool} {method : LocatedMethod}
    (found : context.metadata.findMethod? type accepts = some method) :
    RuntimeShape context.configuration.runtime method.definition ∧
      accepts method.definition = true := by
  obtain ⟨member, stored, accepted⟩ := Metadata.findMethod?_spec found
  exact ⟨shaped _ (Metadata.declares_of_mem_chain declared member) _
    (List.mem_of_getElem? stored), accepted⟩

private theorem notify_exchanges {notify : LocatedMethod}
    (found : context.metadata.inheritedMethod? type
      context.configuration.runtime.raisePropertyChanged ["System.String"] = some notify) :
    notify.methodRef.Exchanges 2 0 := by
  obtain ⟨shape, accepted⟩ := shape_of_findMethod? shaped declared found
  simp only [Bool.and_eq_true, decide_eq_true_eq] at accepted
  obtain ⟨instanceMethod, returns⟩ := shape.raisePropertyChanged accepted.1
  exact Metadata.exchanges_of_inheritedMethod? found instanceMethod returns

private theorem mappingMethod_exchanges {name : String} {arguments : List TypeSig}
    {method : LocatedMethod} {returns : Bool} (instantiation : List TypeSig)
    (found : context.metadata.inheritedGenericMethod? type name arguments = some method)
    (named : ∀ method, RuntimeShape context.configuration.runtime method → method.name = name →
      method.isStatic = false ∧ method.returnsValue = returns) :
    (method.instantiate instantiation).Exchanges (arguments.length + 1) returns.toNat := by
  obtain ⟨shape, accepted⟩ := shape_of_findMethod? shaped declared found
  simp only [Bool.and_eq_true, decide_eq_true_eq] at accepted
  obtain ⟨instanceMethod, result⟩ := named _ shape accepted.1.1
  exact Metadata.exchanges_of_inheritedGenericMethod? instantiation found instanceMethod result

private theorem mappingApi_exchanges {mapping : LocatedType} {api : MappingApi}
    (found : context.mappingApi type property mapping = .ok api) (arguments : List TypeSig) :
    (api.getValue.instantiate arguments).Exchanges 2 1 ∧
      (api.setValue.instantiate arguments).Exchanges 3 0 := by
  obtain ⟨parameter, _, reads, writes⟩ := mappingApi_eq_ok.mp found
  exact ⟨mappingMethod_exchanges shaped declared arguments reads fun _ shape => shape.getValue,
    mappingMethod_exchanges shaped declared arguments writes fun _ shape => shape.setValue⟩

omit declared in
private theorem equality_comparing {valueType : TypeSig} {equality : Equality}
    (found : context.metadata.equality? valueType context.configuration.runtime.equals
      context.configuration.runtime.rootObject = some equality) : equality.Comparing := by
  cases equality with
  | primitive => trivial
  | method member =>
      obtain ⟨method, typeName, same, declared, stored, compares⟩ := Metadata.equality?_spec found
      have shape := shaped _ declared _ (List.mem_of_getElem? stored)
      simp only [MethodDef.comparesPairsOf, Bool.and_eq_true, decide_eq_true_eq] at compares
      refine Metadata.exchanges_of_equality? found ?_
      rw [same, LocatedMethod.returnsValue_methodRef]
      exact shape.equals compares.1.1

private theorem verify_setter {source : ValueSource} {body : MethodBody}
    (made : context.setter type property source = .ok body) (accessible : source.Accessible)
    (value : 1 < shape.argumentCount) (returns : shape.returnsValue = false) :
    body.verify shape = .ok () := by
  obtain ⟨equality, notify, compares, notifies, rfl⟩ := setter_eq_ok.mp made
  exact setter_verify value returns accessible (equality_comparing shaped compares)
    (notify_exchanges shaped declared notifies) property.name

end Lookups

end WeavingContext

/-! ## Edits -/

/-- An edit of a type that keeps its methods verified: a body is set where it verifies and where no
constructor is, a prelude goes into a constructor and keeps the stack empty. -/
def Edit.Sound (type : TypeDef) : Edit → Prop
  | .replaceBody index body => ∃ method, type.methods[index]? = some method ∧
      method.isConstructor = false ∧ body.verify method.shape = .ok ()
  | .prependToConstructor index block maxStack => ∃ method, type.methods[index]? = some method ∧
      method.isConstructor = true ∧
      ∀ locals, Straight method.shape locals maxStack.toNat 0 block 0
  | .addField _ | .removeField _ => True
  | .addMethod method => method.verify = .ok ()

/-- The number of instructions by which an edit makes a constructor longer. -/
def Edit.growth (index : Nat) : Edit → Nat
  | .prependToConstructor target block _ => if target = index then block.length else 0
  | .replaceBody _ _ | .addField _ | .removeField _ | .addMethod _ => 0

/-- The edits of a task that adds no method: each is sound, and together they make no constructor
longer by more than seven instructions. -/
structure TypeEdit.Sound (type : TypeDef) (edit : TypeEdit) : Prop where
  changes : ∀ change ∈ edit.edits, change.Sound type ∧ change.addedMethods = []
  growth : ∀ index, (edit.edits.map (Edit.growth index)).sum ≤ 7

private theorem TypeEdit.sound_none (type : TypeDef) (typeIndex : Nat) :
    (TypeEdit.none typeIndex).Sound type :=
  ⟨by simp [none], by simp [none]⟩

private theorem MethodDef.one_lt_argumentCount {method : MethodDef}
    (instanceMethod : method.isStatic = false) (value : 0 < method.parameters.length) :
    1 < method.shape.argumentCount := by
  simp only [shape, argumentCount, instanceMethod, Bool.not_false, Bool.toNat_true]
  omega

private theorem MethodDef.argumentCount_pos {method : MethodDef}
    (instanceMethod : method.isStatic = false) :
    0 < method.shape.argumentCount := by
  simp [shape, argumentCount, instanceMethod]

namespace WeavingContext

variable {context : WeavingContext} {typeIndex propertyIndex : Nat} {type : LocatedType}
  {property : PropertyDef} {edit : TypeEdit}

theorem mem_constructors {definition : TypeDef} {index : Nat} :
    index ∈ definition.constructors ↔
      ∃ method, definition.methods[index]? = some method ∧ method.isConstructor = true := by
  simp only [TypeDef.constructors, List.mem_filter, List.mem_range]
  constructor
  · rintro ⟨inside, constructs⟩
    exact ⟨_, List.getElem?_eq_getElem inside, by
      simpa [List.getElem?_eq_getElem inside] using constructs⟩
  · rintro ⟨method, found, constructs⟩
    exact ⟨(List.getElem?_eq_some_iff.mp found).1, by simpa [found] using constructs⟩

theorem nodup_constructors (definition : TypeDef) : definition.constructors.Nodup :=
  List.nodup_range.filter _

/-- The prelude of a property has seven instructions at most. -/
theorem prelude_sound {mapping : LocatedType} {identifier : String} {field : FieldRef}
    {code : List Instruction} {maxStack : UInt16}
    (built : context.constructorBlock type property mapping identifier field =
      .ok (code, maxStack)) :
    code.length ≤ 7 ∧ ∀ shape : BodyShape, 0 < shape.argumentCount → ∀ locals,
      Straight shape locals maxStack.toNat 0 code 0 := by
  obtain ⟨default, parameter, constructor, literal, -, found, rfl, rfl⟩ :=
    constructorBlock_eq_ok built
  have literal := defaultCode_eq_ok literal
  have parameters := (Metadata.findMethod?_spec found).2.2
  simp only [Bool.and_eq_true, decide_eq_true_eq] at parameters
  have count := constructor.definition.length_parameterNames
  rw [parameters.2] at count
  cases default with
  | none =>
      exact ⟨by simp, fun shape receiver locals => straight_prelude receiver literal
        (constructor.length_parameters_methodRef.trans count.symm)⟩
  | some code =>
      obtain ⟨constant, pushes⟩ := literal code rfl
      have short := (Constant.literalForm_of_push? pushes).length_le
      refine ⟨by simp; omega, fun shape receiver locals => straight_prelude receiver literal
        (constructor.length_parameters_methodRef.trans count.symm)⟩

private theorem growth_eq_zero {edits : List Edit} {index : Nat}
    (still : ∀ edit ∈ edits, edit.growth index = 0) : (edits.map (Edit.growth index)).sum = 0 := by
  induction edits with
  | nil => rfl
  | cons edit edits hypothesis =>
      obtain ⟨here, rest⟩ := List.forall_mem_cons.mp still
      rw [List.map_cons, List.sum_cons, here, hypothesis rest]

private theorem growth_preludes_le {constructors : List Nat} (nodup : constructors.Nodup)
    (block : List Instruction) (maxStack : UInt16) (index : Nat) :
    ((constructors.map fun constructor =>
      Edit.prependToConstructor constructor block maxStack).map (Edit.growth index)).sum ≤
        block.length := by
  induction constructors with
  | nil => simp
  | cons constructor constructors hypothesis =>
      obtain ⟨fresh, nodup⟩ := List.nodup_cons.mp nodup
      simp only [List.map_cons, List.sum_cons, Edit.growth]
      split
      · next here =>
        have rest : (constructors.map fun constructor =>
            Edit.prependToConstructor constructor block maxStack).map (Edit.growth index) =
              List.replicate constructors.length 0 := by
          rw [List.map_map, List.eq_replicate_iff]
          refine ⟨by simp, fun amount member => ?_⟩
          obtain ⟨other, listed, rfl⟩ := List.mem_map.mp member
          exact if_neg fun same => fresh (by rw [here, ← same]; exact listed)
        rw [rest]
        simp
      · rw [Nat.zero_add]
        exact hypothesis nodup

section Tasks

variable (shaped : context.metadata.Shaped context.configuration.runtime)

include shaped

theorem notifyChanges_sound (located : context.targetType typeIndex = .ok type)
    (accessors : ∀ property, type.definition.properties[propertyIndex]? = some property →
      Replaceable type.definition property)
    (notified : context.notifyChanges typeIndex propertyIndex = .ok edit) :
    edit.Sound type.definition := by
  rcases notifyChanges_eq_ok notified with rfl | ⟨other, property, setter, field, body, located',
    listed, accessor, checked, _, made, rfl⟩
  · exact TypeEdit.sound_none type.definition typeIndex
  · rw [located] at located'
    obtain rfl := Except.ok.inj located'
    obtain ⟨method, found, _⟩ := checkAccessor_eq_ok.mp checked
    have replaceable := accessors property (propertyOf_eq_ok.mp listed)
    have declared : context.metadata.Declares type.definition :=
      .inl (List.mem_of_getElem? (targetType_eq_ok.mp located).1)
    obtain ⟨instanceMethod, returns, value⟩ := replaceable.setter setter accessor method found
    have plain := replaceable.ordinary setter (by simp [PropertyDef.accessors, accessor]) method found
    have verified := verify_setter shaped declared made trivial
      (MethodDef.one_lt_argumentCount instanceMethod value) returns
    refine ⟨fun change member => ?_, fun _ => Nat.zero_le 7⟩
    obtain rfl := List.mem_singleton.mp member
    exact ⟨⟨method, found, plain, verified⟩, rfl⟩

theorem mapProperty_sound (located : context.targetType typeIndex = .ok type)
    (accessors : ∀ property, type.definition.properties[propertyIndex]? = some property →
      Replaceable type.definition property)
    (mapped : context.mapProperty typeIndex propertyIndex = .ok edit) :
    edit.Sound type.definition := by
  rcases mapProperty_eq_ok mapped with rfl | ⟨other, property, identifier, mapping, located', listed,
    _, getters, setters, _, _, routed⟩
  · exact TypeEdit.sound_none type.definition typeIndex
  rw [located] at located'
  obtain rfl := Except.ok.inj located'
  have replaceable := accessors property (propertyOf_eq_ok.mp listed)
  have declared : context.metadata.Declares type.definition :=
    .inl (List.mem_of_getElem? (targetType_eq_ok.mp located).1)
  obtain ⟨api, code, maxStack, setterEdits, found, built, made, _, rfl⟩ := routeThrough_eq_ok routed
  obtain ⟨short, straight⟩ := prelude_sound built
  obtain ⟨reads, writes⟩ := mappingApi_exchanges shaped declared found [property.propertyType]
  have getterSound : ∀ getter ∈ property.getter,
      (Edit.replaceBody getter (mappedGetter
        ⟨type.sig, context.configuration.mappingFieldName property.name,
          .instantiated mapping.typeRef false [property.propertyType]⟩
        (api.getValue.instantiate [property.propertyType]))).Sound type.definition := by
    intro getter accessor
    obtain ⟨method, stored, _⟩ := checkAccessor_eq_ok.mp (getters getter accessor)
    obtain ⟨instanceMethod, returns⟩ := replaceable.getter getter accessor method stored
    have plain := replaceable.ordinary getter
      (List.mem_append_left _ (Option.mem_toList.mpr accessor)) method stored
    exact ⟨method, stored, plain,
      mappedGetter_verify (MethodDef.argumentCount_pos instanceMethod) returns reads⟩
  have setterSound : ∀ setterEdit ∈ setterEdits, setterEdit.Sound type.definition ∧
      setterEdit.addedMethods = [] ∧ ∀ index, setterEdit.growth index = 0 := by
    intro setterEdit member
    obtain ⟨setter, body, accessor, rfl, set⟩ := made setterEdit member
    obtain ⟨method, stored, _⟩ := checkAccessor_eq_ok.mp (setters setter accessor)
    obtain ⟨instanceMethod, returns, value⟩ := replaceable.setter setter accessor method stored
    have plain := replaceable.ordinary setter
      (List.mem_append_right _ (Option.mem_toList.mpr accessor)) method stored
    have verified := verify_setter shaped declared set ⟨reads, writes⟩
      (MethodDef.one_lt_argumentCount instanceMethod value) returns
    exact ⟨⟨method, stored, plain, verified⟩, rfl, fun _ => rfl⟩
  constructor
  · intro change member
    simp only [List.mem_append, List.mem_cons, List.mem_map, Option.mem_toList] at member
    obtain (((rfl | ⟨getter, accessor, rfl⟩) | member) | ⟨name, _, rfl⟩) | ⟨constructor, listed, rfl⟩ :=
      member
    · exact ⟨trivial, rfl⟩
    · exact ⟨getterSound getter accessor, rfl⟩
    · exact ⟨(setterSound change member).1, (setterSound change member).2.1⟩
    · exact ⟨trivial, rfl⟩
    · obtain ⟨method, stored, constructs⟩ := mem_constructors.mp listed
      have instanceMethod : method.isStatic = false := by
        simpa using (Bool.and_eq_true_iff.mp constructs).2
      exact ⟨⟨method, stored, constructs,
        straight method.shape (MethodDef.argumentCount_pos instanceMethod)⟩, rfl⟩
  · intro index
    rw [List.map_append, List.sum_append, growth_eq_zero, Nat.zero_add]
    · exact Nat.le_trans
        (growth_preludes_le (nodup_constructors type.definition) code maxStack index) short
    · intro change member
      simp only [List.mem_append, List.mem_cons, List.mem_map, Option.mem_toList] at member
      obtain ((rfl | ⟨getter, _, rfl⟩) | member) | ⟨name, _, rfl⟩ := member
      · rfl
      · rfl
      · exact (setterSound change member).2.2 index
      · rfl

end Tasks

/-! ## Queries -/

/-- The number of identifiers along the chain of a type. -/
def identifierCount (context : WeavingContext) (type : LocatedType) : Nat :=
  ((context.metadata.chain type).flatMap fun level =>
    level.definition.attributesNamed context.configuration.annotations.typeIdentifiers).length

/-- Each identifier comes from one attribute. -/
theorem length_typeIdentifiers {definition : TypeDef} {identifiers : List String}
    (found : context.typeIdentifiers definition = .ok identifiers) :
    identifiers.length =
      (definition.attributesNamed context.configuration.annotations.typeIdentifiers).length := by
  unfold typeIdentifiers at found
  simp only at found
  generalize definition.attributesNamed context.configuration.annotations.typeIdentifiers =
    attributes at found ⊢
  induction attributes generalizing identifiers with
  | nil =>
      obtain rfl := Except.ok.inj found
      rfl
  | cons attr attributes hypothesis =>
      obtain ⟨first, rest, _, there, rfl⟩ := Outcome.mapM_cons_eq_ok.mp found
      simp [hypothesis there]

theorem length_flatten_identifiers {levels : List LocatedType} {identifiers : List (List String)}
    (found : levels.mapM (fun level => context.typeIdentifiers level.definition) =
      .ok identifiers) :
    identifiers.flatten.length = (levels.flatMap fun level =>
      level.definition.attributesNamed
        context.configuration.annotations.typeIdentifiers).length := by
  induction levels generalizing identifiers with
  | nil =>
      obtain rfl := Except.ok.inj found
      rfl
  | cons level levels hypothesis =>
      obtain ⟨first, rest, here, there, rfl⟩ := Outcome.mapM_cons_eq_ok.mp found
      simp only [List.flatten_cons, List.length_append, List.flatMap_cons, hypothesis there,
        length_typeIdentifiers here]

theorem overrideFlags_and (flags mask : UInt32) :
    overrideFlags flags &&& mask =
      (flags &&& (~~~(MethodFlag.newSlot ||| MethodFlag.abstract) &&& mask)) |||
        ((MethodFlag.virtual ||| MethodFlag.hideBySig) &&& mask) := by
  have distrib : ∀ left right : UInt32,
      (left ||| right) &&& mask = (left &&& mask) ||| (right &&& mask) :=
    fun _ _ => UInt32.toBitVec_inj.mp BitVec.and_or_distrib_right
  rw [overrideFlags, distrib, distrib, distrib, UInt32.and_assoc, UInt32.or_assoc]

/-- An override has a receiver exactly if the declaration has one. -/
theorem isStatic_overrideFlags (flags : UInt32) :
    hasFlag (overrideFlags flags) MethodFlag.static = hasFlag flags MethodFlag.static := by
  have kept : ~~~(MethodFlag.newSlot ||| MethodFlag.abstract) &&& MethodFlag.static =
      MethodFlag.static := by decide
  have other : (MethodFlag.virtual ||| MethodFlag.hideBySig) &&& MethodFlag.static = 0 := by decide
  rw [hasFlag, overrideFlags_and, kept, other, UInt32.or_zero]
  rfl

/-- The declaration that a query overrides is a method of a base. -/
theorem queryDeclaration_spec {query : String} {levels : List LocatedType}
    {declaration : LocatedMethod}
    (found : levels.findSome? (queryDeclaration? query) = some declaration) :
    declaration.owner ∈ levels ∧
      declaration.owner.definition.methods[declaration.index]? = some declaration.definition ∧
      declaration.definition.name = query ∧ declaration.definition.isVirtual = true := by
  obtain ⟨level, member, declares⟩ := List.exists_of_findSome?_eq_some found
  obtain ⟨rfl, stored⟩ := LocatedType.mem_methods.mp (List.mem_of_find?_eq_some declares)
  have named := List.find?_some declares
  simp only [Bool.and_eq_true, decide_eq_true_eq] at named
  exact ⟨member, stored, named.1.1, named.2⟩

/-- An added query is sound if its code can be addressed, and it has the shape of what it overrides.
-/
theorem overrideQuery_sound (shaped : context.metadata.Shaped context.configuration.runtime)
    (located : context.targetType typeIndex = .ok type)
    (fits : 5 * context.identifierCount type + 6 < 2 ^ 64)
    (overridden : context.overrideQuery typeIndex = .ok edit) :
    ∀ change ∈ edit.edits, ∃ method, change = .addMethod method ∧ method.verify = .ok () ∧
      RuntimeShape context.configuration.runtime method := by
  rcases overrideQuery_eq_ok overridden with rfl | ⟨other, identifiers, declaration, wrapper,
    constructor, located', listed, declared, _, constructs, rfl⟩
  · simp [TypeEdit.none]
  rw [located] at located'
  obtain rfl := Except.ok.inj located'
  obtain ⟨member, stored, named, -⟩ := queryDeclaration_spec declared
  have start : context.metadata.Declares type.definition :=
    .inl (List.mem_of_getElem? (targetType_eq_ok.mp located).1)
  have shape := shaped _ (Metadata.declares_of_mem_chain start (List.mem_of_mem_tail member)) _
    (List.mem_of_getElem? stored)
  have returns := shape.typeQuery named
  have parameters := (Metadata.findMethod?_spec constructs).2.2
  simp only [Bool.and_eq_true, decide_eq_true_eq] at parameters
  have count := constructor.definition.length_parameterNames
  rw [parameters.2] at count
  intro change member
  obtain rfl := List.mem_singleton.mp member
  refine ⟨_, rfl, ?_, shape.of_eq named.symm (isStatic_overrideFlags _) ?_⟩
  · refine query_verify ?_ (constructor.length_parameters_methodRef.trans count.symm) ?_
    · simpa [MethodDef.shape, MethodDef.returnsValue] using returns
    · rw [length_flatten_identifiers listed]
      exact fits
  · simp [MethodDef.returnsValue]

end WeavingContext

end PropertyWeaver
