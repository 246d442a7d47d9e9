import Mathlib.Data.List.Nodup
import Mathlib.Data.List.Perm.Subperm
import PropertyWeaver.Proofs.Metadata.Lookup
import PropertyWeaver.Proofs.Storage.Loading

/-!
# Levels above a type

The levels above a type are the types that the chain reaches base by base. Every base is one of the types
of the target and the modules at hand, so levels that never come back come to an end before the bound of
the chain. A lookup of an inherited member then sees all of them, the most derived first.
-/

set_option autoImplicit false

namespace PropertyWeaver

namespace Metadata

variable {metadata : Metadata} {type level : LocatedType} {steps : Nat}

/-- The type that the chain above a type reaches after a number of bases. -/
def level? (metadata : Metadata) : (steps : Nat) → (type : LocatedType) → Option LocatedType
  | 0, type => some type
  | steps + 1, type => (metadata.base? type).bind (metadata.level? steps)

/-- The chain above a type is finite. -/
def Ends (metadata : Metadata) (type : LocatedType) : Prop :=
  ∃ steps, metadata.level? steps type = none

/-- No level above a type is one that was passed before. -/
def NeverReturns (metadata : Metadata) (type : LocatedType) : Prop :=
  ∀ earlier later level, earlier < later → metadata.level? earlier type = some level →
    metadata.level? later type ≠ some level

private theorem getElem?_chainUpTo {limit : Nat} (inside : steps ≤ limit) :
    (metadata.chainUpTo limit type)[steps]? = metadata.level? steps type := by
  induction steps generalizing limit type with
  | zero =>
      cases limit with
      | zero => rfl
      | succ limit =>
          rw [chainUpTo, level?]
          cases metadata.base? type <;> rfl
  | succ steps hypothesis =>
      obtain ⟨limit, rfl⟩ := Nat.exists_eq_add_of_le' (Nat.le_trans (Nat.le_add_left 1 steps) inside)
      rw [chainUpTo, level?]
      cases metadata.base? type with
      | none => rfl
      | some base => exact hypothesis (Nat.le_of_succ_le_succ inside)

private theorem length_chainUpTo_le (metadata : Metadata) (limit : Nat) (type : LocatedType) :
    (metadata.chainUpTo limit type).length ≤ limit + 1 := by
  induction limit generalizing type with
  | zero => exact Nat.le_refl 1
  | succ limit hypothesis =>
      rw [chainUpTo]
      cases metadata.base? type with
      | none => exact Nat.le_add_left 1 (limit + 1)
      | some base => exact Nat.succ_le_succ (hypothesis base)

private theorem level?_eq_none_of_le {later : Nat} (behind : steps ≤ later)
    (ended : metadata.level? steps type = none) : metadata.level? later type = none := by
  induction steps generalizing later type with
  | zero => cases ended
  | succ steps hypothesis =>
      obtain ⟨later, rfl⟩ := Nat.exists_eq_add_of_le' (Nat.le_trans (Nat.le_add_left 1 steps) behind)
      rw [level?] at ended ⊢
      cases found : metadata.base? type with
      | none => rfl
      | some base =>
          rw [found, Option.bind_some] at ended
          exact hypothesis (Nat.le_of_succ_le_succ behind) ended

/-! ## All types at hand -/

/-- The types of the target and of all modules at hand, each with the scope in which it is found. -/
def types (metadata : Metadata) : List LocatedType :=
  metadata.target.types.map (⟨·, none⟩) ++
    metadata.resolver.modules.flatMap fun (_, module) => module.types.map (⟨·, some module.name⟩)

private theorem length_types
    (metadata : Metadata) : metadata.types.length = metadata.typeCount := by
  simp [types, typeCount, List.length_flatMap]

private theorem mem_types_of_base? {base : LocatedType} (found : metadata.base? type = some base) :
    base ∈ metadata.types := by
  obtain ⟨sig, -, resolved⟩ := Option.bind_eq_some_iff.mp found
  obtain ⟨scope, fullName, located⟩ := exists_findType?_of_resolveSig? resolved
  obtain ⟨module, means, named⟩ := findType?_eq_some.mp located
  have declared := List.mem_of_find?_eq_some named
  obtain ⟨definition, scope'⟩ := base
  cases module?_cases means with
  | inl own =>
      obtain ⟨rfl, rfl⟩ := own
      exact List.mem_append_left _ (List.mem_map_of_mem declared)
  | inr foreign =>
      obtain ⟨name, -, -, stored, rfl⟩ := foreign
      exact List.mem_append_right _ (List.mem_flatMap.mpr
        ⟨(name, module), mem_of_lookup stored, List.mem_map_of_mem declared⟩)

private theorem mem_types_of_level? (reached : metadata.level? (steps + 1) type = some level) :
    level ∈ metadata.types := by
  induction steps generalizing type with
  | zero =>
      obtain ⟨base, found, same⟩ := Option.bind_eq_some_iff.mp reached
      obtain rfl := Option.some.inj same
      exact mem_types_of_base? found
  | succ steps hypothesis =>
      obtain ⟨base, -, above⟩ := Option.bind_eq_some_iff.mp reached
      exact hypothesis above

private theorem tail_chainUpTo_subset (metadata : Metadata) (limit : Nat) (type : LocatedType) :
    (metadata.chainUpTo limit type).tail ⊆ metadata.types := by
  intro level member
  obtain ⟨steps, listed⟩ := List.mem_iff_getElem?.mp member
  rw [List.getElem?_tail] at listed
  obtain ⟨inside, -⟩ := List.getElem?_eq_some_iff.mp listed
  have bound := metadata.length_chainUpTo_le limit type
  rw [getElem?_chainUpTo (by omega)] at listed
  exact mem_types_of_level? listed

/-! ## Levels that never come back -/

namespace NeverReturns

private theorem nodup_chainUpTo (never : metadata.NeverReturns type) (limit : Nat) :
    (metadata.chainUpTo limit type).Nodup := by
  rw [List.nodup_iff_getElem?_ne_getElem?]
  intro earlier later before inside same
  have bound := metadata.length_chainUpTo_le limit type
  have reached := List.getElem?_eq_getElem inside
  rw [getElem?_chainUpTo (by omega)] at reached
  rw [getElem?_chainUpTo (by omega), getElem?_chainUpTo (by omega)] at same
  exact never earlier later _ before (same.trans reached) reached

/-- The bases are different types, so there are no more of them than types. -/
theorem length_chainUpTo_le_typeCount (never : metadata.NeverReturns type) (limit : Nat) :
    (metadata.chainUpTo limit type).length ≤ metadata.typeCount + 1 := by
  have different := (never.nodup_chainUpTo limit).sublist (List.tail_sublist _)
  have fewer := (different.subperm (metadata.tail_chainUpTo_subset limit type)).length_le
  rw [List.length_tail, length_types] at fewer
  omega

private theorem level?_eq_none (never : metadata.NeverReturns type)
    (beyond : metadata.typeCount < steps) :
    metadata.level? steps type = none := by
  have bound := never.length_chainUpTo_le_typeCount steps
  rw [← getElem?_chainUpTo (Nat.le_refl steps)]
  exact List.getElem?_eq_none (by omega)

/-- The bound of the chain cuts no level off. -/
theorem getElem?_chain (never : metadata.NeverReturns type) (steps : Nat) :
    (metadata.chain type)[steps]? = metadata.level? steps type := by
  cases Nat.lt_or_ge metadata.typeCount steps with
  | inl beyond =>
      rw [never.level?_eq_none beyond]
      exact List.getElem?_eq_none (Nat.le_trans (never.length_chainUpTo_le_typeCount _) beyond)
  | inr within => exact getElem?_chainUpTo within

end NeverReturns

/-- Whether levels come back shows within the bound of the chain. -/
theorem neverReturns_iff :
    metadata.NeverReturns type ↔
      metadata.level? (metadata.typeCount + 1) type = none ∧ (metadata.chain type).Nodup := by
  constructor
  · intro never
    exact ⟨never.level?_eq_none (Nat.lt_succ_self _), never.nodup_chainUpTo metadata.typeCount⟩
  · intro passed earlier later level before reached returned
    obtain ⟨ended, different⟩ := passed
    have inside : later ≤ metadata.typeCount := by
      by_contra beyond
      cases returned.symm.trans (level?_eq_none_of_le (Nat.lt_of_not_le beyond) ended)
    have within := Nat.le_trans (Nat.le_of_lt before) inside
    rw [← getElem?_chainUpTo inside] at returned
    rw [← getElem?_chainUpTo within] at reached
    obtain ⟨listed, -⟩ := List.getElem?_eq_some_iff.mp returned
    exact List.nodup_iff_getElem?_ne_getElem?.mp different earlier later before listed
      (reached.trans returned.symm)

instance : Decidable (metadata.NeverReturns type) :=
  decidable_of_iff' _ neverReturns_iff

end Metadata

/-! ## Lookups on the levels -/

private theorem findSome?_eq_some_iff_getElem? {α β : Type} {items : List α} {f : α → Option β}
    {value : β} :
    items.findSome? f = some value ↔
      ∃ index : Nat, ∃ item, items[index]? = some item ∧ f item = some value ∧
        ∀ earlier < index, ∀ other ∈ items[earlier]?, f other = none := by
  rw [List.findSome?_eq_some_iff]
  constructor
  · intro first
    obtain ⟨front, item, back, rfl, gives, others⟩ := first
    refine ⟨front.length, item, by simp, gives, ?_⟩
    intro earlier before other there
    rw [List.getElem?_append_left before] at there
    exact others other (List.mem_of_getElem? there)
  · intro first
    obtain ⟨index, item, there, gives, others⟩ := first
    obtain ⟨inside, rfl⟩ := List.getElem?_eq_some_iff.mp there
    refine ⟨items.take index, items[index], items.drop (index + 1), ?_, gives, ?_⟩
    · rw [List.getElem_cons_drop, List.take_append_drop]
    · intro other member
      obtain ⟨earlier, before, rfl⟩ := List.mem_take_iff_getElem.mp member
      have ⟨nearer, listed⟩ := Nat.lt_min.mp before
      exact others earlier nearer _ (List.getElem?_eq_getElem listed)

namespace LocatedType

variable {type : LocatedType} {accepts : MethodDef → Bool} {matching : MethodDef → Prop}

def Lacks (type : LocatedType) (matching : MethodDef → Prop) : Prop :=
  ∀ method ∈ type.definition.methods, ¬ matching method

private theorem find?_methods_eq_none
    (decides : ∀ method, accepts method = true ↔ matching method) :
    (type.methods.find? fun method => accepts method.definition) = none ↔ type.Lacks matching := by
  rw [List.find?_eq_none]
  constructor
  · intro none method member
    obtain ⟨index, inside, rfl⟩ := List.mem_iff_getElem.mp member
    rw [← decides]
    exact none ⟨type, index, type.definition.methods[index]⟩
      (mem_methods.mpr ⟨rfl, List.getElem?_eq_getElem inside⟩)
  · intro lacks method member
    rw [decides]
    exact lacks method.definition (List.mem_of_getElem? (mem_methods.mp member).2)

private theorem find?_methods_eq_some {found : LocatedMethod}
    (decides : ∀ method, accepts method = true ↔ matching method) :
    (type.methods.find? fun method => accepts method.definition) = some found ↔
      found.owner = type ∧ type.definition.methods[found.index]? = some found.definition ∧
        matching found.definition ∧
        ∀ index < found.index, ∀ method ∈ type.definition.methods[index]?, ¬ matching method := by
  rw [List.find?_eq_some_iff_getElem, decides]
  simp only [methods, List.getElem_mapIdx, List.length_mapIdx]
  constructor
  · intro first
    obtain ⟨matched, index, inside, rfl, others⟩ := first
    refine ⟨rfl, List.getElem?_eq_getElem inside, matched, ?_⟩
    intro earlier before method there
    obtain ⟨_, rfl⟩ := List.getElem?_eq_some_iff.mp there
    rw [← decides]
    simpa using others earlier before
  · intro first
    obtain ⟨rfl, stored, matched, others⟩ := first
    obtain ⟨inside, same⟩ := List.getElem?_eq_some_iff.mp stored
    refine ⟨matched, found.index, inside, by rw [same], ?_⟩
    intro earlier before
    have other := others earlier before _ (List.getElem?_eq_getElem (Nat.lt_trans before inside))
    rw [← decides] at other
    simpa using other

end LocatedType

namespace Metadata

variable {metadata : Metadata} {type : LocatedType} {accepts : MethodDef → Bool}
  {matching : MethodDef → Prop}

/-- A method that is looked for, the first one on the first level that has one. -/
structure MostDerived (metadata : Metadata) (type : LocatedType) (matching : MethodDef → Prop)
    (found : LocatedMethod) : Prop where
  matched : matching found.definition
  stored : found.owner.definition.methods[found.index]? = some found.definition
  first : ∀ index < found.index, ∀ method ∈ found.owner.definition.methods[index]?, ¬ matching method
  level : ∃ steps, metadata.level? steps type = some found.owner ∧
    ∀ earlier < steps, ∀ level ∈ metadata.level? earlier type, level.Lacks matching

/-- A lookup that misses exactly if no level has a method that is looked for, and that otherwise finds
the most derived one. -/
structure PrefersMostDerived (metadata : Metadata) (type : LocatedType) (matching : MethodDef → Prop)
    (result : Option LocatedMethod) : Prop where
  none_iff : result = none ↔ ∀ steps, ∀ level ∈ metadata.level? steps type, level.Lacks matching
  some_iff : ∀ found, result = some found ↔ metadata.MostDerived type matching found

private theorem findMethod?_prefers
    (whole : ∀ steps, (metadata.chain type)[steps]? = metadata.level? steps type)
    (decides : ∀ method, accepts method = true ↔ matching method) :
    metadata.PrefersMostDerived type matching (metadata.findMethod? type accepts) where
  none_iff := by
    rw [findMethod?, List.find?_flatMap, List.findSome?_eq_none_iff]
    simp only [LocatedType.find?_methods_eq_none decides, ← whole]
    constructor
    · intro lacks steps level there
      exact lacks level (List.mem_of_getElem? there)
    · intro lacks level member
      obtain ⟨steps, there⟩ := List.mem_iff_getElem?.mp member
      exact lacks steps level there
  some_iff := by
    intro found
    rw [findMethod?, List.find?_flatMap, findSome?_eq_some_iff_getElem?]
    simp only [LocatedType.find?_methods_eq_none decides, LocatedType.find?_methods_eq_some decides,
      whole]
    constructor
    · intro located
      obtain ⟨steps, level, reached, ⟨rfl, stored, matched, first⟩, lacks⟩ := located
      exact ⟨matched, stored, first, steps, reached, lacks⟩
    · intro located
      obtain ⟨matched, stored, first, steps, reached, lacks⟩ := located
      exact ⟨steps, found.owner, reached, ⟨rfl, stored, matched, first⟩, lacks⟩

end Metadata

/-- A parameter goes with an argument: it is a generic parameter of the same name, or both have the same
element type by name. -/
def TypeSig.GoesWith (parameter argument : TypeSig) : Prop :=
  parameter.isGenericParameter = true ∧ parameter.fullName = argument.fullName ∨
    parameter.elementType.fullName = argument.elementType.fullName

private theorem TypeSig.accepts_iff {parameter argument : TypeSig} :
    parameter.accepts argument = true ↔ parameter.GoesWith argument := by
  simp [accepts, GoesWith]

namespace Metadata

/-- Levels that never come back end after as many steps as there are types, at most, and all of them are
on the chain, each once. An inherited method or a constructor is then missed only if no level has one
that matches, and otherwise found on the most derived level that has one, at the smallest index there. -/
theorem inherited_lookups (metadata : Metadata) (type : LocatedType)
    (never : metadata.NeverReturns type) :
    (∀ steps, (metadata.chain type)[steps]? = metadata.level? steps type) ∧
    (∀ steps, metadata.typeCount < steps → metadata.level? steps type = none) ∧
    (metadata.chain type).Nodup ∧
    (type ∈ metadata.types → (metadata.chain type).length ≤ metadata.typeCount) ∧
    (∀ name parameters, metadata.PrefersMostDerived type
      (fun method => method.name = name ∧ method.parameterNames = parameters)
      (metadata.inheritedMethod? type name parameters)) ∧
    (∀ name arguments, metadata.PrefersMostDerived type
      (fun method => method.name = name ∧
        List.Forall₂ TypeSig.GoesWith method.parameterTypes arguments)
      (metadata.inheritedGenericMethod? type name arguments)) ∧
    (∀ parameters, metadata.PrefersMostDerived type
      (fun method => method.name = MethodDef.constructorName ∧ method.isStatic = false ∧
        method.parameterNames = parameters)
      (metadata.constructor? type parameters)) := by
  have whole := never.getElem?_chain
  refine ⟨whole, fun _ => never.level?_eq_none, never.nodup_chainUpTo _, ?_, ?_, ?_, ?_⟩
  · intro known
    obtain ⟨bases, same⟩ := metadata.chain_eq_cons type
    have above : bases ⊆ metadata.types := by
      have tail := metadata.tail_chainUpTo_subset metadata.typeCount type
      rwa [← chain, same] at tail
    have different := never.nodup_chainUpTo metadata.typeCount
    rw [← chain, same] at different
    rw [same, ← length_types]
    exact (different.subperm (List.cons_subset.mpr ⟨known, above⟩)).length_le
  · intro name parameters
    exact findMethod?_prefers whole fun method => by simp
  · intro name arguments
    apply findMethod?_prefers whole
    intro method
    rw [List.forall₂_iff_zip]
    simp [TypeSig.accepts_iff, MethodDef.parameterTypes, and_assoc]
  · intro parameters
    exact findMethod?_prefers whole fun method => by simp [MethodDef.isConstructor, and_assoc]

end Metadata

/-! A type whose base lives in another module and has the built-in root type as its base. -/

def lookupType (name : String) (base : Option TypeSig) (methods : List (String × TypeSig)) : TypeDef :=
  ⟨"System", name, 0, base, [], [], methods.map fun (method, parameter) =>
    ⟨method, MethodFlag.publicAccess, .builtin .void, [⟨"value", parameter⟩], [], [], none⟩, [], []⟩

def noteType : LocatedType :=
  ⟨lookupType "Note" (some (.classType ⟨some "Lib", "System", "Draft"⟩))
    [("Load", .builtin .string), ("Store", .builtin .string)], none⟩

def draftType : LocatedType :=
  ⟨lookupType "Draft" (some (.builtin .object))
    [("Store", .builtin .string), ("Store", .typeParameter "T")], some "Lib"⟩

def objectType : LocatedType :=
  ⟨lookupType "Object" none [(MethodDef.constructorName, .builtin .string)], some "Core"⟩

def threeModules : Metadata where
  target := { (default : Module) with name := "App", types := [noteType.definition] }
  resolver :=
    (Resolver.empty.register
      { (default : Module) with name := "Lib", types := [draftType.definition] }).register
      { (default : Module) with name := "Core", types := [objectType.definition] }
  coreModule := "Core"

theorem inherited_lookups_threeModules :
    threeModules.NeverReturns noteType ∧
      threeModules.chain noteType = [noteType, draftType, objectType] ∧
      threeModules.MostDerived noteType
        (fun method => method.name = "Store" ∧ method.parameterNames = ["System.String"])
        ⟨noteType, 1, noteType.definition.methods[1]⟩ ∧
      threeModules.MostDerived noteType
        (fun method => method.name = "Store" ∧
          List.Forall₂ TypeSig.GoesWith method.parameterTypes [.typeParameter "T"])
        ⟨draftType, 1, draftType.definition.methods[1]⟩ ∧
      threeModules.MostDerived noteType
        (fun method => method.name = MethodDef.constructorName ∧ method.isStatic = false ∧
          method.parameterNames = ["System.String"])
        ⟨objectType, 0, objectType.definition.methods[0]⟩ := by
  have never : threeModules.NeverReturns noteType := by decide
  obtain ⟨-, -, -, -, methods, generics, constructors⟩ :=
    Metadata.inherited_lookups threeModules noteType never
  refine ⟨never, by decide, ?_, ?_, ?_⟩
  · exact ((methods "Store" ["System.String"]).some_iff _).mp (by decide)
  · exact ((generics "Store" [.typeParameter "T"]).some_iff _).mp (by decide)
  · exact ((constructors ["System.String"]).some_iff _).mp (by decide)

end PropertyWeaver
