import PropertyWeaver.Proofs.Metadata.Extension
import PropertyWeaver.Proofs.Storage.Loading

/-!
# References that resolve

A reference resolves if its declaring type is found from the target and declares the method. A type that
has been found can be found again by its signature, provided that every module is stored under its own
name, and the types of the target can as long as their names differ.
-/

set_option autoImplicit false

namespace PropertyWeaver

/-- Every module is stored under its own name. -/
def Resolver.OwnNames (resolver : Resolver) : Prop :=
  ∀ name module, resolver.find? name = some module → module.name = name

namespace Resolver

theorem ownNames_empty : empty.OwnNames := by
  intro name module found
  cases found

theorem OwnNames.register {resolver : Resolver} (names : resolver.OwnNames) (module : Module) :
    (resolver.register module).OwnNames := by
  intro name stored found
  rw [Resolver.register, find?_insert] at found
  split at found
  · next same =>
    obtain rfl := Option.some.inj found
    exact same.symm
  · exact names name stored found

end Resolver

/-- A method as a reference describes it: its name, whether it has a receiver, and the full names of its
parameters. -/
def MethodDef.Matches (method : MethodDef) (member : MethodRef) : Prop :=
  method.name = member.name ∧ method.isStatic = !member.hasThis ∧
    method.parameterNames = member.parameters.map TypeSig.fullName

/-- Whether a type declares an instance constructor with parameters of the given full names. -/
def TypeDef.Constructs (type : TypeDef) (parameters : List String) : Prop :=
  ∃ method ∈ type.methods, method.isConstructor = true ∧ method.parameterNames = parameters

namespace Metadata

/-- A type that is found by its own signature. -/
def Finds (metadata : Metadata) (type : LocatedType) : Prop :=
  metadata.resolveSig? none type.sig = some type

/-- A reference whose declaring type, seen from the target, declares a method of its description. -/
def Resolves (metadata : Metadata) (member : MethodRef) : Prop :=
  ∃ owner, metadata.resolveSig? none member.declaringType = some owner ∧
    ∃ method ∈ owner.definition.methods, method.Matches member

variable {metadata before after : Metadata} {type : LocatedType}

theorem resolveSig?_of_typeRef? {sig : TypeSig} (names : sig.typeRef? = some type.typeRef) :
    metadata.resolveSig? none sig = metadata.findType? type.scope type.fullName := by
  unfold resolveSig?
  rw [names]
  change metadata.findType? (type.scope <|> none) type.fullName = _
  cases type.scope <;> rfl

theorem typeRef?_sig (type : LocatedType) : type.sig.typeRef? = some type.typeRef := by
  unfold LocatedType.sig
  dsimp only
  split
  · rfl
  · split <;> rfl

theorem finds_iff : metadata.Finds type ↔ metadata.findType? type.scope type.fullName = some type := by
  rw [Finds, resolveSig?_of_typeRef? (typeRef?_sig type)]

/-- A type that has been found by name is found again. -/
theorem finds_of_findType? (names : metadata.resolver.OwnNames) {scope : Option String}
    {fullName : String} (found : metadata.findType? scope fullName = some type) :
    metadata.Finds type := by
  have name := fullName_of_findType? found
  obtain ⟨module, means, named⟩ := findType?_eq_some.mp found
  rw [finds_iff, findType?_eq_some]
  refine ⟨module, ?_, name.symm ▸ named⟩
  cases module?_cases means with
  | inl own =>
      obtain ⟨rfl, scope⟩ := own
      rw [scope]
      rfl
  | inr foreign =>
      obtain ⟨asked, -, other, stored, scope⟩ := foreign
      have own := names asked module stored
      simp [scope, module?, own, other, stored]

theorem finds_of_resolveSig? (names : metadata.resolver.OwnNames) {origin : Option String}
    {sig : TypeSig} (found : metadata.resolveSig? origin sig = some type) : metadata.Finds type := by
  obtain ⟨scope, fullName, named⟩ := exists_findType?_of_resolveSig? found
  exact finds_of_findType? names named

private theorem finds_of_mem_chain (names : metadata.resolver.OwnNames) {level : LocatedType}
    (start : metadata.Finds type) (member : level ∈ metadata.chain type) : metadata.Finds level := by
  refine mem_chain_induction start (fun type base found => ?_) member
  obtain ⟨sig, _, resolved⟩ := Option.bind_eq_some_iff.mp found
  exact fun _ => finds_of_resolveSig? names resolved

/-- A type of the target is found by its name if no other one bears it. -/
theorem finds_of_targetType? {index : Nat}
    (distinct : (metadata.target.types.map TypeDef.fullName).Nodup)
    (found : metadata.targetType? index = some type) : metadata.Finds type := by
  obtain ⟨definition, stored, rfl⟩ := Option.map_eq_some_iff.mp found
  have first : ∀ {types : List TypeDef} {index : Nat}, (types.map TypeDef.fullName).Nodup →
      types[index]? = some definition →
      types.find? (fun type => type.fullName = definition.fullName) = some definition := by
    intro types
    induction types with
    | nil => intro index _ stored; cases stored
    | cons type types hypothesis =>
        intro index distinct stored
        obtain ⟨fresh, distinct⟩ := List.nodup_cons.mp distinct
        cases index with
        | zero =>
            obtain rfl := Option.some.inj stored
            simp
        | succ index =>
            have other : type.fullName ≠ definition.fullName := fun same => fresh
              (same ▸ List.mem_map_of_mem (List.mem_of_getElem? stored))
            simpa [other] using hypothesis distinct stored
  rw [finds_iff, findType?_eq]
  change ((metadata.target.type? definition.fullName).map fun definition => (⟨definition, none⟩ :
    LocatedType)) = _
  rw [Module.type?, first distinct stored]
  rfl

/-! ## Methods that have been found -/

private theorem resolves_of_finds {method : LocatedMethod} (finds : metadata.Finds method.owner)
    (listed : method.owner.definition.methods[method.index]? = some method.definition)
    (arguments : List TypeSig) : metadata.Resolves (method.instantiate arguments) :=
  ⟨method.owner, finds, method.definition, List.mem_of_getElem? listed, rfl, by
    simp [LocatedMethod.instantiate, LocatedMethod.methodRef],
    method.fullNames_parameters_methodRef.symm⟩

theorem resolves_of_findMethod? (names : metadata.resolver.OwnNames) (start : metadata.Finds type)
    {accepts : MethodDef → Bool} {method : LocatedMethod}
    (found : metadata.findMethod? type accepts = some method) (arguments : List TypeSig) :
    metadata.Resolves (method.instantiate arguments) := by
  obtain ⟨member, listed, -⟩ := findMethod?_spec found
  exact resolves_of_finds (finds_of_mem_chain names start member) listed arguments

theorem resolves_of_equality? (names : metadata.resolver.OwnNames) {valueType : TypeSig}
    {equals rootObject : String} {member : MethodRef}
    (found : metadata.equality? valueType equals rootObject = some (.method member)) :
    metadata.Resolves member := by
  obtain ⟨method, typeName, rfl, located, listed, -⟩ := equality?_located found
  refine resolves_of_finds ?_ listed []
  rcases located with resolved | named
  · exact finds_of_resolveSig? names resolved
  · exact finds_of_findType? names named

/-- A method that the type itself declares comes before those of its bases. -/
theorem owner_of_findMethod? {accepts : MethodDef → Bool} {method : LocatedMethod}
    (found : metadata.findMethod? type accepts = some method)
    (own : ∃ method ∈ type.definition.methods, accepts method = true) : method.owner = type := by
  obtain ⟨levels, chain⟩ := metadata.chain_eq_cons type
  obtain ⟨declared, member, accepted⟩ := own
  obtain ⟨index, listed⟩ := List.mem_iff_getElem?.mp member
  have present : ((type.methods.find? fun method => accepts method.definition).isSome) = true := by
    refine List.find?_isSome.mpr ⟨⟨type, index, declared⟩, ?_, accepted⟩
    exact LocatedType.mem_methods.mpr ⟨rfl, listed⟩
  rw [findMethod?, chain, List.flatMap_cons, List.find?_append] at found
  obtain ⟨first, here⟩ := Option.isSome_iff_exists.mp present
  rw [here, Option.some_or] at found
  obtain rfl := Option.some.inj found
  exact (LocatedType.mem_methods.mp (List.mem_of_find?_eq_some here)).1

/-! ## References under extension -/

theorem Resolves.mono (extended : before.Extends after) {member : MethodRef}
    (resolves : before.Resolves member) : after.Resolves member := by
  obtain ⟨owner, found, method, declared, named, static, parameters⟩ := resolves
  obtain ⟨owner', found', owners⟩ := exists_of_rel (extended.resolveSig? none _) found
  obtain ⟨method', declared', header⟩ := owners.definition.exists_method declared
  refine ⟨owner', found', method', declared', ?_, ?_, ?_⟩
  · exact (MethodDef.eq_of_header header MethodDef.name fun _ => rfl).trans named
  · exact (MethodDef.eq_of_header header MethodDef.isStatic fun _ => rfl).trans static
  · exact (MethodDef.eq_of_header header MethodDef.parameterNames fun _ => rfl).trans parameters

end Metadata

end PropertyWeaver
