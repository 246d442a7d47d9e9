import PropertyWeaver.Proofs.Module.Reordering
import PropertyWeaver.Proofs.Weaving.Planning
import PropertyWeaver.Proofs.Weaving.Schedule

/-!
# The chain above a type

A base that a type of the target names is declared by the target or found elsewhere. If no module at
hand refers back to the target, the chain passes through local bases first and never returns. So targets
that agree in the local bases of a type give it the same chain.
-/

set_option autoImplicit false

namespace PropertyWeaver

/-- No type of a module at hand, but for one under the name itself, has a base in the module of a name.
A base without a scope is in the module that stores it. -/
def Resolver.Ignores (resolver : Resolver) (name : String) : Prop :=
  ∀ key module, resolver.find? key = some module → key ≠ name → ∀ type ∈ module.types,
    ∀ base ∈ type.base, ∀ reference ∈ base.typeRef?, reference.scope.getD module.name ≠ name

theorem Module.localBase?_of_own {module : Module} {index : Nat} {type : TypeDef} {base : TypeSig}
    {reference : TypeRef} (declared : module.types[index]? = some type)
    (derives : type.base = some base)
    (named : base.typeRef? = some reference) (own : reference.scope.getD module.name = module.name) :
    module.localBase? index = module.typeIndex? reference.fullName := by
  simp only [localBase?, declared, derives, named, Option.bind_eq_bind, Option.bind_some]
  split
  · rfl
  · next scope foreign =>
    rw [foreign, Option.getD_some] at own
    exact if_pos own

namespace Metadata

/-- A type of a module at hand that is found under another name than the target's. -/
def Foreign (metadata : Metadata) (type : LocatedType) : Prop :=
  ∃ key module, key ≠ metadata.target.name ∧ metadata.resolver.find? key = some module ∧
    type.definition ∈ module.types ∧ type.scope = some module.name

/-- The same surroundings of a target of the same name. -/
structure Neighbours (left right : Metadata) : Prop where
  name : right.target.name = left.target.name
  resolver : right.resolver = left.resolver
  coreModule : right.coreModule = left.coreModule

private theorem findType?_of_own {metadata : Metadata} {scope : Option String}
    (own : scope.getD metadata.target.name = metadata.target.name) (fullName : String) :
    metadata.findType? scope fullName =
      (metadata.target.type? fullName).map fun definition => ⟨definition, none⟩ := by
  rw [findType?_eq]
  cases scope with
  | none => rfl
  | some name =>
      rw [Option.getD_some] at own
      rw [module?, if_pos own, Option.bind_some]

/-- A signature that names a type of the target stands for it. -/
theorem resolveSig?_of_own {metadata : Metadata} {sig : TypeSig} {reference : TypeRef}
    (named : sig.typeRef? = some reference)
    (own : reference.scope.getD metadata.target.name = metadata.target.name) :
    metadata.resolveSig? none sig =
      ((metadata.target.typeIndex? reference.fullName).bind (metadata.target.types[·]?)).map
        fun definition => ⟨definition, none⟩ := by
  have origin : (reference.scope <|> none) = reference.scope := by cases reference.scope <;> rfl
  simp only [resolveSig?, named, resolve?, origin, findType?_of_own own, Module.type?_eq_bind]

theorem foreign_of_findType? {metadata : Metadata} {key fullName : String} {type : LocatedType}
    (apart : key ≠ metadata.target.name) (found : metadata.findType? (some key) fullName = some type) :
    metadata.Foreign type := by
  rw [findType?_eq, module?, if_neg apart] at found
  obtain ⟨_, means, found⟩ := Option.bind_eq_some_iff.mp found
  obtain ⟨module, stored, rfl⟩ := Option.map_eq_some_iff.mp means
  obtain ⟨definition, named, rfl⟩ := Option.map_eq_some_iff.mp found
  exact ⟨key, module, apart, stored, List.mem_of_find?_eq_some named, rfl⟩

namespace Neighbours

variable {left right : Metadata} (neighbours : left.Neighbours right)

include neighbours

private theorem findType?_of_foreign {key : String} (apart : key ≠ left.target.name)
    (fullName : String) :
    right.findType? (some key) fullName = left.findType? (some key) fullName := by
  have apart' : key ≠ right.target.name := neighbours.name ▸ apart
  rw [findType?_eq, findType?_eq, module?, module?, if_neg apart, if_neg apart', neighbours.resolver]

variable (core : left.coreModule ≠ left.target.name)

include core

private theorem resolveSig?_of_foreign {origin : Option String} {sig : TypeSig}
    (apart : ∀ reference ∈ sig.typeRef?, ∃ key, (reference.scope <|> origin) = some key ∧
      key ≠ left.target.name) :
    right.resolveSig? origin sig = left.resolveSig? origin sig ∧
      ∀ type, left.resolveSig? origin sig = some type → left.Foreign type := by
  unfold resolveSig?
  cases named : sig.typeRef? with
  | some reference =>
      obtain ⟨key, scope, different⟩ := apart reference named
      simp only [resolve?, scope]
      exact ⟨neighbours.findType?_of_foreign different _, fun type => foreign_of_findType? different⟩
  | none =>
      by_cases parameter : sig.isGenericParameter = true
      · simp [parameter]
      · simp only [parameter, neighbours.coreModule]
        exact ⟨neighbours.findType?_of_foreign core _, fun type => foreign_of_findType? core⟩

private theorem base?_of_foreign (ignored : left.resolver.Ignores left.target.name)
    {type : LocatedType} (foreign : left.Foreign type) :
    right.base? type = left.base? type ∧ ∀ base, left.base? type = some base → left.Foreign base := by
  obtain ⟨key, module, different, stored, declared, scope⟩ := foreign
  unfold base?
  cases derives : type.definition.base with
  | none => exact ⟨rfl, by simp⟩
  | some sig =>
      refine neighbours.resolveSig?_of_foreign core fun reference named => ?_
      refine ⟨reference.scope.getD module.name, ?_,
        ignored key module stored different type.definition declared sig derives reference named⟩
      rw [scope]
      cases reference.scope <;> rfl

/-- The base of a type of the target is foreign, or it is the type at the local base. -/
theorem base?_of_local {index : Nat} {definition : TypeDef}
    (declared : left.target.types[index]? = some definition)
    (indices : ∀ fullName, right.target.typeIndex? fullName = left.target.typeIndex? fullName)
    (same : ∀ base, left.target.localBase? index = some base →
      right.target.types[base]? = left.target.types[base]?) :
    right.base? ⟨definition, none⟩ = left.base? ⟨definition, none⟩ ∧
      ∀ type, left.base? ⟨definition, none⟩ = some type → left.Foreign type ∨
        ∃ base definition', left.target.localBase? index = some base ∧
          left.target.types[base]? = some definition' ∧ type = ⟨definition', none⟩ := by
  unfold base?
  cases derives : definition.base with
  | none => exact ⟨rfl, by simp⟩
  | some sig =>
      dsimp only [Option.bind_eq_bind, Option.bind_some]
      by_cases own : ∃ reference, sig.typeRef? = some reference ∧
        reference.scope.getD left.target.name = left.target.name
      · obtain ⟨reference, named, own⟩ := own
        have step := Module.localBase?_of_own declared derives named own
        have own' : reference.scope.getD right.target.name = right.target.name := by
          rwa [neighbours.name]
        rw [resolveSig?_of_own named own, resolveSig?_of_own named own', indices, ← step]
        cases found : left.target.localBase? index with
        | none => exact ⟨rfl, by simp⟩
        | some base =>
            rw [Option.bind_some, Option.bind_some, same base found]
            refine ⟨rfl, fun type located => .inr ?_⟩
            obtain ⟨definition', declared', rfl⟩ := Option.map_eq_some_iff.mp located
            exact ⟨base, definition', rfl, declared', rfl⟩
      · have apart : ∀ reference ∈ sig.typeRef?, ∃ key, (reference.scope <|> none) = some key ∧
            key ≠ left.target.name := by
          intro reference named
          cases scope : reference.scope with
          | none => exact absurd ⟨reference, named, by rw [scope, Option.getD_none]⟩ own
          | some key =>
              refine ⟨key, rfl, fun same => own ⟨reference, named, ?_⟩⟩
              rw [scope, Option.getD_some, same]
        obtain ⟨same, foreign⟩ := neighbours.resolveSig?_of_foreign core apart
        exact ⟨same, fun type found => .inl (foreign type found)⟩

/-- The chain above a type of the target depends on the types that it derives from. -/
theorem chain_of_local (ignored : left.resolver.Ignores left.target.name) {index : Nat}
    {definition : TypeDef} (declared : left.target.types[index]? = some definition)
    (count : right.target.types.length = left.target.types.length)
    (indices : ∀ fullName, right.target.typeIndex? fullName = left.target.typeIndex? fullName)
    (same : ∀ base, left.target.DerivesFrom index base →
      right.target.types[base]? = left.target.types[base]?) :
    right.chain ⟨definition, none⟩ = left.chain ⟨definition, none⟩ := by
  have total : right.typeCount = left.typeCount := by
    simp only [typeCount, neighbours.resolver, count]
  -- A level is foreign, or it is the type at an index that the walk along local bases reaches.
  refine chain_congr (fun type => left.Foreign type ∨ ∃ level definition',
      (level = index ∨ left.target.DerivesFrom index level) ∧
        left.target.types[level]? = some definition' ∧ type = ⟨definition', none⟩)
    total ?_ (.inr ⟨index, definition, .inl rfl, declared, rfl⟩)
  intro type here
  rcases here with foreign | ⟨level, definition', reached, declared', rfl⟩
  · obtain ⟨bases, next⟩ := neighbours.base?_of_foreign core ignored foreign
    exact ⟨bases, fun base found => .inl (next base found)⟩
  · have further : ∀ base, left.target.localBase? level = some base →
        left.target.DerivesFrom index base := by
      intro base found
      rcases reached with rfl | derives
      · exact .single found
      · exact derives.tail found
    obtain ⟨bases, next⟩ := neighbours.base?_of_local core declared' indices fun base found =>
      same base (further base found)
    refine ⟨bases, fun type found => (next type found).imp_right ?_⟩
    rintro ⟨base, next, step, there, rfl⟩
    exact ⟨base, next, .inr (further base step), there, rfl⟩

end Neighbours

end Metadata

end PropertyWeaver
