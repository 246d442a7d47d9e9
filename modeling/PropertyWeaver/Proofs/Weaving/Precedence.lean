import PropertyWeaver.Proofs.Metadata.Levels
import PropertyWeaver.Proofs.Weaving.Ancestry

/-!
# Bases before derived types

The order of visits follows local bases, while the chain above a type goes wherever a base is found. The
two agree as long as the chain stays in the target and each type names its base by a reference. A chain
that leads through another module back to the target, or that reaches it by a built-in type, passes types
that the order of visits knows nothing about.
-/

set_option autoImplicit false

namespace PropertyWeaver

namespace Metadata

variable {metadata : Metadata} {type ancestor : LocatedType} {derived steps : Nat}

/-- One of the target's own types, whose base is not a built-in type. -/
structure NamesBase (type : LocatedType) : Prop where
  own : type.isLocal = true
  named : ∀ base ∈ type.definition.base, base.typeRef?.isSome = true

/-! ## Local bases on the chain -/

variable {base : Nat}

private theorem base?_of_localBase? (found : metadata.targetType? derived = some type)
    (step : metadata.target.localBase? derived = some base) :
    metadata.base? type = metadata.targetType? base := by
  obtain ⟨definition, declared, rfl⟩ := Option.map_eq_some_iff.mp found
  simp only [Module.localBase?, declared, Option.bind_eq_bind, Option.bind_some,
    Option.bind_eq_some_iff] at step
  obtain ⟨sig, derives, reference, named, step⟩ := step
  have own : reference.scope.getD metadata.target.name = metadata.target.name ∧
      metadata.target.typeIndex? reference.fullName = some base := by
    split at step
    · next scope => exact ⟨by rw [scope, Option.getD_none], step⟩
    · next scope =>
      obtain ⟨same, step⟩ := Option.ite_none_right_eq_some.mp step
      exact ⟨by rw [scope, Option.getD_some, same], step⟩
  rw [base?, derives, Option.bind_eq_bind, Option.bind_some, resolveSig?_of_own named own.1, own.2,
    Option.bind_some, targetType?]

private theorem localBase?_of_base? (found : metadata.targetType? derived = some type)
    (names : NamesBase type) (step : metadata.base? type = some ancestor)
    (own : ancestor.isLocal = true) :
    ∃ base, metadata.target.localBase? derived = some base ∧
      metadata.target.typeIndex? ancestor.fullName = some base ∧
      metadata.targetType? base = some ancestor := by
  obtain ⟨definition, declared, rfl⟩ := Option.map_eq_some_iff.mp found
  obtain ⟨sig, derives, step⟩ := Option.bind_eq_some_iff.mp step
  obtain ⟨reference, named⟩ := Option.isSome_iff_exists.mp (names.named sig derives)
  by_cases here : reference.scope.getD metadata.target.name = metadata.target.name
  · rw [Module.localBase?_of_own declared derives named here]
    rw [resolveSig?_of_own named here] at step
    obtain ⟨definition', located, rfl⟩ := Option.map_eq_some_iff.mp step
    obtain ⟨base, indexed, declared'⟩ := Option.bind_eq_some_iff.mp located
    obtain ⟨_, same, -⟩ := List.findIdx?_eq_some_iff_getElem.mp indexed
    obtain ⟨_, there⟩ := List.getElem?_eq_some_iff.mp declared'
    have fullName : definition'.fullName = reference.fullName := there ▸ of_decide_eq_true same
    exact ⟨base, indexed, by rw [LocatedType.fullName, fullName, indexed],
      by rw [targetType?, declared', Option.map_some]⟩
  · cases scope : reference.scope with
    | none => exact absurd (by rw [scope, Option.getD_none]) here
    | some key =>
        rw [scope, Option.getD_some] at here
        simp only [resolveSig?, named, resolve?, scope] at step
        obtain ⟨-, _, -, -, -, foreign⟩ := foreign_of_findType? here step
        rw [LocatedType.isLocal, foreign] at own
        cases own

private theorem level?_of_ancestor? (found : metadata.targetType? derived = some type)
    (reached : metadata.target.ancestor? steps derived = some base) :
    metadata.level? steps type = metadata.targetType? base := by
  induction steps generalizing derived type with
  | zero =>
      obtain rfl := Option.some.inj reached
      exact found.symm
  | succ steps hypothesis =>
      obtain ⟨next, step, rest⟩ := Option.bind_eq_some_iff.mp reached
      have inside := (Module.localBase?_lt step).2
      have located : metadata.targetType? next = some ⟨metadata.target.types[next], none⟩ := by
        rw [targetType?, List.getElem?_eq_getElem inside, Option.map_some]
      rw [level?, base?_of_localBase? found step, located, Option.bind_some]
      exact hypothesis located rest

private theorem Ends.ancestor?_eq_none (ends : metadata.Ends type)
    (found : metadata.targetType? derived = some type) :
    metadata.target.ancestor? metadata.target.types.length derived = none := by
  obtain ⟨steps, ended⟩ := ends
  obtain ⟨_, declared, -⟩ := Option.map_eq_some_iff.mp found
  have inside := (List.getElem?_eq_some_iff.mp declared).1
  suffices local' : metadata.target.ancestor? steps derived = none from
    Module.ancestor?_length inside local'
  by_contra further
  obtain ⟨base, reached⟩ := Option.ne_none_iff_exists'.mp further
  have level := level?_of_ancestor? found reached
  rw [ended, targetType?, List.getElem?_eq_getElem (Module.ancestor?_lt inside reached)] at level
  cases level

/-- A chain that stays in the target follows local bases. -/
theorem derivesFrom_of_level? (found : metadata.targetType? derived = some type)
    (reached : metadata.level? (steps + 1) type = some ancestor) (own : ancestor.isLocal = true)
    (names : ∀ earlier ≤ steps, ∀ level ∈ metadata.level? earlier type, NamesBase level) :
    ∃ base, metadata.target.DerivesFrom derived base ∧
      metadata.target.typeIndex? ancestor.fullName = some base ∧
      metadata.targetType? base = some ancestor := by
  induction steps generalizing derived type with
  | zero =>
      obtain ⟨next, step, rest⟩ := Option.bind_eq_some_iff.mp reached
      obtain rfl := Option.some.inj rest
      obtain ⟨base, local', placed⟩ :=
        localBase?_of_base? found (names 0 (Nat.le_refl 0) type rfl) step own
      exact ⟨base, .single local', placed⟩
  | succ steps hypothesis =>
      obtain ⟨next, step, rest⟩ := Option.bind_eq_some_iff.mp reached
      have above : ∀ earlier, metadata.level? (earlier + 1) type = metadata.level? earlier next := by
        intro earlier
        rw [level?, step, Option.bind_some]
      have nextNames : NamesBase next := names 1 (by omega) next (above 0)
      obtain ⟨base, local', -, located⟩ :=
        localBase?_of_base? found (names 0 (Nat.zero_le _) type rfl) step nextNames.own
      obtain ⟨last, derives, placed⟩ := hypothesis located rest fun earlier le level here =>
        names (earlier + 1) (Nat.succ_le_succ le) level ((above earlier).trans here)
      exact ⟨last, .head local' derives, placed⟩

end Metadata

theorem Module.idxOf_baseFirstOrder_lt {module : Module} {derived base : Nat}
    (inside : base < module.types.length)
    (deeper : module.baseDepth base < module.baseDepth derived) :
    module.baseFirstOrder.idxOf base < module.baseFirstOrder.idxOf derived := by
  by_contra behind
  have placed := List.idxOf_lt_length_of_mem (mem_baseFirstOrder.mpr inside)
  have le : module.baseFirstOrder.idxOf derived ≤ module.baseFirstOrder.idxOf base := not_lt.mp behind
  rcases Nat.lt_or_eq_of_le le with before | same
  · have sorted := List.pairwise_iff_getElem.mp module.pairwise_baseFirstOrder _ _
      (Nat.lt_trans before placed) placed before
    rw [List.getElem_idxOf, List.getElem_idxOf] at sorted
    omega
  · have equal : base = derived := (List.idxOf_inj (mem_baseFirstOrder.mpr inside)).mp same.symm
    rw [equal] at deeper
    exact Nat.lt_irrefl _ deeper

/-- If the chain above a type is finite, every type of the target on it is visited before that type, as
long as the chain reaches it through types of the target that name their bases. -/
theorem Metadata.visited_before_derived {metadata : Metadata} {type ancestor : LocatedType}
    {derived steps : Nat} (found : metadata.targetType? derived = some type)
    (ends : metadata.Ends type)
    (reached : metadata.level? (steps + 1) type = some ancestor) (own : ancestor.isLocal = true)
    (names : ∀ earlier ≤ steps, ∀ level ∈ metadata.level? earlier type, NamesBase level) :
    ∃ base, metadata.target.typeIndex? ancestor.fullName = some base ∧
      metadata.targetType? base = some ancestor ∧ base ≠ derived ∧
      metadata.target.baseFirstOrder.idxOf base < metadata.target.baseFirstOrder.idxOf derived := by
  obtain ⟨base, derives, indexed, located⟩ := derivesFrom_of_level? found reached own names
  have deeper := Module.baseDepth_lt (ends.ancestor?_eq_none found) derives
  refine ⟨base, indexed, located, ?_,
    Module.idxOf_baseFirstOrder_lt (Module.typeIndex?_lt indexed) deeper⟩
  rintro rfl
  exact Nat.lt_irrefl _ deeper

/-! A type that derives from one declared behind it: through a type of the same module, through one of
another module, and by the built-in type that the core module declares. -/

def derivedType (name : String) (base : Option TypeSig) : TypeDef :=
  ⟨"Demo", name, 0, base, [], [], [], [], []⟩

def layers : Metadata where
  target := Module.sample "App"
    [derivedType "Derived" (some (.classType ⟨none, "Demo", "Middle"⟩)),
     derivedType "Middle" (some (.classType ⟨some "App", "Demo", "Root"⟩)),
     derivedType "Root" none]
  resolver := .empty
  coreModule := "System.Runtime"

def returning : Metadata where
  target := Module.sample "App"
    [derivedType "Derived" (some (.classType ⟨some "Lib", "Demo", "Middle"⟩)),
     derivedType "Root" none]
  resolver := Resolver.empty.register (Module.sample "Lib"
    [derivedType "Middle" (some (.classType ⟨some "App", "Demo", "Root"⟩))])
  coreModule := "System.Runtime"

def builtinBase : Metadata where
  target := Module.sample "System.Runtime"
    [derivedType "Derived" (some (.builtin .object)), ⟨"System", "Object", 0, none, [], [], [], [], []⟩]
  resolver := .empty
  coreModule := "System.Runtime"

theorem visited_before_derived_layers :
    layers.Ends ⟨layers.target.types[0], none⟩ ∧
      layers.level? 2 ⟨layers.target.types[0], none⟩ = some ⟨layers.target.types[2], none⟩ ∧
      ∃ base, layers.target.typeIndex? "Demo.Root" = some base ∧ base ≠ 0 ∧
        layers.target.baseFirstOrder.idxOf base < layers.target.baseFirstOrder.idxOf 0 := by
  have found : layers.targetType? 0 = some ⟨layers.target.types[0], none⟩ := rfl
  have ends : layers.Ends ⟨layers.target.types[0], none⟩ := ⟨3, by decide⟩
  have reached : layers.level? 2 ⟨layers.target.types[0], none⟩ =
      some ⟨layers.target.types[2], none⟩ := by decide
  have names : ∀ earlier ≤ 1, ∀ level ∈ layers.level? earlier ⟨layers.target.types[0], none⟩,
      Metadata.NamesBase level := by
    intro earlier le level here
    obtain rfl | rfl := Nat.le_one_iff_eq_zero_or_eq_one.mp le
    · obtain rfl := Option.some.inj here
      exact ⟨rfl, by decide⟩
    · have middle : layers.level? 1 ⟨layers.target.types[0], none⟩ =
          some ⟨layers.target.types[1], none⟩ := by decide
      obtain rfl := Option.some.inj (middle.symm.trans here)
      exact ⟨rfl, by decide⟩
  obtain ⟨base, indexed, -, different, before⟩ :=
    Metadata.visited_before_derived found ends reached rfl names
  exact ⟨ends, reached, base, indexed, different, before⟩

/-- Every type of the target on a finite chain is visited before the type at its start. -/
def Metadata.VisitsBasesFirst (metadata : Metadata) : Prop :=
  ∀ (type ancestor : LocatedType) (derived base steps : Nat),
    metadata.targetType? derived = some type → metadata.Ends type →
    metadata.level? steps type = some ancestor → metadata.targetType? base = some ancestor →
    base ≠ derived →
    metadata.target.baseFirstOrder.idxOf base < metadata.target.baseFirstOrder.idxOf derived

theorem visits_derived_before_base :
    ¬ returning.VisitsBasesFirst ∧ ¬ builtinBase.VisitsBasesFirst := by
  constructor
  · intro visits
    have order : returning.target.baseFirstOrder = [0, 1] := List.mergeSort_of_pairwise (by decide)
    have before := visits ⟨returning.target.types[0], none⟩ ⟨returning.target.types[1], none⟩ 0 1 2
      rfl ⟨3, by decide⟩ (by decide) rfl (by decide)
    rw [order] at before
    exact absurd before (by decide)
  · intro visits
    have order : builtinBase.target.baseFirstOrder = [0, 1] :=
      List.mergeSort_of_pairwise (by decide)
    have before := visits ⟨builtinBase.target.types[0], none⟩ ⟨builtinBase.target.types[1], none⟩ 0 1 1
      rfl ⟨2, by decide⟩ (by decide) rfl (by decide)
    rw [order] at before
    exact absurd before (by decide)

end PropertyWeaver
