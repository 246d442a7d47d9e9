import Mathlib.Data.Fintype.Pigeonhole
import Mathlib.Logic.Relation
import PropertyWeaver.Proofs.Module.Reordering
import PropertyWeaver.Proofs.Weaving.Visits

/-!
# The order of visits

A type is visited behind all types of its module that it derives from. Unless the bases run in circles,
a walk along them ends within the number of types. So the depth by which types are sorted is the length
of the whole walk, and it grows with every step from a base to a type that derives from it.
-/

set_option autoImplicit false

namespace PropertyWeaver.Module

variable {module : Module} {limit index derived base : Nat}

/-- The type that a walk along local bases reaches after a number of steps. -/
def ancestor? (module : Module) : (steps : Nat) → (index : Nat) → Option Nat
  | 0, index => some index
  | steps + 1, index => (module.localBase? index).bind (module.ancestor? steps)

/-- A type has another one of its module as its base, or as a base of its base, and so on. -/
def DerivesFrom (module : Module) (derived base : Nat) : Prop :=
  Relation.TransGen (fun derived base => module.localBase? derived = some base) derived base

/-- No type derives from itself. -/
def Acyclic (module : Module) : Prop :=
  ∀ index, ¬ module.DerivesFrom index index

theorem typeIndex?_lt {fullName : String} (found : module.typeIndex? fullName = some index) :
    index < module.types.length := by
  obtain ⟨inside, -⟩ := List.findIdx?_eq_some_iff_getElem.mp found
  exact inside

theorem localBase?_lt (found : module.localBase? derived = some base) :
    derived < module.types.length ∧ base < module.types.length := by
  simp only [localBase?, Option.bind_eq_bind, Option.bind_eq_some_iff] at found
  obtain ⟨type, declared, sig, -, reference, -, found⟩ := found
  refine ⟨(List.getElem?_eq_some_iff.mp declared).1, ?_⟩
  split at found
  · exact typeIndex?_lt found
  · split at found
    · exact typeIndex?_lt found
    · cases found

/-! ## Walks -/

private theorem ancestor?_add (first second index : Nat) :
    module.ancestor? (first + second) index =
      (module.ancestor? first index).bind (module.ancestor? second) := by
  induction first generalizing index with
  | zero => rw [Nat.zero_add, ancestor?, Option.bind_some]
  | succ first hypothesis =>
      rw [Nat.add_right_comm, ancestor?, ancestor?, Option.bind_assoc]
      exact congrArg _ (funext hypothesis)

theorem ancestor?_lt {steps : Nat} (inside : index < module.types.length)
    (reached : module.ancestor? steps index = some base) : base < module.types.length := by
  induction steps generalizing index with
  | zero =>
      obtain rfl := Option.some.inj reached
      exact inside
  | succ steps hypothesis =>
      obtain ⟨next, found, rest⟩ := Option.bind_eq_some_iff.mp reached
      exact hypothesis (localBase?_lt found).2 rest

private theorem ancestor?_of_le {steps : Nat} (ended : module.ancestor? steps index = none)
    (longer : steps ≤ limit) : module.ancestor? limit index = none := by
  obtain ⟨rest, rfl⟩ := Nat.exists_eq_add_of_le longer
  rw [ancestor?_add, ended, Option.bind_none]

theorem derivesFrom_iff :
    module.DerivesFrom derived base ↔ ∃ steps, module.ancestor? (steps + 1) derived = some base := by
  constructor
  · intro derives
    induction derives with
    | single found => exact ⟨0, by rw [ancestor?, found, Option.bind_some, ancestor?]⟩
    | tail _ found hypothesis =>
        obtain ⟨steps, reached⟩ := hypothesis
        refine ⟨steps + 1, ?_⟩
        rw [ancestor?_add (steps + 1) 1, reached, Option.bind_some, ancestor?, found, Option.bind_some,
          ancestor?]
  · rintro ⟨steps, reached⟩
    induction steps generalizing derived with
    | zero =>
        obtain ⟨next, found, same⟩ := Option.bind_eq_some_iff.mp reached
        obtain rfl := Option.some.inj same
        exact .single found
    | succ steps hypothesis =>
        obtain ⟨next, found, rest⟩ := Option.bind_eq_some_iff.mp reached
        exact .head found (hypothesis rest)

/-- A walk that does not end within the number of types passes some type twice. -/
theorem exists_cycle (inside : index < module.types.length)
    (reached : module.ancestor? module.types.length index ≠ none) :
    ∃ steps repeated, module.ancestor? steps index = some repeated ∧
      module.DerivesFrom repeated repeated := by
  have passes : ∀ step : Fin (module.types.length + 1), ∃ passed : Fin module.types.length,
      module.ancestor? step index = some passed.val := by
    intro step
    obtain ⟨passed, here⟩ := Option.ne_none_iff_exists'.mp
      fun ended => reached (ancestor?_of_le ended (Nat.le_of_lt_succ step.isLt))
    exact ⟨⟨passed, ancestor?_lt inside here⟩, here⟩
  choose passed here using passes
  -- a walk of as many steps as there are types passes one type more, so it passes some type twice
  obtain ⟨first, second, different, same⟩ := Fintype.exists_ne_map_eq_of_card_lt passed (by simp)
  wlog before : first < second generalizing first second
  · exact this second first (Ne.symm different) same.symm
      (lt_of_le_of_ne (not_lt.mp before) (Ne.symm different))
  obtain ⟨steps, apart⟩ := Nat.exists_eq_add_of_lt before
  refine ⟨first, passed first, here first, derivesFrom_iff.mpr ⟨steps, ?_⟩⟩
  have again := here second
  rw [apart, Nat.add_assoc, ancestor?_add, here first, Option.bind_some, ← same] at again
  exact again

/-- A walk from a type that derives from itself never ends. -/
theorem DerivesFrom.ancestor?_ne_none (cycle : module.DerivesFrom index index) (limit : Nat) :
    module.ancestor? limit index ≠ none := by
  obtain ⟨steps, again⟩ := derivesFrom_iff.mp cycle
  have round : ∀ rounds, module.ancestor? ((steps + 1) * rounds) index = some index := by
    intro rounds
    induction rounds with
    | zero => rfl
    | succ rounds hypothesis => rw [Nat.mul_succ, ancestor?_add, hypothesis, Option.bind_some, again]
  intro ended
  have later := ancestor?_of_le ended (Nat.le_mul_of_pos_left limit (Nat.succ_pos steps))
  rw [round] at later
  cases later

/-- A walk that ends at all ends within the number of types. -/
theorem ancestor?_length {steps : Nat} (inside : index < module.types.length)
    (ended : module.ancestor? steps index = none) :
    module.ancestor? module.types.length index = none := by
  by_contra reached
  obtain ⟨first, repeated, passed, cycle⟩ := exists_cycle inside reached
  have later := ancestor?_of_le ended (Nat.le_add_left steps first)
  rw [ancestor?_add, passed, Option.bind_some] at later
  exact cycle.ancestor?_ne_none steps later

/-- Bases do not run in circles exactly if every walk ends within the number of types. -/
theorem acyclic_iff :
    module.Acyclic ↔
      ∀ index < module.types.length, module.ancestor? module.types.length index = none := by
  constructor
  · intro acyclic index inside
    by_contra reached
    obtain ⟨-, repeated, -, cycle⟩ := exists_cycle inside reached
    exact acyclic repeated cycle
  · intro ends index cycle
    obtain ⟨steps, again⟩ := derivesFrom_iff.mp cycle
    obtain ⟨next, found, -⟩ := Option.bind_eq_some_iff.mp again
    exact cycle.ancestor?_ne_none _ (ends index (localBase?_lt found).1)

instance : Decidable module.Acyclic :=
  decidable_of_iff _ acyclic_iff.symm

/-! ## Depth -/

theorem baseDepthUpTo_of_none (limit : Nat) (root : module.localBase? index = none) :
    module.baseDepthUpTo limit index = 0 := by
  cases limit with
  | zero => rfl
  | succ limit => simp only [baseDepthUpTo, root]

theorem baseDepthUpTo_of_some (limit : Nat) (found : module.localBase? derived = some base) :
    module.baseDepthUpTo (limit + 1) derived = module.baseDepthUpTo limit base + 1 := by
  simp only [baseDepthUpTo, found]

private theorem baseDepthUpTo_succ_of_ended (ended : module.ancestor? limit index = none) :
    module.baseDepthUpTo (limit + 1) index = module.baseDepthUpTo limit index := by
  induction limit generalizing index with
  | zero => cases ended
  | succ limit hypothesis =>
      cases found : module.localBase? index with
      | none => rw [baseDepthUpTo_of_none _ found, baseDepthUpTo_of_none _ found]
      | some base =>
          rw [ancestor?, found, Option.bind_some] at ended
          rw [baseDepthUpTo_of_some _ found, baseDepthUpTo_of_some _ found, hypothesis ended]

/-- A type from which the walk ends lies one step deeper than its base. -/
theorem baseDepth_localBase? (ended : module.ancestor? module.types.length derived = none)
    (found : module.localBase? derived = some base) :
    module.baseDepth derived = module.baseDepth base + 1 := by
  obtain ⟨inside, -⟩ := localBase?_lt found
  unfold baseDepth
  cases count : module.types.length with
  | zero =>
      rw [count] at inside
      cases inside
  | succ limit =>
      rw [count, ancestor?, found, Option.bind_some] at ended
      rw [baseDepthUpTo_succ_of_ended ended, baseDepthUpTo_of_some _ found]

theorem baseDepth_lt (ended : module.ancestor? module.types.length derived = none)
    (derives : module.DerivesFrom derived base) :
    module.baseDepth base < module.baseDepth derived := by
  induction derives using Relation.TransGen.head_induction_on with
  | single found =>
      rw [baseDepth_localBase? ended found]
      exact Nat.lt_succ_self _
  | head found _ hypothesis =>
      have above := ancestor?_of_le ended (Nat.le_succ _)
      rw [ancestor?, found, Option.bind_some] at above
      rw [baseDepth_localBase? ended found]
      exact Nat.lt_succ_of_lt (hypothesis above)

theorem Acyclic.baseDepth_lt (acyclic : module.Acyclic) (derives : module.DerivesFrom derived base) :
    module.baseDepth base < module.baseDepth derived := by
  obtain ⟨next, found, -⟩ := Relation.TransGen.head'_iff.mp derives
  exact Module.baseDepth_lt (acyclic_iff.mp acyclic derived (localBase?_lt found).1) derives

theorem pairwise_baseFirstOrder (module : Module) :
    module.baseFirstOrder.Pairwise fun earlier later =>
      module.baseDepth earlier ≤ module.baseDepth later := by
  refine (List.pairwise_mergeSort ?_ ?_ _).imp of_decide_eq_true
  · intro first second third before behind
    exact decide_eq_true (Nat.le_trans (of_decide_eq_true before) (of_decide_eq_true behind))
  · intro first second
    simpa using Nat.le_total (module.baseDepth first) (module.baseDepth second)

/-! ## Types in another order -/

section Permuted

variable {order : List Nat} {position : Nat}
  (permutes : order.Perm (List.range module.types.length))

include permutes

/-- The visits to the reordered module, by the indices in the original one. -/
theorem perm_visits_reorder :
    ((module.reorder order).baseFirstOrder.filterMap (order[·]?)).Perm
      (List.range module.types.length) := by
  have sorted : (module.reorder order).baseFirstOrder.Perm (List.range order.length) := by
    rw [permutes.length_eq, List.length_range, ← length_types_reorder permutes]
    exact List.mergeSort_perm ..
  have visits := sorted.filterMap (order[·]?)
  rw [filterMap_range_getElem?] at visits
  exact visits.trans permutes

variable (distinct : (module.types.map TypeDef.fullName).Nodup)

include distinct

private theorem localBase?_reorder (placed : order[position]? = some index) :
    Option.Rel (fun position index => order[position]? = some index)
      ((module.reorder order).localBase? position) (module.localBase? index) := by
  unfold localBase?
  rw [types_reorder_of_placed permutes placed]
  cases module.types[index]? with
  | none => exact .none
  | some type =>
      dsimp only [Option.bind_eq_bind, Option.bind_some]
      cases type.base with
      | none => exact .none
      | some sig =>
          dsimp only [Option.bind_some]
          cases sig.typeRef? with
          | none => exact .none
          | some reference =>
              have indices := typeIndex?_reorder permutes distinct reference.fullName
              dsimp only [Option.bind_some]
              cases reference.scope with
              | none => exact indices
              | some scope =>
                  by_cases own : scope = module.name
                  · simpa only [name_reorder, own, ↓reduceIte] using indices
                  · simpa only [name_reorder, own, ↓reduceIte] using .none

private theorem baseDepth_reorder (placed : order[position]? = some index) :
    (module.reorder order).baseDepth position = module.baseDepth index := by
  unfold baseDepth
  rw [length_types_reorder permutes]
  generalize module.types.length = limit
  induction limit generalizing position index with
  | zero => rfl
  | succ limit hypothesis =>
      have bases := localBase?_reorder permutes distinct placed
      unfold baseDepthUpTo
      generalize (module.reorder order).localBase? position = moved,
        module.localBase? index = found at bases
      cases bases with
      | none => rfl
      | some there => exact congrArg (· + 1) (hypothesis there)

theorem pairwise_visits_reorder :
    ((module.reorder order).baseFirstOrder.filterMap (order[·]?)).Pairwise fun earlier later =>
      module.baseDepth earlier ≤ module.baseDepth later := by
  refine List.pairwise_filterMap.mpr ((pairwise_baseFirstOrder (module.reorder order)).imp ?_)
  intro before behind ordered earlier placed later placed'
  rwa [baseDepth_reorder permutes distinct placed, baseDepth_reorder permutes distinct placed']
    at ordered

end Permuted

end PropertyWeaver.Module
