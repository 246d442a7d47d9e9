import PropertyWeaver.Proofs.Weaving.Precedence

/-!
# Chains of local bases

The chain of a type lists its base, the base of that, and so on, as far as the module declares them
itself. It either ends, and then it is shorter than the list of types, or it leads into a cycle. The
depth by which types are sorted is the length of the chain; for a type above which bases run in a
cycle it is the number of types. So chains that end come in front, each behind what it lists, and a
malformed type delays no other.
-/

set_option autoImplicit false

namespace PropertyWeaver.Module

variable {module : Module} {limit index derived base : Nat} {bases : List Nat}

/-- A type names a base that its module declares: without a scope or with the module's own. Of several
types of one name it is the first. -/
def NamesLocalBase (module : Module) (derived base : Nat) : Prop :=
  ∃ type sig reference, module.types[derived]? = some type ∧ type.base = some sig ∧
    sig.typeRef? = some reference ∧
    (reference.scope = none ∨ reference.scope = some module.name) ∧
    module.typeIndex? reference.fullName = some base

/-- The chain of a type ends at one that names no local base. -/
inductive BaseChain (module : Module) : (index : Nat) → (bases : List Nat) → Prop where
  | root {index : Nat} : (∀ base, ¬ module.NamesLocalBase index base) → BaseChain module index []
  | step {index base : Nat} {bases : List Nat} :
      module.NamesLocalBase index base → BaseChain module base bases →
      BaseChain module index (base :: bases)

/-- The chain of a type arrives at a type that lies on its own chain. -/
def LeadsIntoCycle (module : Module) (index : Nat) : Prop :=
  ∃ repeated, Relation.ReflTransGen module.NamesLocalBase index repeated ∧
    Relation.TransGen module.NamesLocalBase repeated repeated

private theorem namesLocalBase_iff :
    module.NamesLocalBase derived base ↔ module.localBase? derived = some base := by
  simp only [NamesLocalBase, localBase?, Option.bind_eq_bind, Option.bind_eq_some_iff]
  constructor
  · intro names
    obtain ⟨type, sig, reference, declared, derives, named, own, found⟩ := names
    refine ⟨type, declared, sig, derives, reference, named, ?_⟩
    cases own with
    | inl bare => rw [bare, found]
    | inr qualified => simp only [qualified, ↓reduceIte, found]
  · intro names
    obtain ⟨type, declared, sig, derives, reference, named, found⟩ := names
    refine ⟨type, sig, reference, declared, derives, named, ?_⟩
    split at found
    · next bare => exact ⟨.inl bare, found⟩
    · next scope qualified =>
      obtain ⟨same, found⟩ := Option.ite_none_right_eq_some.mp found
      exact ⟨.inr (same ▸ qualified), found⟩

private theorem derivesFrom_iff_transGen :
    module.DerivesFrom derived base ↔ Relation.TransGen module.NamesLocalBase derived base := by
  have same : module.NamesLocalBase = fun derived base => module.localBase? derived = some base :=
    funext fun _ => funext fun _ => propext namesLocalBase_iff
  rw [same, DerivesFrom]

private theorem DerivesFrom.lt (derives : module.DerivesFrom derived base) :
    derived < module.types.length ∧ base < module.types.length := by
  obtain ⟨next, first, _⟩ := Relation.TransGen.head'_iff.mp derives
  obtain ⟨before, _, last⟩ := Relation.TransGen.tail'_iff.mp derives
  exact ⟨(localBase?_lt first).1, (localBase?_lt last).2⟩

/-! ## Chains that end -/

private theorem BaseChain.ancestor?_eq_none (chain : module.BaseChain index bases) :
    module.ancestor? (bases.length + 1) index = none := by
  induction chain with
  | root ends =>
      rw [ancestor?, Option.bind_eq_none_iff]
      intro base found
      exact absurd (namesLocalBase_iff.mpr found) (ends base)
  | step names _ ended =>
      rw [List.length_cons, ancestor?, namesLocalBase_iff.mp names, Option.bind_some, ended]

private theorem exists_baseChain (ended : module.ancestor? limit index = none) :
    ∃ bases, module.BaseChain index bases := by
  induction limit generalizing index with
  | zero => cases ended
  | succ limit hypothesis =>
      cases found : module.localBase? index with
      | none =>
          refine ⟨[], .root fun base names => ?_⟩
          rw [namesLocalBase_iff, found] at names
          cases names
      | some base =>
          rw [ancestor?, found, Option.bind_some] at ended
          obtain ⟨bases, chain⟩ := hypothesis ended
          exact ⟨base :: bases, .step (namesLocalBase_iff.mpr found) chain⟩

private theorem BaseChain.derivesFrom (chain : module.BaseChain index bases)
    (member : base ∈ bases) :
    module.DerivesFrom index base := by
  induction chain with
  | root _ => cases member
  | step names _ hypothesis =>
      have found := namesLocalBase_iff.mp names
      cases member with
      | head => exact .single found
      | tail _ member => exact .head found (hypothesis member)

/-- The walk along the chain takes as many steps as there are bases, since the bound does not cut it. -/
theorem BaseChain.baseDepth_eq (chain : module.BaseChain index bases)
    (inside : index < module.types.length) : module.baseDepth index = bases.length := by
  induction chain with
  | root ends =>
      refine baseDepthUpTo_of_none _ (Option.eq_none_iff_forall_ne_some.mpr fun base found => ?_)
      exact ends base (namesLocalBase_iff.mpr found)
  | step names rest hypothesis =>
      have found := namesLocalBase_iff.mp names
      have ended := ancestor?_length inside (BaseChain.step names rest).ancestor?_eq_none
      rw [baseDepth_localBase? ended found, hypothesis (localBase?_lt found).2, List.length_cons]

private theorem baseDepthUpTo_lt (ended : module.ancestor? limit index = none) :
    module.baseDepthUpTo limit index < limit := by
  induction limit generalizing index with
  | zero => cases ended
  | succ limit hypothesis =>
      cases found : module.localBase? index with
      | none =>
          rw [baseDepthUpTo_of_none _ found]
          exact Nat.succ_pos limit
      | some base =>
          rw [ancestor?, found, Option.bind_some] at ended
          rw [baseDepthUpTo_of_some _ found]
          exact Nat.succ_lt_succ (hypothesis ended)

private theorem BaseChain.length_lt (chain : module.BaseChain index bases)
    (inside : index < module.types.length) : bases.length < module.types.length := by
  rw [← chain.baseDepth_eq inside]
  exact baseDepthUpTo_lt (ancestor?_length inside chain.ancestor?_eq_none)

/-! ## Chains that lead into a cycle -/

private theorem LeadsIntoCycle.ancestor?_ne_none (cycle : module.LeadsIntoCycle index)
    (limit : Nat) :
    module.ancestor? limit index ≠ none := by
  obtain ⟨repeated, leads, around⟩ := cycle
  have never := (derivesFrom_iff_transGen.mpr around).ancestor?_ne_none
  induction leads using Relation.ReflTransGen.head_induction_on generalizing limit with
  | refl => exact never limit
  | head names _ hypothesis =>
      cases limit with
      | zero => exact Option.some_ne_none _
      | succ limit =>
          rw [ancestor?, namesLocalBase_iff.mp names, Option.bind_some]
          exact hypothesis limit

private theorem LeadsIntoCycle.lt
    (cycle : module.LeadsIntoCycle index) : index < module.types.length := by
  obtain ⟨base, step⟩ := Option.ne_none_iff_exists'.mp (cycle.ancestor?_ne_none 1)
  obtain ⟨next, found, _⟩ := Option.bind_eq_some_iff.mp step
  exact (localBase?_lt found).1

private theorem baseDepthUpTo_eq_limit (further : module.ancestor? limit index ≠ none) :
    module.baseDepthUpTo limit index = limit := by
  induction limit generalizing index with
  | zero => rfl
  | succ limit hypothesis =>
      cases found : module.localBase? index with
      | none =>
          rw [ancestor?, found, Option.bind_none] at further
          exact absurd rfl further
      | some base =>
          rw [ancestor?, found, Option.bind_some] at further
          rw [baseDepthUpTo_of_some _ found, hypothesis further]

private theorem LeadsIntoCycle.baseDepth_eq (cycle : module.LeadsIntoCycle index) :
    module.baseDepth index = module.types.length :=
  baseDepthUpTo_eq_limit (cycle.ancestor?_ne_none module.types.length)

private theorem leadsIntoCycle_of_ne_none (inside : index < module.types.length)
    (further : module.ancestor? module.types.length index ≠ none) : module.LeadsIntoCycle index := by
  obtain ⟨steps, repeated, reached, cycle⟩ := exists_cycle inside further
  refine ⟨repeated, ?_, derivesFrom_iff_transGen.mp cycle⟩
  cases steps with
  | zero =>
      obtain rfl := Option.some.inj reached
      exact .refl
  | succ steps =>
      exact (derivesFrom_iff_transGen.mp (derivesFrom_iff.mpr ⟨steps, reached⟩)).to_reflTransGen

/-! ## The order -/

private theorem idxOf_baseFirstOrder_of_eq {left right : Nat} (before : left < right)
    (inside : right < module.types.length) (same : module.baseDepth left = module.baseDepth right) :
    module.baseFirstOrder.idxOf left < module.baseFirstOrder.idxOf right := by
  have declared : [left, right].Sublist (List.range module.types.length) := by
    refine List.sublist_of_subperm_of_pairwise (List.subperm_of_subset ?_ ?_)
      (List.pairwise_pair.mpr before) List.pairwise_lt_range
    · simp [Nat.ne_of_lt before]
    · simp [inside, Nat.lt_trans before inside]
  have ordered : [left, right].Sublist module.baseFirstOrder := by
    refine List.pair_sublist_mergeSort ?_ ?_ (decide_eq_true same.le) declared
    · intro first second third low high
      exact decide_eq_true (Nat.le_trans (of_decide_eq_true low) (of_decide_eq_true high))
    · intro first second
      simpa using Nat.le_total (module.baseDepth first) (module.baseDepth second)
  have distinct : module.baseFirstOrder.Nodup :=
    (List.mergeSort_perm _ _).nodup_iff.mpr List.nodup_range
  have positions : module.baseFirstOrder.Pairwise fun earlier later =>
      module.baseFirstOrder.idxOf earlier < module.baseFirstOrder.idxOf later := by
    refine List.pairwise_iff_getElem.mpr fun first second low high behind => ?_
    rwa [distinct.idxOf_getElem, distinct.idxOf_getElem]
  exact List.pairwise_iff_forall_sublist.mp positions ordered

/-- Every type is visited once. A type whose chain ends is visited behind all types on it, types with
chains of one length in the order of their declaration. Types whose chain leads into a cycle come
behind all others, again in the order of their declaration. A chain that ends is shorter than the list
of types, so the bound cuts only those walks that would never end. -/
theorem baseFirstOrder_schedules (module : Module) :
    module.baseFirstOrder.Perm (List.range module.types.length) ∧
    (∀ index bases, module.BaseChain index bases → ∀ base ∈ bases,
      module.baseFirstOrder.idxOf base < module.baseFirstOrder.idxOf index) ∧
    (∀ left right leftBases rightBases, left < right → right < module.types.length →
      module.BaseChain left leftBases → module.BaseChain right rightBases →
      leftBases.length = rightBases.length →
      module.baseFirstOrder.idxOf left < module.baseFirstOrder.idxOf right) ∧
    (∀ index bases cyclic, index < module.types.length → module.BaseChain index bases →
      module.LeadsIntoCycle cyclic →
      module.baseFirstOrder.idxOf index < module.baseFirstOrder.idxOf cyclic) ∧
    (∀ left right, left < right → module.LeadsIntoCycle left → module.LeadsIntoCycle right →
      module.baseFirstOrder.idxOf left < module.baseFirstOrder.idxOf right) ∧
    (∀ index < module.types.length,
      (∃ bases, module.BaseChain index bases ∧ module.baseDepth index = bases.length ∧
        bases.length < module.types.length) ∨
      (module.LeadsIntoCycle index ∧ module.baseDepth index = module.types.length)) := by
  refine ⟨List.mergeSort_perm _ _, ?_, ?_, ?_, ?_, ?_⟩
  · intro index bases chain base member
    have derives := chain.derivesFrom member
    have ended := ancestor?_length derives.lt.1 chain.ancestor?_eq_none
    exact idxOf_baseFirstOrder_lt derives.lt.2 (baseDepth_lt ended derives)
  · intro left right leftBases rightBases before inside leftChain rightChain same
    refine idxOf_baseFirstOrder_of_eq before inside ?_
    rw [leftChain.baseDepth_eq (Nat.lt_trans before inside), rightChain.baseDepth_eq inside, same]
  · intro index bases cyclic inside chain cycle
    refine idxOf_baseFirstOrder_lt inside ?_
    rw [chain.baseDepth_eq inside, cycle.baseDepth_eq]
    exact chain.length_lt inside
  · intro left right before leftCycle rightCycle
    refine idxOf_baseFirstOrder_of_eq before rightCycle.lt ?_
    rw [leftCycle.baseDepth_eq, rightCycle.baseDepth_eq]
  · intro index inside
    by_cases ended : module.ancestor? module.types.length index = none
    · obtain ⟨bases, chain⟩ := exists_baseChain ended
      exact .inl ⟨bases, chain, chain.baseDepth_eq inside, chain.length_lt inside⟩
    · have cycle := leadsIntoCycle_of_ne_none inside ended
      exact .inr ⟨cycle, cycle.baseDepth_eq⟩

def loopedModule : Module where
  magic := expectedMagic
  version := expectedVersion
  flags := 0
  name := "App"
  references := []
  types :=
    [⟨"Demo", "Loop", 0, some (.classType ⟨none, "Demo", "Loop"⟩), [], [], [], [], []⟩,
      ⟨"Demo", "Leaf", 0, some (.classType ⟨some "App", "Demo", "Root"⟩), [], [], [], [], []⟩,
      ⟨"Demo", "Stray", 0, some (.classType ⟨none, "Demo", "Loop"⟩), [], [], [], [], []⟩,
      ⟨"Demo", "Root", 0, none, [], [], [], [], []⟩]
  checksum := []

theorem baseFirstOrder_schedules_loopedModule :
    loopedModule.BaseChain 1 [3] ∧ loopedModule.LeadsIntoCycle 0 ∧ loopedModule.LeadsIntoCycle 2 ∧
    loopedModule.baseFirstOrder.idxOf 3 < loopedModule.baseFirstOrder.idxOf 1 ∧
    loopedModule.baseFirstOrder.idxOf 1 < loopedModule.baseFirstOrder.idxOf 0 ∧
    loopedModule.baseFirstOrder.idxOf 0 < loopedModule.baseFirstOrder.idxOf 2 := by
  have leaf : loopedModule.NamesLocalBase 1 3 := namesLocalBase_iff.mpr rfl
  have loop : loopedModule.NamesLocalBase 0 0 := namesLocalBase_iff.mpr rfl
  have stray : loopedModule.NamesLocalBase 2 0 := namesLocalBase_iff.mpr rfl
  have chain : loopedModule.BaseChain 1 [3] := by
    refine .step leaf (.root fun base names => ?_)
    have none : loopedModule.localBase? 3 = none := rfl
    rw [namesLocalBase_iff, none] at names
    cases names
  have first : loopedModule.LeadsIntoCycle 0 := ⟨0, .refl, .single loop⟩
  have second : loopedModule.LeadsIntoCycle 2 := ⟨0, .single stray, .single loop⟩
  obtain ⟨_, behind, _, last, declared, _⟩ := baseFirstOrder_schedules loopedModule
  exact ⟨chain, first, second, behind 1 [3] chain 3 List.mem_cons_self,
    last 1 [3] 0 (by decide) chain first, declared 0 2 (by decide) first second⟩

end PropertyWeaver.Module
