import PropertyWeaver.Proofs.Weaving.Ancestry
import PropertyWeaver.Proofs.Weaving.Commutation
import PropertyWeaver.Proofs.Weaving.Mirroring

/-!
# Visits that do not depend on each other

A visit reads the types that its own type derives from. What it reads of other types no visit changes.
So two visits may change places if neither type derives from the other, and any two orders in which
bases come first lead to the same result.
-/

set_option autoImplicit false

namespace PropertyWeaver

variable {resolver : Resolver} {configuration : Configuration} {origin module : Module}
  {aside : Nat → Prop} {type : Nat}

namespace Module

private theorem Extends.derivesFrom {before after : Module} (extended : before.Extends after)
    {derived base : Nat} : after.DerivesFrom derived base ↔ before.DerivesFrom derived base := by
  simp only [DerivesFrom, extended.localBase?]

/-- Two modules that extend a third one and agree in all types but those set aside. -/
structure Beside (origin : Module) (aside : Nat → Prop) (left right : Module) : Prop where
  toLeft : origin.Extends left
  toRight : origin.Extends right
  types : ∀ type, ¬ aside type → right.types[type]? = left.types[type]?

private theorem Beside.runtimeType {left right : Module} (beside : origin.Beside aside left right)
    {fullName : String} {host : LocatedType}
    (found : (WeavingContext.ofModule left resolver configuration).runtimeType fullName = .ok host) :
    ∃ host', (WeavingContext.ofModule right resolver configuration).runtimeType fullName = .ok host' ∧
      (WeavingContext.ofModule left resolver configuration).Offers
        (.ofModule right resolver configuration) host host' := by
  have toLeft := beside.toLeft.metadata resolver configuration
  have toRight := beside.toRight.metadata resolver configuration
  -- the type may be set aside, so what both modules offer of it is what the origin does
  obtain ⟨first, there, seen⟩ := WeavingContext.runtimeType_of_extends toLeft rfl found
  obtain ⟨host', found', seen'⟩ := WeavingContext.runtimeType_extends toRight rfl there
  refine ⟨host', found', seen'.header.trans seen.header.symm, fun parameters some => ?_⟩
  have before := map_eq_of_rel (toLeft.constructor? seen some) fun _ _ same => same.methodRef.symm
  have after := map_eq_of_rel (toRight.constructor? seen' some) fun _ _ same => same.methodRef.symm
  exact after.symm.trans before

/-- A task sees the same in both modules if nothing that its type derives from is set aside. -/
theorem Beside.mirrors {left right : Module} (beside : origin.Beside aside left right)
    (core : origin.name ≠ configuration.runtime.coreModule) (ignored : resolver.Ignores origin.name)
    (here : ¬ aside type) (above : ∀ base, origin.DerivesFrom type base → ¬ aside base) :
    (WeavingContext.ofModule left resolver configuration).Mirrors
      (.ofModule right resolver configuration) type type where
  configuration := rfl
  own := beside.types type here
  chain definition declared := by
    have around : (WeavingContext.ofModule left resolver configuration).metadata.Neighbours
        (WeavingContext.ofModule right resolver configuration).metadata :=
      ⟨beside.toRight.name.trans beside.toLeft.name.symm, rfl, rfl⟩
    have name : left.name = origin.name := beside.toLeft.name
    refine around.chain_of_local ?_ ?_ declared ?_ ?_ ?_
    · exact fun same => core (name.symm.trans same.symm)
    · exact name.symm ▸ ignored
    · exact beside.toRight.types.length_eq.symm.trans beside.toLeft.types.length_eq
    · intro fullName
      exact (beside.toRight.typeIndex? fullName).trans (beside.toLeft.typeIndex? fullName).symm
    · exact fun base derives => beside.types base (above base (beside.toLeft.derivesFrom.mp derives))
  equality? type equals rootObject :=
    ((beside.toRight.metadata resolver configuration).equality? type equals rootObject).trans
      ((beside.toLeft.metadata resolver configuration).equality? type equals rootObject).symm
  runtimeType _ _ found := beside.runtimeType found

end Module

namespace WeavingState

variable {left right state between after after' last last' : WeavingState}

/-- The same edits of one type lead from two states to two others. -/
def Parallel (type : Nat) (left right after after' : WeavingState) : Prop :=
  ∃ edits : List TypeEdit, (∀ edit ∈ edits, edit.type = type) ∧ after = edits.foldl apply left ∧
    after' = edits.foldl apply right

namespace Parallel

private theorem refl (type : Nat)
    (left right : WeavingState) : Parallel type left right left right :=
  ⟨[], fun _ member => absurd member List.not_mem_nil, rfl, rfl⟩

private theorem trans (first : Parallel type left right after after')
    (second : Parallel type after after' last last') : Parallel type left right last last' := by
  obtain ⟨edits, own, rfl, rfl⟩ := first
  obtain ⟨edits', own', rfl, rfl⟩ := second
  exact ⟨edits ++ edits', List.forall_mem_append.mpr ⟨own, own'⟩, List.foldl_append.symm,
    List.foldl_append.symm⟩

private theorem permuted (parallel : Parallel type left right after after')
    (start : Permuted left right) :
    Permuted after after' := by
  obtain ⟨edits, -, rfl, rfl⟩ := parallel
  exact start.foldl_apply edits

end Parallel

/-- Two states whose modules are beside each other, with the same preludes in the types that agree. -/
structure Beside (origin : Module) (aside : Nat → Prop) (left right : WeavingState) : Prop where
  module : origin.Beside aside left.module right.module
  cursors : ∀ type, ¬ aside type → right.cursor type = left.cursor type
  touched : right.touched = left.touched

namespace Beside

private theorem applyEdit (beside : Beside origin aside left right) (here : ¬ aside type)
    {edit : Edit} (plain : edit.Plain) :
    Beside origin aside (applyEdit type left edit) (WeavingState.applyEdit type right edit) := by
  obtain ⟨⟨toLeft, toRight, types⟩, cursors, touched⟩ := beside
  refine ⟨⟨toLeft.trans (extends_applyEdit plain type left),
    toRight.trans (extends_applyEdit plain type right), fun other kept => ?_⟩, fun other kept => ?_, ?_⟩
  · rw [types_applyEdit, types_applyEdit, List.getElem?_modify, List.getElem?_modify, types other kept,
      cursors type here]
  · funext index
    rw [cursor, cursor, cursors_applyEdit, cursors_applyEdit, types type here, cursors type here]
    split
    · rfl
    · exact congrFun (cursors other kept) index
  · rw [touched_applyEdit_eq, touched_applyEdit_eq, types type here, touched]

private theorem apply (beside : Beside origin aside left right) {edit : TypeEdit}
    (here : ¬ aside edit.type) (plain : ∀ change ∈ edit.edits, change.Plain) :
    Beside origin aside (left.apply edit) (right.apply edit) := by
  have changed : ∀ edits : List Edit, (∀ change ∈ edits, change.Plain) → ∀ {left right : WeavingState},
      Beside origin aside left right → Beside origin aside
        (edits.foldl (WeavingState.applyEdit edit.type) left)
        (edits.foldl (WeavingState.applyEdit edit.type) right) := by
    intro edits
    induction edits with
    | nil => exact fun _ _ _ beside => beside
    | cons change edits hypothesis =>
        intro plain left right beside
        obtain ⟨first, rest⟩ := List.forall_mem_cons.mp plain
        exact hypothesis rest (beside.applyEdit here first)
  obtain ⟨module, cursors, touched⟩ := changed edit.edits plain beside
  exact ⟨module, cursors, touched⟩

variable (core : origin.name ≠ configuration.runtime.coreModule)
  (ignored : resolver.Ignores origin.name)

include core ignored

private theorem runTask (beside : Beside origin aside left right) {task : Task}
    (here : ¬ aside task.typeIndex)
    (above : ∀ base, origin.DerivesFrom task.typeIndex base → ¬ aside base)
    (ran : runTask resolver configuration left task = .ok after) :
    ∃ after', WeavingState.runTask resolver configuration right task = .ok after' ∧
      Parallel task.typeIndex left right after after' ∧ Beside origin aside after after' := by
  have mirrors : (WeavingContext.ofModule left.module resolver configuration).Mirrors
      (.ofModule right.module resolver configuration) task.typeIndex task.typeIndex :=
    beside.module.mirrors core ignored here above
  have applies := mirrors.canExecute rfl
  rw [Task.moved_typeIndex] at applies
  unfold WeavingState.runTask at ran ⊢
  dsimp only at ran ⊢
  rw [applies]
  split at ran
  · next able =>
    obtain ⟨edit, executed, rest⟩ := Outcome.bind_eq_ok.mp ran
    have own := Task.type_of_execute executed
    have executed' := mirrors.execute rfl executed
    rw [Task.moved_typeIndex, TypeEdit.moved, ← own] at executed'
    rw [if_pos able, executed', Outcome.ok_bind]
    dsimp only
    obtain rfl := Except.ok.inj rest
    split
    · exact ⟨right, rfl, .refl .., beside⟩
    · exact ⟨right.apply edit, rfl, ⟨[edit], List.forall_mem_singleton.mpr own, rfl, rfl⟩,
        beside.apply (own ▸ here) (Task.plain_of_execute executed)⟩
  · next unable =>
    obtain rfl := Except.ok.inj ran
    exact ⟨right, if_neg unable, .refl .., beside⟩

private theorem runTasks {tasks : List Task} (beside : Beside origin aside left right)
    (here : ¬ aside type) (above : ∀ base, origin.DerivesFrom type base → ¬ aside base)
    (own : ∀ task ∈ tasks, task.typeIndex = type)
    (ran : tasks.foldlM (WeavingState.runTask resolver configuration) left = .ok after) :
    ∃ after', tasks.foldlM (WeavingState.runTask resolver configuration) right = .ok after' ∧
      Parallel type left right after after' ∧ Beside origin aside after after' := by
  induction tasks generalizing left right with
  | nil =>
      obtain rfl := Except.ok.inj ran
      exact ⟨right, rfl, .refl .., beside⟩
  | cons task tasks hypothesis =>
      obtain ⟨rfl, others⟩ := List.forall_mem_cons.mp own
      rw [List.foldlM_cons] at ran ⊢
      obtain ⟨between, first, rest⟩ := Outcome.bind_eq_ok.mp ran
      obtain ⟨between', first', front, beside⟩ := beside.runTask core ignored here above first
      obtain ⟨after', rest', back, beside⟩ := hypothesis beside others rest
      exact ⟨after', by rw [first', Outcome.ok_bind, rest'], front.trans back, beside⟩

end Beside

/-! ## Visits -/

private theorem verifyTouched_congr (own : right.module.types[type]? = left.module.types[type]?)
    (touched : right.touched = left.touched) : right.verifyTouched type = left.verifyTouched type := by
  unfold verifyTouched
  rw [own, touched]

def entered (state : WeavingState) : WeavingState := { state with touched := [] }

private theorem permuted_entered (state : WeavingState) : Permuted state.entered state :=
  ⟨rfl, .refl _, rfl, rfl, .refl _⟩

/-- The edits of two visits to different types lead to the same state in either order. -/
theorem Parallel.permuted_of_square {first second : Nat} {corner : WeavingState}
    (different : first ≠ second)
    (one : Parallel first state.entered corner.entered between after')
    (two : Parallel second between.entered state.entered after corner) : Permuted after after' := by
  obtain ⟨edits, own, rfl, rfl⟩ := one
  obtain ⟨edits', own', rfl, rfl⟩ := two
  have swaps : Swaps (edits.foldl apply ·) (edits'.foldl apply ·) :=
    swaps_foldl_apply fun edit member edit' member' => by
      rw [own edit member, own' edit' member']
      exact Ne.symm different
  have front := (permuted_entered (edits.foldl apply state.entered)).foldl_apply edits'
  have back := (permuted_entered (edits'.foldl apply state.entered)).foldl_apply edits
  exact (front.trans (swaps state.entered)).trans back.symm

private theorem beside_weaveType
    (visited : weaveType resolver configuration state type = .ok after) :
    Beside state.module (· = type) state.entered after.entered where
  module := {
    toLeft := .refl state.module
    toRight := show state.module.Extends after.module from extends_weaveType visited
    types := (elsewhere_weaveType visited).types }
  cursors other different := funext ((elsewhere_weaveType visited).cursors other different)
  touched := rfl

private theorem Beside.symm
    (beside : Beside origin aside left right) : Beside origin aside right left where
  module := ⟨beside.module.toRight, beside.module.toLeft, fun type kept =>
    (beside.module.types type kept).symm⟩
  cursors type kept := (beside.cursors type kept).symm
  touched := beside.touched.symm

section Visits

variable (core : origin.name ≠ configuration.runtime.coreModule)
  (ignored : resolver.Ignores origin.name)

include core ignored

theorem Beside.weaveType (beside : Beside origin aside left.entered right.entered) (here : ¬ aside type)
    (above : ∀ base, origin.DerivesFrom type base → ¬ aside base)
    (visited : weaveType resolver configuration left type = .ok after) :
    ∃ after', WeavingState.weaveType resolver configuration right type = .ok after' ∧
      Parallel type left.entered right.entered after after' := by
  obtain ⟨ran, checked⟩ := weaveType_eq_ok.mp visited
  have planned : right.module.plan configuration type = left.module.plan configuration type :=
    plan_congr configuration.verify (beside.module.types type here)
  obtain ⟨after', ran', parallel, beside⟩ := beside.runTasks core ignored here above
    (fun _ => Module.typeIndex_of_mem_plan) ran
  refine ⟨after', weaveType_eq_ok.mpr ⟨?_, fun verify => ?_⟩, parallel⟩
  · rw [runPlan, planned]
    exact ran'
  · rw [verifyTouched_congr (beside.module.types type here) beside.touched]
    exact checked verify

end Visits

section Orders

variable (core : module.name ≠ configuration.runtime.coreModule)
  (ignored : resolver.Ignores module.name)

include core ignored

theorem Permuted.weaveType (permuted : Permuted left right) (extended : module.Extends left.module)
    (visited : weaveType resolver configuration left type = .ok after) :
    ∃ after', WeavingState.weaveType resolver configuration right type = .ok after' ∧
      Permuted after after' := by
  have beside : Beside module (fun _ => False) left.entered right.entered := {
    module := {
      toLeft := extended
      toRight := extended.trans ⟨permuted.name, permuted.references.symm.subset, by
        change List.Forall₂ _ left.module.types right.module.types
        rw [permuted.types]
        exact (Module.Extends.refl _).types⟩
      types := fun other _ => congrArg (·[other]?) permuted.types }
    cursors := fun other _ => funext fun index => congrFun permuted.cursors (other, index)
    touched := rfl }
  obtain ⟨after', visited', parallel⟩ := beside.weaveType core ignored id (fun _ _ => id) visited
  refine ⟨after', visited', parallel.permuted ?_⟩
  exact ((permuted_entered left).trans permuted).trans (permuted_entered right).symm

private theorem Permuted.visits {types : List Nat} (permuted : Permuted left right)
    (extended : module.Extends left.module)
    (ran : types.foldlM (WeavingState.weaveType resolver configuration) left = .ok after) :
    ∃ after', types.foldlM (WeavingState.weaveType resolver configuration) right = .ok after' ∧
      Permuted after after' := by
  induction types generalizing left right with
  | nil =>
      obtain rfl := Except.ok.inj ran
      exact ⟨right, rfl, permuted⟩
  | cons type types hypothesis =>
      rw [List.foldlM_cons] at ran ⊢
      obtain ⟨between, first, rest⟩ := Outcome.bind_eq_ok.mp ran
      obtain ⟨between', first', permuted⟩ := permuted.weaveType core ignored extended first
      obtain ⟨after', rest', permuted⟩ :=
        hypothesis permuted (extended.trans (extends_weaveType first)) rest
      exact ⟨after', by rw [first', Outcome.ok_bind, rest'], permuted⟩

/-- Two visits may change places if neither type derives from the other. -/
theorem weaveType_comm {first second : Nat} (different : first ≠ second)
    (apart : ¬ module.DerivesFrom first second) (apart' : ¬ module.DerivesFrom second first)
    (extended : module.Extends state.module)
    (one : weaveType resolver configuration state first = .ok between)
    (two : weaveType resolver configuration between second = .ok after) :
    ∃ between' after', weaveType resolver configuration state second = .ok between' ∧
      weaveType resolver configuration between' first = .ok after' ∧ Permuted after after' := by
  have core' : state.module.name ≠ configuration.runtime.coreModule := extended.name.symm ▸ core
  have ignored' : resolver.Ignores state.module.name := extended.name.symm ▸ ignored
  -- the second visit is replayed without the first one, and then the first one behind it
  obtain ⟨between', two', later⟩ := (beside_weaveType one).symm.weaveType core' ignored'
    (Ne.symm different) (fun base derives same => apart' (extended.derivesFrom.mp (same ▸ derives))) two
  obtain ⟨after', one', earlier⟩ := (beside_weaveType two').weaveType core' ignored' different
    (fun base derives same => apart (extended.derivesFrom.mp (same ▸ derives))) one
  exact ⟨between', after', two', one', earlier.permuted_of_square different later⟩

/-- A visit moves in front of others that neither need it nor are needed for it. -/
theorem exists_visits_moved {front : List Nat} (apart : ∀ other ∈ front, other ≠ type ∧
      ¬ module.DerivesFrom other type ∧ ¬ module.DerivesFrom type other)
    (extended : module.Extends state.module)
    (ran : (front ++ [type]).foldlM (weaveType resolver configuration) state = .ok after) :
    ∃ after', (type :: front).foldlM (weaveType resolver configuration) state = .ok after' ∧
      Permuted after after' := by
  induction front generalizing state after with
  | nil => exact ⟨after, ran, .refl after⟩
  | cons other front hypothesis =>
      obtain ⟨⟨different, here, here'⟩, others⟩ := List.forall_mem_cons.mp apart
      rw [List.cons_append, List.foldlM_cons] at ran
      obtain ⟨between, first, rest⟩ := Outcome.bind_eq_ok.mp ran
      have extended' := extended.trans (extends_weaveType first)
      obtain ⟨late, moved, permuted⟩ := hypothesis others extended' rest
      rw [List.foldlM_cons] at moved
      obtain ⟨met, second, rest'⟩ := Outcome.bind_eq_ok.mp moved
      obtain ⟨between', met', second', first', swapped⟩ :=
        weaveType_comm core ignored different here here' extended first second
      obtain ⟨after', last, permuted'⟩ := swapped.visits core ignored
        (extended'.trans (extends_weaveType second)) rest'
      refine ⟨after', ?_, permuted.trans permuted'⟩
      rw [List.foldlM_cons, second', Outcome.ok_bind, List.foldlM_cons, first', Outcome.ok_bind, last]

/-- Any two orders of the same visits in which no type comes before one that it derives from lead to the
same result. -/
theorem exists_visits_of_perm {types types' : List Nat} (perm : types'.Perm types)
    (distinct : types.Nodup)
    (ordered : types.Pairwise fun earlier later => ¬ module.DerivesFrom earlier later)
    (ordered' : types'.Pairwise fun earlier later => ¬ module.DerivesFrom earlier later)
    (extended : module.Extends state.module)
    (ran : types.foldlM (weaveType resolver configuration) state = .ok after) :
    ∃ after', types'.foldlM (weaveType resolver configuration) state = .ok after' ∧
      Permuted after after' := by
  -- by induction on the new order: its first visit moves to the front of the old order
  induction types' generalizing types state after with
  | nil =>
      obtain rfl := List.nil_perm.mp perm
      exact ⟨after, ran, .refl after⟩
  | cons type types' hypothesis =>
      obtain ⟨front, back, rfl⟩ := List.append_of_mem (perm.mem_iff.mp List.mem_cons_self)
      have perm' : types'.Perm (front ++ back) := (perm.trans List.perm_middle).cons_inv
      obtain ⟨fresh, distinct'⟩ := List.nodup_cons.mp (List.perm_middle.nodup_iff.mp distinct)
      obtain ⟨first, ordered'⟩ := List.pairwise_cons.mp ordered'
      have kept : (front ++ back).Sublist (front ++ type :: back) :=
        (List.sublist_cons_self type back).append_left front
      have apart : ∀ other ∈ front, other ≠ type ∧ ¬ module.DerivesFrom other type ∧
          ¬ module.DerivesFrom type other := by
        intro other member
        have listed : other ∈ front ++ back := List.mem_append_left back member
        exact ⟨fun same => fresh (same ▸ listed),
          (List.pairwise_append.mp ordered).2.2 other member type List.mem_cons_self,
          first other (perm'.mem_iff.mpr listed)⟩
      rw [List.append_cons, List.foldlM_append] at ran
      obtain ⟨between, ran, rest⟩ := Outcome.bind_eq_ok.mp ran
      obtain ⟨between', moved, permuted⟩ := exists_visits_moved core ignored apart extended ran
      obtain ⟨late, rest', permuted⟩ :=
        permuted.visits core ignored (extended.trans (extends_visits ran)) rest
      rw [List.foldlM_cons] at moved
      obtain ⟨met, visited, moved⟩ := Outcome.bind_eq_ok.mp moved
      have ran' : (front ++ back).foldlM (weaveType resolver configuration) met = .ok late := by
        rw [List.foldlM_append, moved, Outcome.ok_bind, rest']
      obtain ⟨after', last, permuted'⟩ := hypothesis perm' distinct' (ordered.sublist kept) ordered'
        (extended.trans (extends_weaveType visited)) ran'
      refine ⟨after', ?_, permuted.trans permuted'⟩
      rw [List.foldlM_cons, visited, Outcome.ok_bind, last]

end Orders

end WeavingState

end PropertyWeaver
