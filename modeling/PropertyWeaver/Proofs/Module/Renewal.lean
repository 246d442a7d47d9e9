import Mathlib.Algebra.GroupWithZero.Nat
import Mathlib.Data.List.Basic
import PropertyWeaver.Module.Basic

/-!
# What has come and what has gone

Numbers that compare a module with what has become of it, type by type. A field definition has come if it
was not there before, and it has gone if it is not there any more. That is counted right while fields come
and go one at a time, as long as a field that goes takes no other one of its name with it.
-/

set_option autoImplicit false

namespace PropertyWeaver

namespace TypeDef

def methodsAdded (before after : TypeDef) : Nat :=
  after.methods.length - before.methods.length

/-- Number of instance constructors with a body. -/
def bodiedConstructors (type : TypeDef) : Nat :=
  type.methods.countP fun method => method.isConstructor && method.body.isSome

end TypeDef

/-- Number of field definitions that are not among others. -/
def FieldDef.countBeyond (others fields : List FieldDef) : Nat :=
  fields.countP fun field => field ∉ others

/-- The sum over the types of a module of a number that depends on what has become of each. -/
def Module.sumOver (before after : Module) (number : TypeDef → TypeDef → Nat) : Nat :=
  (List.zipWith number before.types after.types).sum

theorem Module.sumOver_self (module : Module) {number : TypeDef → TypeDef → Nat}
    (none : ∀ type, number type type = 0) : module.sumOver module number = 0 := by
  rw [sumOver, List.zipWith_self]
  simp [none]

theorem sum_zipWith_set {α β : Type} {number : α → β → Nat} {left : List α} {right : List β}
    {index : Nat} {item : α} {old : β} (found : left[index]? = some item)
    (found' : right[index]? = some old) (new : β) :
    (List.zipWith number left (right.set index new)).sum + number item old =
      (List.zipWith number left right).sum + number item new := by
  induction left generalizing right index with
  | nil => cases found
  | cons first left hypothesis =>
      cases right with
      | nil => cases found'
      | cons first' right =>
          cases index with
          | zero =>
              obtain rfl := Option.some.inj found
              obtain rfl := Option.some.inj found'
              simp only [List.set_cons_zero, List.zipWith_cons_cons, List.sum_cons]
              omega
          | succ index =>
              have rest := @hypothesis right index found found'
              simp only [List.set_cons_succ, List.zipWith_cons_cons, List.sum_cons]
              omega

/-! ## Fields -/

namespace FieldDef

theorem countBeyond_self (fields : List FieldDef) : countBeyond fields fields = 0 :=
  List.countP_eq_zero.mpr fun _ member => by simpa using member

/-- A field that a compiler has marked is the only one of its name. -/
def MarkedApart (fields : List FieldDef) : Prop :=
  ∀ field ∈ fields, field.isCompilerGenerated = true →
    fields.countP (fun other => other.name = field.name) = 1

private theorem MarkedApart.name_ne {fields : List FieldDef} (apart : MarkedApart fields)
    {field : FieldDef} (listed : field ∈ fields) (marked : field.isCompilerGenerated = true) :
    ∀ other ∈ fields.erase field, other.name ≠ field.name := by
  have one := apart field listed marked
  rw [(List.perm_cons_erase listed).countP_eq, List.countP_cons_of_pos (by simp)] at one
  simpa using List.countP_eq_zero.mp (Nat.succ.inj one)

private theorem MarkedApart.eq_of_name {fields : List FieldDef} (apart : MarkedApart fields)
    {field other : FieldDef} (listed : field ∈ fields) (marked : field.isCompilerGenerated = true)
    (member : other ∈ fields) (same : other.name = field.name) : other = field := by
  by_contra different
  exact apart.name_ne listed marked other ((List.mem_erase_of_ne different).mpr member) same

/-- Fields in the place of others: what has gone has been marked by a compiler, and what has come has not. -/
structure Renewed (before after : List FieldDef) : Prop where
  apart : MarkedApart before
  unique : ∀ field ∈ after, field.isCompilerGenerated = true → ∀ other ∈ after,
    other.name = field.name → other = field
  gone : ∀ field ∈ before, field ∉ after → field.isCompilerGenerated = true
  new : ∀ field ∈ after, field ∉ before → field.isCompilerGenerated = false

namespace Renewed

variable {before after : List FieldDef} {field : FieldDef} {name : String}

theorem refl (apart : MarkedApart before) : Renewed before before :=
  ⟨apart, fun _ listed marked _ member same => apart.eq_of_name listed marked member same,
    fun _ member absent => absurd member absent, fun _ member absent => absurd member absent⟩

private theorem append (renewed : Renewed before after)
    (absent : ∀ other ∈ after, other.name ≠ field.name)
    (plain : field.isCompilerGenerated = false) :
    Renewed before (after ++ [field]) ∧
      countBeyond before (after ++ [field]) = countBeyond before after + 1 ∧
      countBeyond (after ++ [field]) before = countBeyond after before := by
  have unknown : field ∉ before := by
    intro member
    have marked := renewed.gone field member fun there => absent field there rfl
    rw [plain] at marked
    cases marked
  refine ⟨⟨renewed.apart, ?_, ?_, ?_⟩, ?_, ?_⟩
  · intro first member marked other member' same
    rcases List.mem_append.mp member with old | new
    · rcases List.mem_append.mp member' with old' | new'
      · exact renewed.unique first old marked other old' same
      · obtain rfl := List.mem_singleton.mp new'
        exact absurd same.symm (absent first old)
    · obtain rfl := List.mem_singleton.mp new
      rw [plain] at marked
      cases marked
  · intro other member missing
    exact renewed.gone other member fun there => missing (List.mem_append_left _ there)
  · intro other member missing
    rcases List.mem_append.mp member with old | new
    · exact renewed.new other old missing
    · obtain rfl := List.mem_singleton.mp new
      exact plain
  · simp [countBeyond, unknown]
  · refine List.countP_congr fun other member => ?_
    have different : other ≠ field := fun same => unknown (same ▸ member)
    simp [different]

private theorem filter (renewed : Renewed before after) (listed : field ∈ after)
    (marked : field.isCompilerGenerated = true) :
    Renewed before (after.filter fun other => other.name ≠ field.name) ∧
      countBeyond before (after.filter fun other => other.name ≠ field.name) =
        countBeyond before after ∧
      countBeyond (after.filter fun other => other.name ≠ field.name) before =
        countBeyond after before + 1 := by
  have known : field ∈ before := by
    by_contra missing
    have plain := renewed.new field listed missing
    rw [marked] at plain
    cases plain
  have only := renewed.unique field listed marked
  refine ⟨⟨renewed.apart, ?_, ?_, ?_⟩, ?_, ?_⟩
  · intro first member marked other member' same
    exact renewed.unique first (List.mem_filter.mp member).1 marked other (List.mem_filter.mp member').1
      same
  · intro other member missing
    by_cases there : other ∈ after
    · have same : other.name = field.name := by simpa [there] using missing
      rw [only other there same]
      exact marked
    · exact renewed.gone other member there
  · intro other member missing
    exact renewed.new other (List.mem_filter.mp member).1 missing
  · rw [countBeyond, List.countP_filter]
    refine List.countP_congr fun other member => ?_
    have stays : other ∉ before → other.name ≠ field.name := fun missing same =>
      missing (only other member same ▸ known)
    simpa using stays
  · -- of the original fields the one that goes is counted now, and the others as before
    have split := List.perm_cons_erase known
    have others := renewed.apart.name_ne known marked
    have rest : countBeyond (after.filter fun other => other.name ≠ field.name) (before.erase field) =
        countBeyond after (before.erase field) :=
      List.countP_congr fun other member => by simp [others other member]
    have here : countBeyond after before = countBeyond after (before.erase field) := by
      simp [countBeyond, split.countP_eq, listed]
    rw [here, ← rest, countBeyond, split.countP_eq, List.countP_cons_of_pos (by simp)]
    rfl

/-- A property that is routed brings its mapping field, and takes away a field that a compiler has marked. -/
theorem routed (renewed : Renewed before after)
    (absent : after.find? (fun other => other.name = field.name) = none)
    (plain : field.isCompilerGenerated = false) {removal : Option String}
    (removes : ∀ name ∈ removal, ∃ marked, after.find? (fun other => other.name = name) = some marked ∧
      marked.isCompilerGenerated = true) :
    Renewed before ((after ++ [field]).filter fun other => other.name ∉ removal) ∧
      countBeyond before ((after ++ [field]).filter fun other => other.name ∉ removal) =
        countBeyond before after + 1 ∧
      countBeyond ((after ++ [field]).filter fun other => other.name ∉ removal) before =
        countBeyond after before + removal.toList.length := by
  obtain ⟨longer, added, kept⟩ := renewed.append (by simpa using absent) plain
  cases removal with
  | none => simpa using ⟨longer, added, kept⟩
  | some name =>
      obtain ⟨marked, listed, generated⟩ := removes name rfl
      obtain rfl : marked.name = name := by simpa using List.find?_some listed
      obtain ⟨shorter, added', gone⟩ := longer.filter
        (List.mem_append_left _ (List.mem_of_find?_eq_some listed)) generated
      have same : (fun other : FieldDef => decide (other.name ∉ some marked.name)) =
          fun other => decide (other.name ≠ marked.name) := by
        funext other
        simp [eq_comm]
      rw [same]
      exact ⟨shorter, added'.trans added, gone.trans (congrArg (· + 1) kept)⟩

end Renewed

end FieldDef

end PropertyWeaver
