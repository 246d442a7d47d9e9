import Mathlib.Data.List.Nodup
import PropertyWeaver.Metadata.Member
import PropertyWeaver.Proofs.Metadata.Lookup
import PropertyWeaver.Proofs.Module.Extension

/-!
# Types in another order

Types are found by full name. If no two types of a module share one, then it does not matter to a lookup
in which order they are declared, and indices differ by the position of a type alone.
-/

set_option autoImplicit false

namespace PropertyWeaver

theorem getElem?_filterMap {α β : Type} {f : α → Option β} {items : List α}
    (kept : ∀ item ∈ items, ∃ image, f item = some image) (position : Nat) :
    (items.filterMap f)[position]? = items[position]?.bind f := by
  induction items generalizing position with
  | nil => rfl
  | cons item items hypothesis =>
      obtain ⟨⟨image, here⟩, rest⟩ := List.forall_mem_cons.mp kept
      rw [List.filterMap_cons_some here]
      cases position with
      | zero => exact here.symm
      | succ position => exact hypothesis rest position

theorem filterMap_range_getElem? {α : Type} (items : List α) :
    (List.range items.length).filterMap (items[·]?) = items := by
  refine List.ext_getElem? fun position => ?_
  rw [getElem?_filterMap fun index listed =>
    ⟨_, List.getElem?_eq_getElem (List.mem_range.mp listed)⟩]
  by_cases inside : position < items.length
  · rw [List.getElem?_range inside, Option.bind_some]
  · rw [List.getElem?_eq_none (by simpa using inside), List.getElem?_eq_none (by simpa using inside),
      Option.bind_none]

namespace Module

variable {module : Module} {order : List Nat} {position index : Nat} {fullName : String}

/-- The module with its types in another order, which lists their indices. -/
def reorder (module : Module) (order : List Nat) : Module :=
  { module with types := order.filterMap (module.types[·]?) }

@[simp] theorem name_reorder (module : Module) (order : List Nat) :
    (module.reorder order).name = module.name := rfl

private theorem typeIndex?_eq_some (distinct : (module.types.map TypeDef.fullName).Nodup) :
    module.typeIndex? fullName = some index ↔
      ∃ type, module.types[index]? = some type ∧ type.fullName = fullName := by
  constructor
  · intro found
    obtain ⟨inside, named, -⟩ := List.findIdx?_eq_some_iff_getElem.mp found
    exact ⟨_, List.getElem?_eq_getElem inside, of_decide_eq_true named⟩
  · rintro ⟨type, declared, rfl⟩
    obtain ⟨inside, rfl⟩ := List.getElem?_eq_some_iff.mp declared
    refine List.findIdx?_eq_some_iff_getElem.mpr ⟨inside, decide_eq_true rfl, ?_⟩
    intro other before named
    have earlier : other < module.types.length := Nat.lt_trans before inside
    have same : (module.types.map TypeDef.fullName)[other]? =
        (module.types.map TypeDef.fullName)[index]? := by
      rw [List.getElem?_map, List.getElem?_map, List.getElem?_eq_getElem earlier,
        List.getElem?_eq_getElem inside]
      exact congrArg some (of_decide_eq_true named)
    have listed : other < (module.types.map TypeDef.fullName).length := by
      rwa [List.length_map]
    exact Nat.ne_of_lt before ((List.getElem?_inj listed distinct).mp same)

theorem type?_eq_bind (module : Module) (fullName : String) :
    module.type? fullName = (module.typeIndex? fullName).bind (module.types[·]?) :=
  List.find?_eq_bind_findIdx?_getElem?

section Permuted

variable (permutes : order.Perm (List.range module.types.length))

include permutes

private theorem exists_position (inside : index < module.types.length) :
    ∃ position : Nat, order[position]? = some index :=
  List.mem_iff_getElem?.mp (permutes.mem_iff.mpr (List.mem_range.mpr inside))

private theorem nodup_order : order.Nodup :=
  permutes.nodup_iff.mpr List.nodup_range

theorem position_unique {other : Nat} (placed : order[position]? = some index)
    (again : order[other]? = some index) : position = other := by
  obtain ⟨inside, -⟩ := List.getElem?_eq_some_iff.mp placed
  exact (List.getElem?_inj inside (nodup_order permutes)).mp (placed.trans again.symm)

theorem types_reorder (position : Nat) :
    (module.reorder order).types[position]? = order[position]?.bind (module.types[·]?) := by
  refine getElem?_filterMap (fun index listed => ?_) position
  have inside := List.mem_range.mp (permutes.mem_iff.mp listed)
  exact ⟨_, List.getElem?_eq_getElem inside⟩

theorem types_reorder_of_placed (placed : order[position]? = some index) :
    (module.reorder order).types[position]? = module.types[index]? := by
  rw [types_reorder permutes, placed, Option.bind_some]

private theorem perm_types_reorder : (module.reorder order).types.Perm module.types := by
  have permuted := permutes.filterMap (module.types[·]?)
  rwa [filterMap_range_getElem?] at permuted

theorem length_types_reorder : (module.reorder order).types.length = module.types.length :=
  (perm_types_reorder permutes).length_eq

/-! ## Lookups by name -/

variable (distinct : (module.types.map TypeDef.fullName).Nodup)

include distinct

private theorem distinct_reorder : ((module.reorder order).types.map TypeDef.fullName).Nodup :=
  ((perm_types_reorder permutes).map _).nodup_iff.mpr distinct

/-- A name stands for the same type, which may have another index. -/
theorem typeIndex?_reorder (fullName : String) :
    Option.Rel (fun position index => order[position]? = some index)
      ((module.reorder order).typeIndex? fullName) (module.typeIndex? fullName) := by
  cases found : module.typeIndex? fullName with
  | some index =>
      obtain ⟨type, declared, named⟩ := (typeIndex?_eq_some distinct).mp found
      obtain ⟨position, placed⟩ := exists_position permutes (List.getElem?_eq_some_iff.mp declared).1
      have moved := (typeIndex?_eq_some (distinct_reorder permutes distinct)).mpr
        ⟨type, (types_reorder_of_placed permutes placed).trans declared, named⟩
      rw [moved]
      exact .some placed
  | none =>
      cases moved : (module.reorder order).typeIndex? fullName with
      | none => exact .none
      | some position =>
          obtain ⟨type, declared, named⟩ :=
            (typeIndex?_eq_some (distinct_reorder permutes distinct)).mp moved
          rw [types_reorder permutes] at declared
          obtain ⟨index, placed, declared⟩ := Option.bind_eq_some_iff.mp declared
          rw [(typeIndex?_eq_some distinct).mpr ⟨type, declared, named⟩] at found
          cases found

private theorem type?_reorder (fullName : String) :
    (module.reorder order).type? fullName = module.type? fullName := by
  rw [type?_eq_bind, type?_eq_bind]
  have indices := typeIndex?_reorder permutes distinct fullName
  generalize (module.reorder order).typeIndex? fullName = moved,
    module.typeIndex? fullName = found at indices
  cases indices with
  | none => rfl
  | some placed => exact types_reorder_of_placed permutes placed

end Permuted

end Module

/-! ## Metadata around the reordered module -/

namespace Metadata

variable {module : Module} {order : List Nat} {resolver : Resolver} {coreModule : String}
  (permutes : order.Perm (List.range module.types.length))
  (distinct : (module.types.map TypeDef.fullName).Nodup)

include permutes

private theorem typeCount_reorder :
    (Metadata.mk (module.reorder order) resolver coreModule).typeCount =
      (Metadata.mk module resolver coreModule).typeCount := by
  simp only [typeCount, Module.length_types_reorder permutes]

include distinct

theorem findType?_reorder (scope : Option String) (fullName : String) :
    (Metadata.mk (module.reorder order) resolver coreModule).findType? scope fullName =
      (Metadata.mk module resolver coreModule).findType? scope fullName := by
  have own := Module.type?_reorder permutes distinct fullName
  rw [findType?_eq, findType?_eq]
  cases scope with
  | none => exact congrArg (Option.map _) own
  | some name =>
      by_cases here : name = module.name
      · simp only [module?, Module.name_reorder, here, ↓reduceIte, Option.bind_some, own]
      · simp only [module?, Module.name_reorder, here, ↓reduceIte]

private theorem resolveSig?_reorder (origin : Option String) (sig : TypeSig) :
    (Metadata.mk (module.reorder order) resolver coreModule).resolveSig? origin sig =
      (Metadata.mk module resolver coreModule).resolveSig? origin sig := by
  simp only [resolveSig?, resolve?, findType?_reorder permutes distinct]

theorem chain_reorder (type : LocatedType) :
    (Metadata.mk (module.reorder order) resolver coreModule).chain type =
      (Metadata.mk module resolver coreModule).chain type := by
  refine chain_congr (fun _ => True) (typeCount_reorder permutes)
    (fun type _ => ⟨?_, fun _ _ => trivial⟩) trivial
  simp only [base?, resolveSig?_reorder permutes distinct]

theorem constructor?_reorder (type : LocatedType) (parameters : List String) :
    (Metadata.mk (module.reorder order) resolver coreModule).constructor? type parameters =
      (Metadata.mk module resolver coreModule).constructor? type parameters := by
  simp only [constructor?, findMethod?, chain_reorder permutes distinct]

theorem equality?_reorder (type : TypeSig) (equals rootObject : String) :
    (Metadata.mk (module.reorder order) resolver coreModule).equality? type equals rootObject =
      (Metadata.mk module resolver coreModule).equality? type equals rootObject := by
  simp only [equality?, resolveSig?_reorder permutes distinct, findType?_reorder permutes distinct]

end Metadata

end PropertyWeaver
