import Mathlib.Data.List.Forall2
import PropertyWeaver.Proofs.Module.Header

/-!
# Extended modules

Weaving extends a type: its fields and the code of its methods may become others, and methods without
parameters are appended. Headers stay, and so does the place of every method.
-/

set_option autoImplicit false

namespace PropertyWeaver

/-- A search finds related items in related lists if it accepts related items alike. -/
theorem find?_rel {α β : Type} {relation : α → β → Prop} {left : List α} {right : List β}
    {accepts : α → Bool} {accepts' : β → Bool} (related : List.Forall₂ relation left right)
    (alike : ∀ item item', relation item item' → accepts item = accepts' item') :
    Option.Rel relation (left.find? accepts) (right.find? accepts') := by
  induction related with
  | nil => exact .none
  | @cons item item' rest rest' here _ hypothesis =>
      rw [List.find?_cons, List.find?_cons, ← alike item item' here]
      cases accepts item with
      | true => exact .some here
      | false => exact hypothesis

theorem rel_or {α β : Type} {relation : α → β → Prop} {first second : Option α}
    {first' second' : Option β} (left : Option.Rel relation first first')
    (right : Option.Rel relation second second') :
    Option.Rel relation (first.or second) (first'.or second') := by
  cases left with
  | none => exact right
  | some related => exact .some related

theorem rel_map {α β γ δ : Type} {relation : α → β → Prop} {image : γ → δ → Prop}
    {left : Option α} {right : Option β} {f : α → γ} {g : β → δ}
    (related : Option.Rel relation left right)
    (maps : ∀ item item', relation item item' → image (f item) (g item')) :
    Option.Rel image (left.map f) (right.map g) := by
  cases related with
  | none => exact .none
  | some here => exact .some (maps _ _ here)

theorem rel_bind {α β γ δ : Type} {relation : α → β → Prop} {image : γ → δ → Prop}
    {left : Option α} {right : Option β} {f : α → Option γ} {g : β → Option δ}
    (related : Option.Rel relation left right)
    (binds : ∀ item item', relation item item' → Option.Rel image (f item) (g item')) :
    Option.Rel image (left.bind f) (right.bind g) := by
  cases related with
  | none => exact .none
  | some here => exact binds _ _ here

theorem map_eq_of_rel {α β γ : Type} {relation : α → β → Prop} {left : Option α} {right : Option β}
    {f : α → γ} {g : β → γ} (related : Option.Rel relation left right)
    (same : ∀ item item', relation item item' → f item = g item') : left.map f = right.map g := by
  cases related with
  | none => rfl
  | some here => exact congrArg some (same _ _ here)

theorem exists_of_rel {α β : Type} {relation : α → β → Prop} {left : Option α} {right : Option β}
    (related : Option.Rel relation left right) {item : α} (found : left = some item) :
    ∃ item', right = some item' ∧ relation item item' := by
  subst found
  cases related with
  | some here => exact ⟨_, rfl, here⟩

theorem exists_of_rel_right {α β : Type} {relation : α → β → Prop} {left : Option α} {right : Option β}
    (related : Option.Rel relation left right) {item : β} (found : right = some item) :
    ∃ item', left = some item' ∧ relation item' item := by
  subst found
  cases related with
  | some here => exact ⟨_, rfl, here⟩

theorem none_of_rel {α β : Type} {relation : α → β → Prop} {left : Option α} {right : Option β}
    (related : Option.Rel relation left right) (absent : left = none) : right = none := by
  subst absent
  cases related with
  | none => rfl

theorem forall₂_modify {α : Type} {relation : α → α → Prop} (refl : ∀ item, relation item item)
    {change : α → α} (changed : ∀ item, relation item (change item)) (items : List α)
    (index : Nat) : List.Forall₂ relation items (items.modify index change) := by
  induction items generalizing index with
  | nil => simp
  | cons item items hypothesis =>
      cases index with
      | zero => exact .cons (changed item) (List.forall₂_same.mpr fun item _ => refl item)
      | succ index => exact .cons (refl item) (hypothesis index)

theorem forall₂_modify_right {α β : Type} {relation : α → β → Prop} {left : List α} {right : List β}
    (related : List.Forall₂ relation left right) {change : β → β} {index : Nat}
    (changed : ∀ item item', left[index]? = some item → relation item item' →
      relation item (change item')) : List.Forall₂ relation left (right.modify index change) := by
  induction related generalizing index with
  | nil => simp
  | @cons item item' rest rest' here others hypothesis =>
      cases index with
      | zero => exact .cons (changed item item' rfl here) others
      | succ index => exact .cons here (hypothesis changed)

private theorem forall₂_trans {α : Type} {relation : α → α → Prop}
    (trans : ∀ first second third, relation first second → relation second third →
      relation first third) {first second third : List α}
    (left : List.Forall₂ relation first second) (right : List.Forall₂ relation second third) :
    List.Forall₂ relation first third := by
  induction left generalizing third with
  | nil => exact right
  | cons here _ hypothesis =>
      cases right with
      | cons there rest => exact .cons (trans _ _ _ here there) (hypothesis rest)

theorem rel_getElem? {α β : Type} {relation : α → β → Prop} {left : List α} {right : List β}
    (related : List.Forall₂ relation left right) (index : Nat) :
    Option.Rel relation left[index]? right[index]? := by
  induction related generalizing index with
  | nil => exact .none
  | cons here _ hypothesis =>
      cases index with
      | zero => exact .some here
      | succ index => exact hypothesis index

/-- A type with the same header whose methods are those of the first one, up to their code, and
further ones without parameters behind them. -/
structure TypeDef.Extends (before after : TypeDef) : Prop where
  header : after.header = before.header
  methods : ∃ added : List MethodDef, (∀ method ∈ added, method.parameters = []) ∧
    after.methods.map MethodDef.header = (before.methods ++ added).map MethodDef.header

namespace TypeDef.Extends

variable {before between after : TypeDef}

theorem refl (type : TypeDef) : type.Extends type :=
  ⟨rfl, [], by simp, by simp⟩

theorem trans (first : before.Extends between) (second : between.Extends after) :
    before.Extends after := by
  obtain ⟨header, added, plain, headers⟩ := first
  obtain ⟨header', added', plain', headers'⟩ := second
  refine ⟨header'.trans header, added ++ added', List.forall_mem_append.mpr ⟨plain, plain'⟩, ?_⟩
  rw [headers', List.map_append, headers, ← List.map_append, List.append_assoc]

/-- The methods of the extended type are found again at their indices. -/
theorem split (extended : before.Extends after) :
    ∃ kept added, after.methods = kept ++ added ∧
      List.Forall₂ (fun left right => left.header = right.header) before.methods kept ∧
      ∀ method ∈ added, method.parameters = [] := by
  obtain ⟨-, added, plain, headers⟩ := extended
  rw [List.map_append] at headers
  obtain ⟨kept, new, same, first, second⟩ := List.map_eq_append_iff.mp headers
  refine ⟨kept, new, same, ?_, ?_⟩
  · have lists := List.forall₂_eq_eq_eq.symm ▸ first.symm
    exact List.forall₂_map_right_iff.mp (List.forall₂_map_left_iff.mp lists)
  · intro method member
    have listed : method.header ∈ added.map MethodDef.header :=
      second ▸ List.mem_map_of_mem member
    obtain ⟨other, there, header⟩ := List.mem_map.mp listed
    have parameters := MethodDef.eq_of_header header MethodDef.parameters fun _ => rfl
    exact parameters.symm.trans (plain other there)

theorem getElem? (extended : before.Extends after) {index : Nat} {method : MethodDef}
    (listed : before.methods[index]? = some method) :
    ∃ method', after.methods[index]? = some method' ∧ method'.header = method.header := by
  obtain ⟨kept, added, same, headers, -⟩ := extended.split
  obtain ⟨method', found, header⟩ := exists_of_rel (rel_getElem? headers index) listed
  obtain ⟨inside, -⟩ := List.getElem?_eq_some_iff.mp found
  exact ⟨method', by rw [same, List.getElem?_append_left inside, found], header.symm⟩

theorem exists_method (extended : before.Extends after) {method : MethodDef}
    (declared : method ∈ before.methods) :
    ∃ method' ∈ after.methods, method'.header = method.header := by
  obtain ⟨index, listed⟩ := List.mem_iff_getElem?.mp declared
  obtain ⟨method', found, header⟩ := extended.getElem? listed
  exact ⟨method', List.mem_of_getElem? found, header⟩

theorem exists_method_of_parameters (extended : before.Extends after) {method : MethodDef}
    (declared : method ∈ after.methods) (takes : method.parameters ≠ []) :
    ∃ method' ∈ before.methods, method'.header = method.header := by
  obtain ⟨kept, added, same, headers, plain⟩ := extended.split
  rw [same] at declared
  rcases List.mem_append.mp declared with old | new
  · obtain ⟨index, listed⟩ := List.mem_iff_getElem?.mp old
    obtain ⟨method', found, header⟩ := exists_of_rel (rel_getElem? headers.flip index) listed
    exact ⟨method', List.mem_of_getElem? found, header⟩
  · exact absurd (plain method new) takes

end TypeDef.Extends

/-- A module of the same name whose types extend those of the first one, one by one, and that lists
what the first one lists. -/
structure Module.Extends (before after : Module) : Prop where
  name : after.name = before.name
  references : before.references ⊆ after.references
  types : List.Forall₂ TypeDef.Extends before.types after.types

namespace Module.Extends

variable {before between after : Module}

theorem refl (module : Module) : module.Extends module :=
  ⟨rfl, List.Subset.refl _, List.forall₂_same.mpr fun type _ => .refl type⟩

theorem trans (first : before.Extends between) (second : between.Extends after) :
    before.Extends after := by
  refine ⟨second.name.trans first.name, List.Subset.trans first.references second.references,
    forall₂_trans ?_ first.types second.types⟩
  exact fun _ _ _ here there => here.trans there

theorem headers (extended : before.Extends after) :
    after.types.map TypeDef.header = before.types.map TypeDef.header := by
  refine List.forall₂_eq_eq_eq ▸ List.forall₂_map_left_iff.mpr (List.forall₂_map_right_iff.mpr ?_)
  exact extended.types.flip.imp fun _ _ types => types.header

end Module.Extends

end PropertyWeaver
