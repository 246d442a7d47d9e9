import Mathlib.Data.List.Basic
import PropertyWeaver.Proofs.Weaving.Frame

/-!
# Scopes of a module

The modules that the declarations of a module mention: in signatures, in operands and in the arguments
of attributes. A module is closed if its reference table has all of them.
-/

set_option autoImplicit false

namespace PropertyWeaver

namespace Constant

mutual

def scopes : Constant → List String
  | .type sig => sig.scopes
  | .array items => scopesOfAll items
  | _ => []

def scopesOfAll : List Constant → List String
  | [] => []
  | item :: rest => item.scopes ++ scopesOfAll rest

end

end Constant

def Attribute.scopes (attr : Attribute) : List String :=
  attr.type.scopes ++ Constant.scopesOfAll attr.arguments

def FieldDef.scopes (field : FieldDef) : List String :=
  field.fieldType.scopes ++ field.attributes.flatMap Attribute.scopes

def MethodBody.scopes (body : MethodBody) : List String :=
  body.locals.flatMap TypeSig.scopes ++ body.instructions.flatMap Instruction.scopes

def MethodDef.scopes (method : MethodDef) : List String :=
  method.returnType.scopes ++ method.parameterTypes.flatMap TypeSig.scopes ++
    method.attributes.flatMap Attribute.scopes ++ method.body.toList.flatMap MethodBody.scopes

def PropertyDef.scopes (property : PropertyDef) : List String :=
  property.propertyType.scopes ++ property.attributes.flatMap Attribute.scopes

def TypeDef.scopes (type : TypeDef) : List String :=
  type.base.toList.flatMap TypeSig.scopes ++ type.fields.flatMap FieldDef.scopes ++
    type.methods.flatMap MethodDef.scopes ++ type.properties.flatMap PropertyDef.scopes ++
    type.attributes.flatMap Attribute.scopes

namespace Module

/-- Every scope named in a declaration of the module, in reading order. -/
def scopes (module : Module) : List String :=
  module.types.flatMap TypeDef.scopes

/-- Every scope that the module mentions is its own name or listed in its reference table. -/
def Closed (module : Module) : Prop :=
  ∀ scope ∈ module.scopes, module.knowsScope scope = true

instance (module : Module) : Decidable module.Closed :=
  inferInstanceAs (Decidable (∀ scope ∈ module.scopes, module.knowsScope scope = true))

variable {module : Module} {scope : String}

theorem knowsScope_iff :
    module.knowsScope scope = true ↔ scope = module.name ∨ scope ∈ module.references := by
  simp [knowsScope]

theorem mem_scopes : scope ∈ module.scopes ↔ ∃ type ∈ module.types, scope ∈ type.scopes :=
  List.mem_flatMap

end Module

/-! ## What an edit brings -/

private theorem flatMap_mono {α β : Type} {left right : List α} {f : α → List β}
    (inside : left ⊆ right) :
    left.flatMap f ⊆ right.flatMap f := by
  intro result made
  obtain ⟨item, listed, made⟩ := List.mem_flatMap.mp made
  exact List.mem_flatMap.mpr ⟨item, inside listed, made⟩

theorem forall_mem_modify {α : Type} {holds : α → Prop} {items : List α} {index : Nat}
    {change : α → α} (each : ∀ item ∈ items, holds item)
    (kept : ∀ item, holds item → holds (change item)) :
    ∀ item ∈ items.modify index change, holds item := by
  intro item member
  obtain ⟨position, found⟩ := List.mem_iff_getElem?.mp member
  rw [List.getElem?_modify] at found
  obtain ⟨old, listed, same⟩ := Option.map_eq_some_iff.mp found
  have before := each old (List.mem_of_getElem? listed)
  split at same
  · exact same ▸ kept old before
  · exact same ▸ before

@[simp] theorem Instruction.scopes_mapTarget (shift : UInt64 → UInt64) (instruction : Instruction) :
    (instruction.mapTarget shift).scopes = instruction.scopes := by
  obtain ⟨opcode, operand⟩ := instruction
  cases operand <;> rfl

private theorem MethodBody.scopes_withPrelude (body : MethodBody) (cursor : Nat)
    (block : List Instruction) (maxStack : UInt16) :
    (body.withPrelude cursor block maxStack).scopes ⊆
      body.scopes ++ block.flatMap Instruction.scopes := by
  have shifted : (body.instructions.map (Instruction.mapTarget (shiftTarget cursor block.length))).flatMap
      Instruction.scopes = body.instructions.flatMap Instruction.scopes := by
    rw [List.flatMap_map]
    exact List.flatMap_congr fun instruction _ => Instruction.scopes_mapTarget _ instruction
  intro scope named
  simp only [scopes, withPrelude, insert, List.flatMap_append, List.mem_append] at named ⊢
  rcases named with declared | (front | inside) | back
  · exact .inl (.inl declared)
  · exact .inl (.inr (shifted ▸ flatMap_mono (List.take_subset ..) front))
  · exact .inr inside
  · exact .inl (.inr (shifted ▸ flatMap_mono (List.drop_subset ..) back))

namespace Edit

def addedScopes : Edit → List String
  | .replaceBody _ body => body.scopes
  | .prependToConstructor _ block _ => block.flatMap Instruction.scopes
  | .addField field => field.scopes
  | .removeField _ => []
  | .addMethod method => method.scopes

variable {cursor : Nat → Nat} {edit : Edit}

private theorem scopes_changeMethod (index : Nat) (method : MethodDef) :
    (edit.changeMethod cursor index method).scopes ⊆ method.scopes ++ edit.addedScopes := by
  have kept : method.scopes ⊆ method.scopes ++ edit.addedScopes := List.subset_append_left ..
  cases edit with
  | replaceBody target body =>
      simp only [changeMethod]
      split
      · intro scope named
        simp only [MethodDef.scopes, MethodDef.parameterTypes, addedScopes, Option.toList_some,
          List.flatMap_singleton, List.mem_append] at named ⊢
        exact named.imp_left .inl
      · exact kept
  | prependToConstructor target block maxStack =>
      simp only [changeMethod]
      split
      · intro scope named
        cases stored : method.body with
        | none =>
            rw [stored] at named
            refine kept ?_
            rw [MethodDef.scopes, stored]
            exact named
        | some body =>
            simp only [MethodDef.scopes, MethodDef.parameterTypes, stored, Option.map_some,
              Option.toList_some, List.flatMap_singleton, addedScopes, List.mem_append] at named ⊢
            rcases named with declared | inside
            · exact .inl (.inl declared)
            · have prelude := body.scopes_withPrelude (cursor target) block maxStack inside
              exact (List.mem_append.mp prelude).imp_left .inr
      · exact kept
  | addField field => exact kept
  | removeField name => exact kept
  | addMethod added => exact kept

private theorem scopes_changeFields (fields : List FieldDef) :
    (edit.changeFields fields).flatMap FieldDef.scopes ⊆
      fields.flatMap FieldDef.scopes ++ edit.addedScopes := by
  cases edit with
  | addField field =>
      simp only [changeFields, List.flatMap_append, List.flatMap_singleton, addedScopes]
      exact List.Subset.refl _
  | removeField name =>
      simp only [changeFields, addedScopes, List.append_nil]
      exact flatMap_mono (List.filter_subset_self _)
  | _ => exact List.subset_append_left ..

private theorem scopes_change (cursor : Nat → Nat) (edit : Edit) (type : TypeDef) :
    (edit.change cursor type).scopes ⊆ type.scopes ++ edit.addedScopes := by
  intro scope named
  simp only [TypeDef.scopes, change, List.flatMap_append, List.mem_append] at named ⊢
  rcases named with (((base | field) | (kept | added)) | property) | attr
  · exact .inl (.inl (.inl (.inl (.inl base))))
  · exact (List.mem_append.mp (scopes_changeFields type.fields field)).imp_left
      fun old => .inl (.inl (.inl (.inr old)))
  · obtain ⟨method, listed, inside⟩ := List.mem_flatMap.mp kept
    obtain ⟨index, bound, rfl⟩ := List.mem_mapIdx.mp listed
    refine (List.mem_append.mp (scopes_changeMethod index _ inside)).imp_left fun old => ?_
    exact .inl (.inl (.inr (List.mem_flatMap.mpr ⟨_, List.getElem_mem bound, old⟩)))
  · cases edit with
    | addMethod method =>
        obtain ⟨_, listed, inside⟩ := List.mem_flatMap.mp added
        obtain rfl := List.mem_singleton.mp listed
        exact .inr inside
    | _ => exact absurd added List.not_mem_nil
  · exact .inl (.inl (.inr property))
  · exact .inl (.inr attr)

end Edit

theorem WeavingState.scopes_applyEdit (type : Nat) (state : WeavingState) (edit : Edit) :
    (applyEdit type state edit).module.scopes ⊆ state.module.scopes ++ edit.addedScopes := by
  have types : ∀ definition ∈ (applyEdit type state edit).module.types,
      ∀ scope ∈ definition.scopes, scope ∈ state.module.scopes ++ edit.addedScopes := by
    rw [types_applyEdit]
    refine forall_mem_modify (fun definition listed scope inside => ?_) ?_
    · exact List.mem_append_left _ (Module.mem_scopes.mpr ⟨definition, listed, inside⟩)
    · intro definition before scope inside
      rcases List.mem_append.mp (Edit.scopes_change _ edit definition inside) with kept | new
      · exact before scope kept
      · exact List.mem_append_right _ new
  intro scope named
  obtain ⟨definition, listed, inside⟩ := Module.mem_scopes.mp named
  exact types definition listed scope inside

end PropertyWeaver
