import PropertyWeaver.Proofs.Weaving.Frame
import PropertyWeaver.Proofs.Weaving.SoundEdits

/-!
# Visiting a type

While the tasks of a type run, every method that has been touched verifies and every other method is
still the original one. A constructor is moreover reached at its cursor with an empty stack, which
is what the next prelude needs.
-/

set_option autoImplicit false

namespace PropertyWeaver

open Verification

private theorem Edit.Sound.of_headers {before after : TypeDef} {edit : Edit}
    (same : after.methods.map MethodDef.header = before.methods.map MethodDef.header)
    (sound : edit.Sound before) : edit.Sound after := by
  cases edit with
  | replaceBody index body =>
      obtain ⟨method, found, plain, verified⟩ := sound
      obtain ⟨method', found', same⟩ := MethodDef.exists_of_headers same found
      refine ⟨method', found', ?_, ?_⟩
      · rw [MethodDef.isConstructor_of_header same, plain]
      · rw [MethodDef.shape_of_header same, verified]
  | prependToConstructor index block maxStack =>
      obtain ⟨method, found, constructs, straight⟩ := sound
      obtain ⟨method', found', same⟩ := MethodDef.exists_of_headers same found
      refine ⟨method', found', ?_, ?_⟩
      · rw [MethodDef.isConstructor_of_header same, constructs]
      · rw [MethodDef.shape_of_header same]
        exact straight
  | addField _ => trivial
  | removeField _ => trivial
  | addMethod _ => exact sound

namespace WeavingState

/-- A type whose touched methods verify and whose other methods are the original ones. -/
structure Changed (original : TypeDef) (typeIndex : Nat) (state : WeavingState) (type : TypeDef) :
    Prop where
  here : state.module.types[typeIndex]? = some type
  header : type.header = original.header
  touched : ∀ index ∈ state.touched, ∀ method, type.methods[index]? = some method →
    method.verify = .ok ()
  untouched : ∀ index, index ∉ state.touched →
    type.methods[index]? = original.methods[index]?

/-- A type that is ready for the next prelude: each constructor verifies, is reached at its cursor
with an empty stack and may grow by `room` instructions. -/
structure Prepared (original : TypeDef) (typeIndex : Nat) (room : Nat → Nat) (state : WeavingState)
    (type : TypeDef) : Prop extends Changed original typeIndex state type where
  headers : type.methods.map MethodDef.header = original.methods.map MethodDef.header
  constructors : ∀ index method body, type.methods[index]? = some method →
    method.isConstructor = true → method.body = some body →
    body.verify method.shape = .ok () ∧
      Reachable body method.shape ⟨state.cursor typeIndex index, 0⟩ ∧
      body.instructions.length + room index < 2 ^ 64

variable {original type : TypeDef} {typeIndex : Nat} {room : Nat → Nat} {state : WeavingState}
  {edit : Edit}

theorem Prepared.mono {room' : Nat → Nat} (prepared : Prepared original typeIndex room state type)
    (le : ∀ index, room' index ≤ room index) : Prepared original typeIndex room' state type where
  here := prepared.here
  header := prepared.header
  touched := prepared.touched
  untouched := prepared.untouched
  headers := prepared.headers
  constructors index method body found constructs has := by
    obtain ⟨verified, reached, fits⟩ := prepared.constructors index method body found constructs has
    exact ⟨verified, reached, Nat.lt_of_le_of_lt (Nat.add_le_add_left (le index) _) fits⟩

private theorem Changed.here_applyEdit (changed : Changed original typeIndex state type) :
    (applyEdit typeIndex state edit).module.types[typeIndex]? =
      some (edit.change (state.cursor typeIndex) type) := by
  rw [types_applyEdit, List.getElem?_modify_eq, changed.here]
  rfl

private theorem Prepared.of_untouched (prepared : Prepared original typeIndex room state type)
    (same : ∀ index method, type.methods[index]? = some method →
      edit.changeMethod (state.cursor typeIndex) index method = method)
    (adds : edit.addedMethods = [])
    (touched : (applyEdit typeIndex state edit).touched = state.touched)
    (cursor : (applyEdit typeIndex state edit).cursor typeIndex = state.cursor typeIndex) :
    Prepared original typeIndex room (applyEdit typeIndex state edit)
      (edit.change (state.cursor typeIndex) type) := by
  have methods : (edit.change (state.cursor typeIndex) type).methods = type.methods := by
    rw [Edit.change, adds, List.append_nil]
    exact mapIdx_eq_self type.methods same
  exact {
    here := prepared.toChanged.here_applyEdit
    header := prepared.header
    touched := by
      rw [touched, methods]
      exact prepared.touched
    untouched := by
      rw [touched, methods]
      exact prepared.untouched
    headers := by rw [methods, prepared.headers]
    constructors := by
      rw [methods, cursor]
      exact prepared.constructors }

/-- An edit that touches the code of one method. What it leaves there verifies, and if the method is
a constructor it is ready for the next prelude. -/
theorem Prepared.of_touch {room' : Nat → Nat} {target : Nat} {old : MethodDef}
    (prepared : Prepared original typeIndex room state type)
    (there : type.methods[target]? = some old) (adds : edit.addedMethods = [])
    (same : ∀ index, index ≠ target → ∀ method,
      edit.changeMethod (state.cursor typeIndex) index method = method)
    (touched : (applyEdit typeIndex state edit).touched = target :: state.touched)
    (cursor : ∀ index, index ≠ target →
      (applyEdit typeIndex state edit).cursor typeIndex index = state.cursor typeIndex index)
    (le : ∀ index, room' index ≤ room index)
    (verified : (edit.changeMethod (state.cursor typeIndex) target old).verify = .ok ())
    (ready : old.isConstructor = true → ∀ body,
      (edit.changeMethod (state.cursor typeIndex) target old).body = some body →
      Reachable body old.shape ⟨(applyEdit typeIndex state edit).cursor typeIndex target, 0⟩ ∧
        body.instructions.length + room' target < 2 ^ 64) :
    Prepared original typeIndex room' (applyEdit typeIndex state edit)
      (edit.change (state.cursor typeIndex) type) := by
  have changed : (edit.change (state.cursor typeIndex) type).methods[target]? =
      some (edit.changeMethod (state.cursor typeIndex) target old) := by
    rw [Edit.methods_change_of_adds adds, there]
    rfl
  have others : ∀ index, index ≠ target →
      (edit.change (state.cursor typeIndex) type).methods[index]? = type.methods[index]? := by
    intro index other
    rw [Edit.methods_change_of_adds adds]
    cases type.methods[index]? with
    | none => rfl
    | some method => exact congrArg some (same index other method)
  have header := Edit.header_changeMethod (state.cursor typeIndex) edit target old
  exact {
    here := prepared.toChanged.here_applyEdit
    header := prepared.header
    touched := by
      intro index member method found
      rw [touched] at member
      by_cases here : index = target
      · subst here
        obtain rfl := Option.some.inj (changed.symm.trans found)
        exact verified
      · rw [others index here] at found
        have member := (List.mem_cons.mp member).resolve_left here
        exact prepared.touched index member method found
    untouched := by
      intro index fresh
      rw [touched, List.mem_cons, not_or] at fresh
      rw [others index fresh.1]
      exact prepared.untouched index fresh.2
    headers := (Edit.headers_change adds).trans prepared.headers
    constructors := by
      intro index method body found constructs has
      by_cases here : index = target
      · subst here
        obtain rfl := Option.some.inj (changed.symm.trans found)
        rw [MethodDef.isConstructor_of_header header] at constructs
        obtain ⟨reached, fits⟩ := ready constructs body has
        rw [MethodDef.verify, has] at verified
        rw [MethodDef.shape_of_header header] at verified ⊢
        exact ⟨verified, reached, fits⟩
      · rw [others index here] at found
        obtain ⟨verified, reached, fits⟩ :=
          prepared.constructors index method body found constructs has
        rw [cursor index here]
        exact ⟨verified, reached, Nat.lt_of_le_of_lt (Nat.add_le_add_left (le index) _) fits⟩ }

private theorem Prepared.prepend {target : Nat} {block : List Instruction} {maxStack : UInt16}
    (prepared : Prepared original typeIndex
      (fun index => (Edit.prependToConstructor target block maxStack).growth index + room index)
      state type)
    (sound : (Edit.prependToConstructor target block maxStack).Sound type) :
    Prepared original typeIndex room
      (applyEdit typeIndex state (.prependToConstructor target block maxStack))
      ((Edit.prependToConstructor target block maxStack).change (state.cursor typeIndex) type) := by
  obtain ⟨old, there, constructs, straight⟩ := sound
  have le : ∀ index, room index ≤
      (Edit.prependToConstructor target block maxStack).growth index + room index :=
    fun index => Nat.le_add_left ..
  have stored : state.body? typeIndex target = old.body := by
    simp [body?, prepared.here, there]
  cases has : old.body with
  | none =>
      have unchanged : applyEdit typeIndex state (.prependToConstructor target block maxStack) = _ :=
        applyEdit_prepend_of_none (stored.trans has)
      refine (prepared.mono le).of_untouched (fun index method found => ?_) rfl
        (by rw [unchanged]; rfl) (by rw [unchanged]; rfl)
      rw [Edit.changeMethod]
      split
      · next here =>
        subst here
        obtain rfl := Option.some.inj (there.symm.trans found)
        rw [has]
        exact congrArg _ has.symm
      · rfl
  | some body =>
      obtain ⟨touched, cursors⟩ : (applyEdit typeIndex state
          (.prependToConstructor target block maxStack)).touched = target :: state.touched ∧ _ :=
        applyEdit_prepend_of_some (stored.trans has)
      obtain ⟨verified, reached, fits⟩ := prepared.constructors target old body there constructs has
      simp only [Edit.growth, if_true] at fits
      have fits' : body.instructions.length + block.length < 2 ^ 64 := by omega
      have straight := straight body.locals.length
      refine prepared.of_touch there rfl (fun index other method => if_neg other) touched
        (fun index other => (cursors index).trans (if_neg other)) le ?_ fun _ body' has' => ?_
      · rw [Edit.changeMethod, if_pos rfl, MethodDef.verify, has]
        exact verify_insert maxStack verified reached fits' straight
      · rw [Edit.changeMethod, if_pos rfl, has] at has'
        obtain rfl := Option.some.inj has'
        have safe := (verify_iff.mp verified).1
        have inside := safe.lt_of_reachable reached
        constructor
        · rw [cursors target, if_pos rfl]
          have moved := Reachable.insert safe reached fits' straight reached
          rw [MethodBody.shiftIndex_of_le (Nat.le_refl _)] at moved
          exact moved.congr rfl
        · have length : (body.insert (state.cursor typeIndex target) block).instructions.length =
              body.instructions.length + block.length := MethodBody.length_insert inside.le
          change (body.insert (state.cursor typeIndex target) block).instructions.length + _ < _
          omega

/-- A sound edit leaves the type ready for the next one. -/
theorem Prepared.applyEdit
    (prepared : Prepared original typeIndex (fun index => edit.growth index + room index) state type)
    (sound : edit.Sound type) (adds : edit.addedMethods = []) :
    Prepared original typeIndex room (applyEdit typeIndex state edit)
      (edit.change (state.cursor typeIndex) type) := by
  have le : ∀ index, room index ≤ edit.growth index + room index :=
    fun index => Nat.le_add_left ..
  cases edit with
  | replaceBody target body =>
      obtain ⟨old, there, plain, verified⟩ := sound
      refine prepared.of_touch there rfl (fun index other method => if_neg other) rfl
        (fun _ _ => rfl) le ?_ (fun constructs => ?_)
      · rw [Edit.changeMethod, if_pos rfl]
        exact verified
      · rw [plain] at constructs
        cases constructs
  | prependToConstructor target block maxStack => exact prepared.prepend sound
  | addField field =>
      exact (prepared.mono le).of_untouched (fun _ _ _ => rfl) rfl rfl rfl
  | removeField name =>
      exact (prepared.mono le).of_untouched (fun _ _ _ => rfl) rfl rfl rfl
  | addMethod method => cases adds

theorem Prepared.foldl {edits : List Edit}
    (prepared : Prepared original typeIndex
      (fun index => (edits.map (Edit.growth index)).sum + room index) state type)
    (sound : ∀ edit ∈ edits, edit.Sound type ∧ edit.addedMethods = []) :
    ∃ type', Prepared original typeIndex room
      (edits.foldl (WeavingState.applyEdit typeIndex) state) type' := by
  induction edits generalizing state type with
  | nil =>
      refine ⟨type, prepared.mono fun index => ?_⟩
      simp
  | cons edit edits hypothesis =>
      obtain ⟨⟨here, adds⟩, rest⟩ := List.forall_mem_cons.mp sound
      have after := (prepared.mono fun index => by
        simp only [List.map_cons, List.sum_cons, Nat.add_assoc]
        exact Nat.le_refl _).applyEdit here adds
      refine hypothesis after fun other member => ?_
      obtain ⟨sound, adds'⟩ := rest other member
      exact ⟨sound.of_headers (Edit.headers_change adds), adds'⟩

/-- The report plays no part in a visit. -/
theorem Prepared.apply {edit : TypeEdit}
    (prepared : Prepared original edit.type
      (fun index => (edit.edits.map (Edit.growth index)).sum + room index) state type)
    (sound : ∀ change ∈ edit.edits, change.Sound type ∧ change.addedMethods = []) :
    ∃ type', Prepared original edit.type room (state.apply edit) type' := by
  obtain ⟨type', ⟨here, header, touched, untouched⟩, headers, constructors⟩ := prepared.foldl sound
  exact ⟨type', ⟨here, header, touched, untouched⟩, headers, constructors⟩

theorem methods_change_addMethod (cursor : Nat → Nat) (type : TypeDef) (method : MethodDef) :
    ((Edit.addMethod method).change cursor type).methods = type.methods ++ [method] := by
  have same : type.methods.mapIdx ((Edit.addMethod method).changeMethod cursor) = type.methods :=
    mapIdx_eq_self type.methods fun _ _ _ => rfl
  rw [Edit.change, same]
  rfl

private theorem Changed.addMethod {method : MethodDef}
    (changed : Changed original typeIndex state type) (verified : method.verify = .ok ()) :
    Changed original typeIndex (WeavingState.applyEdit typeIndex state (.addMethod method))
      ((Edit.addMethod method).change (state.cursor typeIndex) type) := by
  have touched : (WeavingState.applyEdit typeIndex state (.addMethod method)).touched =
      type.methods.length :: state.touched := by
    simp [WeavingState.applyEdit, WeavingState.addMethod, importScopes, changed.here]
  have methods := methods_change_addMethod (state.cursor typeIndex) type method
  exact {
    here := changed.here_applyEdit
    header := changed.header
    touched := by
      intro index member other found
      rw [methods] at found
      rw [touched] at member
      by_cases added : index = type.methods.length
      · subst added
        obtain rfl : method = other := by simpa using found
        exact verified
      · have member := (List.mem_cons.mp member).resolve_left added
        rcases Nat.lt_or_ge index type.methods.length with inside | outside
        · rw [List.getElem?_append_left inside] at found
          exact changed.touched index member other found
        · rw [List.getElem?_eq_none (by simp; omega)] at found
          cases found
    untouched := by
      intro index fresh
      rw [touched, List.mem_cons, not_or] at fresh
      rw [methods, ← changed.untouched index fresh.2]
      rcases Nat.lt_or_ge index type.methods.length with inside | outside
      · rw [List.getElem?_append_left inside]
      · rw [List.getElem?_eq_none (by simp; omega), List.getElem?_eq_none outside] }

theorem Changed.foldl {edits : List Edit} {holds : MethodDef → Prop}
    (changed : Changed original typeIndex state type)
    (adds : ∀ edit ∈ edits, ∃ method, edit = .addMethod method ∧ method.verify = .ok () ∧
      holds method) :
    ∃ type', Changed original typeIndex
        (edits.foldl (WeavingState.applyEdit typeIndex) state) type' ∧
      ∀ method ∈ type'.methods, method ∈ type.methods ∨ holds method := by
  induction edits generalizing state type with
  | nil => exact ⟨type, changed, fun _ member => .inl member⟩
  | cons edit edits hypothesis =>
      obtain ⟨⟨method, rfl, verified, here⟩, rest⟩ := List.forall_mem_cons.mp adds
      obtain ⟨type', changed', each⟩ := hypothesis (changed.addMethod verified) rest
      refine ⟨type', changed', fun other member => ?_⟩
      rcases each other member with before | holds
      · rw [methods_change_addMethod, List.mem_append, List.mem_singleton] at before
        rcases before with before | rfl
        · exact .inl before
        · exact .inr here
      · exact .inr holds

end WeavingState

end PropertyWeaver
