import PropertyWeaver.Proofs.Weaving.Extension
import PropertyWeaver.Proofs.Weaving.MethodStates

/-!
# Bodies written one after the other

Of several bodies that are written to one method the last one counts. So writing all of them once more
changes nothing.
-/

set_option autoImplicit false

namespace PropertyWeaver

/-! ## Scopes that are known -/

namespace Module

private theorem knowsScope_addReference (module : Module) (scope : String) :
    (module.addReference scope).knowsScope scope = true := by
  unfold addReference
  split
  · next known => exact known
  · simp [knowsScope]

theorem Extends.knowsScope {before after : Module} (extended : before.Extends after) {scope : String}
    (known : before.knowsScope scope = true) : after.knowsScope scope = true := by
  simp only [Module.knowsScope, Bool.or_eq_true, decide_eq_true_eq, List.contains_iff_mem] at known ⊢
  rw [extended.name]
  exact known.imp_right fun listed => extended.references listed

theorem knowsScope_addReferences_of_known {module : Module} {scope : String} (scopes : List String)
    (known : module.knowsScope scope = true) : (module.addReferences scopes).knowsScope scope = true := by
  simp only [knowsScope, name_addReferences, Bool.or_eq_true, decide_eq_true_eq,
    List.contains_iff_mem] at known ⊢
  exact known.imp_right fun listed => module.references_subset_addReferences scopes listed

theorem knowsScope_addReferences {module : Module} {scopes : List String} {scope : String}
    (member : scope ∈ scopes) : (module.addReferences scopes).knowsScope scope = true := by
  induction scopes generalizing module with
  | nil => cases member
  | cons first scopes hypothesis =>
      rcases List.mem_cons.mp member with rfl | rest
      · exact knowsScope_addReferences_of_known scopes (module.knowsScope_addReference scope)
      · exact @hypothesis (module.addReference first) rest

private theorem addReferences_of_known {module : Module} {scopes : List String}
    (known : ∀ scope ∈ scopes, module.knowsScope scope = true) :
    module.addReferences scopes = module := by
  induction scopes with
  | nil => rfl
  | cons scope scopes hypothesis =>
      obtain ⟨here, rest⟩ := List.forall_mem_cons.mp known
      change (module.addReference scope).addReferences scopes = module
      rw [addReference, if_pos here, hypothesis rest]

theorem addReferences_append (module : Module) (first second : List String) :
    module.addReferences (first ++ second) = (module.addReferences first).addReferences second :=
  List.foldl_append

private theorem addReferences_modifyType (module : Module) (index : Nat)
    (change : TypeDef → TypeDef) (scopes : List String) :
    (module.modifyType index change).addReferences scopes =
      (module.addReferences scopes).modifyType index change := by
  induction scopes generalizing module with
  | nil => rfl
  | cons scope scopes hypothesis =>
      have first : (module.modifyType index change).addReference scope =
          (module.addReference scope).modifyType index change := by
        have same : (module.modifyType index change).knowsScope scope = module.knowsScope scope := rfl
        unfold addReference
        rw [same]
        split <;> rfl
      change ((module.modifyType index change).addReference scope).addReferences scopes = _
      rw [first, hypothesis]
      rfl

end Module

/-! ## Writes -/

namespace MethodDef

/-- The method at an index after a body has been written to some index. -/
def written (index : Nat) (method : MethodDef) (write : Nat × MethodBody) : MethodDef :=
  if index = write.1 then { method with body := some write.2 } else method

def rewritten (writes : List (Nat × MethodBody)) (index : Nat) (method : MethodDef) : MethodDef :=
  writes.foldl (written index) method

private theorem rewritten_cases (writes : List (Nat × MethodBody)) (index : Nat) :
    (∀ method, rewritten writes index method = method) ∨
      ∃ body, ∀ method, rewritten writes index method = { method with body := some body } := by
  induction writes with
  | nil => exact .inl fun _ => rfl
  | cons write writes hypothesis =>
      rcases hypothesis with still | ⟨body, last⟩
      · by_cases here : index = write.1
        · exact .inr ⟨write.2, fun method => (still _).trans (if_pos here)⟩
        · exact .inl fun method => (still _).trans (if_neg here)
      · refine .inr ⟨body, fun method => (last _).trans ?_⟩
        unfold written
        split <;> rfl

private theorem rewritten_rewritten (writes : List (Nat × MethodBody)) (index : Nat)
    (method : MethodDef) :
    rewritten writes index (rewritten writes index method) = rewritten writes index method := by
  rcases rewritten_cases writes index with still | ⟨body, last⟩
  · exact still _
  · rw [last method, last]

private theorem rewritten_of_elsewhere {writes : List (Nat × MethodBody)} {index : Nat}
    (elsewhere : ∀ write ∈ writes, index ≠ write.1) (method : MethodDef) :
    rewritten writes index method = method := by
  induction writes with
  | nil => rfl
  | cons write writes hypothesis =>
      obtain ⟨here, rest⟩ := List.forall_mem_cons.mp elsewhere
      exact (congrArg (rewritten writes index) (if_neg here)).trans (hypothesis rest)

end MethodDef

/-- A type with what is written to its methods. -/
def TypeDef.rewritten (writes : List (Nat × MethodBody)) (type : TypeDef) : TypeDef :=
  { type with methods := type.methods.mapIdx (MethodDef.rewritten writes) }

namespace TypeDef

private theorem rewritten_of_still {writes : List (Nat × MethodBody)} {type : TypeDef}
    (still : ∀ index method, type.methods[index]? = some method →
      MethodDef.rewritten writes index method = method) : type.rewritten writes = type :=
  congrArg (fun methods => { type with methods := methods })
    (WeavingState.mapIdx_eq_self type.methods still)

private theorem rewritten_cons (write : Nat × MethodBody) (writes : List (Nat × MethodBody))
    (type : TypeDef) :
    (type.modifyMethod write.1 fun old => { old with body := some write.2 }).rewritten writes =
      type.rewritten (write :: writes) := by
  unfold rewritten modifyMethod
  rw [WeavingState.modify_eq_mapIdx, List.mapIdx_mapIdx]
  rfl

end TypeDef

namespace Module

variable {type : Nat} {module before after : Module} {writes : List (Nat × MethodBody)}

private theorem modifyType_id (module : Module)
    (index : Nat) : module.modifyType index id = module := by
  rw [modifyType, List.modify_id]

private theorem modifyType_modifyType (module : Module) (index : Nat)
    (first second : TypeDef → TypeDef) :
    (module.modifyType index first).modifyType index second =
      module.modifyType index (second ∘ first) := by
  unfold modifyType
  rw [List.modify_modify_eq]

def writeScopes (write : Nat × MethodBody) : List String :=
  (Edit.replaceBody write.1 write.2).scopes

/-- A body written to a method of a type. -/
def rewrite (type : Nat) (module : Module) (write : Nat × MethodBody) : Module :=
  (module.addReferences (writeScopes write)).modifyType type fun definition =>
    definition.modifyMethod write.1 fun old => { old with body := some write.2 }

theorem rewriteAll_eq (type : Nat) (module : Module) (writes : List (Nat × MethodBody)) :
    writes.foldl (rewrite type) module =
      (module.addReferences (writes.flatMap writeScopes)).modifyType type
        (TypeDef.rewritten writes) := by
  induction writes generalizing module with
  | nil =>
      have same : TypeDef.rewritten [] = id := funext fun _ => TypeDef.rewritten_of_still fun _ _ _ => rfl
      rw [same]
      exact (modifyType_id module type).symm
  | cons write writes hypothesis =>
      rw [List.foldl_cons, hypothesis, rewrite, addReferences_modifyType, ← addReferences_append,
        modifyType_modifyType]
      exact congrArg (modifyType _ type) (funext (TypeDef.rewritten_cons write writes))

theorem methodAt?_rewriteAll (module : Module) (index : Nat) :
    (writes.foldl (rewrite type) module).methodAt? type index =
      (module.methodAt? type index).map (MethodDef.rewritten writes index) := by
  rw [rewriteAll_eq, methodAt?, methodAt?, types_modifyType, List.getElem?_modify_eq,
    types_addReferences]
  cases module.types[type]? with
  | none => rfl
  | some definition =>
      change (definition.methods.mapIdx _)[index]? = _
      rw [List.getElem?_mapIdx]
      rfl

/-- A module in which the bodies have been written already. -/
structure Stable (type : Nat) (writes : List (Nat × MethodBody)) (module : Module) : Prop where
  known : ∀ scope ∈ writes.flatMap writeScopes, module.knowsScope scope = true
  written : ∀ index method, module.methodAt? type index = some method →
    MethodDef.rewritten writes index method = method

theorem Stable.rewriteAll (stable : Stable type writes module) :
    writes.foldl (rewrite type) module = module := by
  rw [rewriteAll_eq, addReferences_of_known stable.known]
  refine Eq.trans ?_ (modifyType_id module type)
  refine congrArg (fun types => { module with types := types }) ?_
  refine WeavingState.modify_congr fun definition found => ?_
  exact TypeDef.rewritten_of_still fun index method listed =>
    stable.written index method (WeavingState.methodAt?_eq_some.mpr ⟨definition, found, listed⟩)

theorem stable_rewriteAll (type : Nat) (writes : List (Nat × MethodBody)) (module : Module) :
    Stable type writes (writes.foldl (rewrite type) module) := by
  refine ⟨fun scope member => ?_, fun index method found => ?_⟩
  · rw [rewriteAll_eq]
    exact knowsScope_addReferences member
  · rw [methodAt?_rewriteAll] at found
    obtain ⟨old, -, rfl⟩ := Option.map_eq_some_iff.mp found
    exact MethodDef.rewritten_rewritten writes index old

/-- Methods that are added behind all others leave the writes as they are. -/
theorem Stable.extends (stable : Stable type writes before) (extended : before.Extends after)
    (methods : ∀ index method, after.methodAt? type index = some method →
      before.methodAt? type index = some method ∨ ∀ write ∈ writes, index ≠ write.1) :
    Stable type writes after := by
  refine ⟨fun scope member => extended.knowsScope (stable.known scope member), ?_⟩
  intro index method found
  rcases methods index method found with old | elsewhere
  · exact stable.written index method old
  · exact MethodDef.rewritten_of_elsewhere elsewhere method

end Module

end PropertyWeaver
