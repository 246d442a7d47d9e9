import PropertyWeaver.Proofs.Module.Scopes
import PropertyWeaver.Proofs.Weaving.PassFrame

/-!
# The reference table of a woven module

An edit lists the scopes of what it adds, and the tasks ask for no edit that adds a scope in a position
that is not listed. So a pass keeps a module closed, and it lists each scope once.
-/

set_option autoImplicit false

namespace PropertyWeaver

/-! ## What tasks add -/

/-- An edit whose scopes are all listed when it is applied. -/
def Edit.ListsAdded (edit : Edit) : Prop :=
  edit.addedScopes ⊆ edit.scopes

namespace WeavingContext

variable {context : WeavingContext} {typeIndex propertyIndex : Nat} {type : LocatedType}
  {property : PropertyDef} {edit : TypeEdit}

private theorem listsAdded_replaceBody (method : Nat) (maxStack : UInt16)
    (code : List Instruction) :
    (Edit.replaceBody method (.ofCode maxStack code)).ListsAdded :=
  List.Subset.refl _

private theorem setter_listsAdded {source : ValueSource} {body : MethodBody} (method : Nat)
    (made : context.setter type property source = .ok body) :
    (Edit.replaceBody method body).ListsAdded := by
  obtain ⟨_, _, -, -, rfl⟩ := setter_eq_ok.mp made
  exact listsAdded_replaceBody method _ _

private theorem routeThrough_listsAdded {mapping : LocatedType} {identifier fieldName : String}
    {fieldType : TypeSig}
    (routed : context.routeThrough typeIndex type property mapping identifier fieldName fieldType =
      .ok edit) : ∀ change ∈ edit.edits, change.ListsAdded := by
  obtain ⟨_, code, maxStack, _, -, -, setters, -, rfl⟩ := routeThrough_eq_ok routed
  intro change member
  simp only [List.mem_append, List.mem_cons, List.mem_map] at member
  obtain (((rfl | ⟨getter, _, rfl⟩) | member) | ⟨name, _, rfl⟩) | ⟨constructor, _, rfl⟩ := member
  · simp [Edit.ListsAdded, Edit.addedScopes, Edit.scopes, FieldDef.scopes]
  · exact listsAdded_replaceBody getter _ _
  · obtain ⟨setter, body, _, rfl, made⟩ := setters change member
    exact setter_listsAdded setter made
  · exact List.nil_subset _
  · exact List.Subset.refl _

end WeavingContext

theorem Task.listsAdded_of_execute {context : WeavingContext} {task : Task} {edit : TypeEdit}
    (executed : task.execute context = .ok edit) : ∀ change ∈ edit.edits, change.ListsAdded := by
  cases task with
  | mappedProperty type property =>
      rcases WeavingContext.mapProperty_eq_ok executed with rfl | ⟨_, _, _, _, -, -, -, -, -, -, -,
        routed⟩
      · exact fun change member => absurd member List.not_mem_nil
      · exact WeavingContext.routeThrough_listsAdded routed
  | changeNotification type property =>
      rcases WeavingContext.notifyChanges_eq_ok executed with rfl | ⟨_, _, setter, _, body, -, -, -, -,
        -, made, rfl⟩
      · exact fun change member => absurd member List.not_mem_nil
      · intro change member
        obtain rfl := List.mem_singleton.mp member
        exact WeavingContext.setter_listsAdded setter made
  | typeHierarchy type =>
      rcases WeavingContext.overrideQuery_eq_ok executed with rfl | ⟨_, _, _, _, _, -, -, -, -, -, rfl⟩
      · exact fun change member => absurd member List.not_mem_nil
      · intro change member
        obtain rfl := List.mem_singleton.mp member
        simp [Edit.ListsAdded, Edit.addedScopes, Edit.scopes, MethodDef.scopes, MethodBody.scopes,
          MethodDef.parameterTypes]

/-! ## What a pass lists -/

namespace Module

/-- The reference table has no name twice, and not the module's own. -/
structure ListsOnce (module : Module) : Prop where
  nodup : module.references.Nodup
  foreign : module.name ∉ module.references

private theorem ListsOnce.addReference {module : Module} (once : module.ListsOnce)
    (scope : String) :
    (module.addReference scope).ListsOnce := by
  unfold Module.addReference
  split
  · exact once
  · next unknown =>
    obtain ⟨own, absent⟩ := not_or.mp (mt knowsScope_iff.mpr unknown)
    refine ⟨?_, ?_⟩
    · refine List.nodup_append.mpr ⟨once.nodup, by simp, ?_⟩
      rintro listed member _ here rfl
      exact absent (List.mem_singleton.mp here ▸ member)
    · simp only [List.mem_append, List.mem_singleton, not_or]
      exact ⟨once.foreign, Ne.symm own⟩

private theorem ListsOnce.addReferences {module : Module} (once : module.ListsOnce)
    (scopes : List String) :
    (module.addReferences scopes).ListsOnce :=
  List.foldlRecOn scopes Module.addReference (motive := ListsOnce) once
    fun _ once scope _ => once.addReference scope

end Module

/-- What holds throughout a pass: the module so far knows what it mentions beyond what it mentioned at
the start, and it lists a scope once if it did so at the start. -/
structure Module.Lists (module after : Module) : Prop where
  known : ∀ scope ∈ after.scopes, scope ∈ module.scopes ∨ after.knowsScope scope = true
  once : module.ListsOnce → after.ListsOnce

private theorem Module.Lists.applyEdit {module : Module} {type : Nat} {state : WeavingState}
    {edit : Edit} (lists : module.Lists state.module) (added : edit.ListsAdded) :
    module.Lists (WeavingState.applyEdit type state edit).module := by
  have table := WeavingState.references_applyEdit type state edit
  have own := WeavingState.name_applyEdit type state edit
  have knows : ∀ scope, (WeavingState.applyEdit type state edit).module.knowsScope scope =
      (state.module.addReferences edit.scopes).knowsScope scope := by
    intro scope
    rw [Module.knowsScope, Module.knowsScope, table, own, Module.name_addReferences]
  refine ⟨fun scope named => ?_, fun start => ?_⟩
  · rw [knows]
    rcases List.mem_append.mp (WeavingState.scopes_applyEdit type state edit named) with before | new
    · exact (lists.known scope before).imp_right (knowsScope_addReferences_of_known edit.scopes)
    · exact .inr (knowsScope_addReferences (added new))
  · obtain ⟨nodup, foreign⟩ := (lists.once start).addReferences edit.scopes
    rw [name_addReferences, ← own, ← table] at foreign
    exact ⟨table ▸ nodup, foreign⟩

namespace Module

variable {resolver : Resolver} {configuration : Configuration} {module woven : Module}
  {report : WeaveReport}

private theorem lists_of_weave
    (weaves : module.weave resolver configuration = .ok (woven, report)) :
    module.Lists woven := by
  rcases weave_eq_ok weaves with ⟨-, rfl⟩ | ⟨-, state, ran, rfl, -⟩
  · exact ⟨fun scope named => .inl named, id⟩
  have made : module.Lists state.module := by
    refine WeavingState.preserves_visits ?_ ⟨fun scope named => .inl named, id⟩ ran
    intro between task edit _ executed change member state lists
    exact lists.applyEdit (Task.listsAdded_of_execute executed change member)
  exact ⟨made.known, fun start => ⟨(made.once start).nodup, (made.once start).foreign⟩⟩

theorem prefix_weave (weaves : module.weave resolver configuration = .ok (woven, report)) :
    module.references <+: woven.references := by
  rcases weave_eq_ok weaves with ⟨-, rfl⟩ | ⟨-, state, ran, rfl, -⟩
  · exact List.prefix_refl _
  · exact (WeavingState.grows_visits ran).references

/-- Weaving keeps a module closed. It appends to the reference table, no name twice and not the name of
the module. -/
theorem weave_closed (weaves : module.weave resolver configuration = .ok (woven, report)) :
    (module.Closed → woven.Closed) ∧ module.references <+: woven.references ∧
    (module.ListsOnce → woven.ListsOnce) := by
  obtain ⟨known, once⟩ := lists_of_weave weaves
  refine ⟨fun closed scope named => ?_, prefix_weave weaves, once⟩
  rcases known scope named with before | listed
  · exact (extends_weave weaves).knowsScope (closed scope before)
  · exact listed

/-! A module that is closed because it lists the runtime. -/

def sampleListed : Module := { sampleModule with references := ["Semweave.Runtime"] }

theorem weave_closed_sampleListed :
    sampleListed.Closed ∧ sampleListed.ListsOnce ∧
      ∃ woven report, sampleListed.weave sampleResolver {} = .ok (woven, report) ∧
        woven.Closed ∧ sampleListed.references <+: woven.references ∧ woven.ListsOnce := by
  have closed : sampleListed.Closed := by decide
  have once : sampleListed.ListsOnce := ⟨by decide, by decide⟩
  have weaves : (sampleListed.weave sampleResolver {}).isOk = true := by decide +kernel
  obtain ⟨⟨woven, report⟩, outcome⟩ := Outcome.exists_of_isOk weaves
  obtain ⟨keeps, references, distinct⟩ := weave_closed outcome
  exact ⟨closed, once, woven, report, outcome, keeps closed, references, distinct once⟩

end Module

end PropertyWeaver
