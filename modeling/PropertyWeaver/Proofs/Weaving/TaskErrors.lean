import PropertyWeaver.Proofs.Outcome
import PropertyWeaver.Weaving.Pass

/-!
# Errors of tasks

A task never fails by a verification error: those come from the check after the tasks of a type
alone.
-/

set_option autoImplicit false

namespace PropertyWeaver

open Outcome

/-- An error of the check after the tasks of a type. -/
def WeaveError.IsVerification : WeaveError → Prop
  | .verification _ => True
  | _ => False

private theorem avoids_orError {α : Type} {excluded : WeaveError → Prop} {error : WeaveError}
    (other : ¬ excluded error) (found : Option α) : Avoids excluded (orError error found) := by
  cases found with
  | none => exact .error other
  | some value => exact .ok value

namespace WeavingContext

variable (context : WeavingContext) (typeIndex propertyIndex : Nat) (type : LocatedType)
  (property : PropertyDef)

private theorem targetType_avoids :
    Avoids WeaveError.IsVerification (context.targetType typeIndex) :=
  avoids_orError id _

private theorem propertyOf_avoids :
    Avoids WeaveError.IsVerification (propertyOf type propertyIndex) :=
  avoids_orError id _

private theorem runtimeType_avoids (fullName : String) :
    Avoids WeaveError.IsVerification (context.runtimeType fullName) :=
  avoids_orError id _

private theorem typeIdentifiers_avoids (definition : TypeDef) :
    Avoids WeaveError.IsVerification (context.typeIdentifiers definition) := by
  refine .mapM fun attr _ => ?_
  split
  · exact .ok _
  · exact .error id

private theorem persistentIdentifier_avoids (definition : TypeDef) :
    Avoids WeaveError.IsVerification (context.persistentIdentifier definition property) := by
  unfold persistentIdentifier
  simp only
  split
  · exact .ok _
  · split
    · exact .ok _
    · exact .ok _
    · exact .error id

private theorem defaultValue_avoids (definition : TypeDef) :
    Avoids WeaveError.IsVerification (context.defaultValue definition property) := by
  unfold defaultValue
  simp only
  split
  · exact .ok _
  · split
    · exact .ok _
    · exact .error id

private theorem checkAccessor_avoids (definition : TypeDef) (accessor : Accessor) (method : Nat) :
    Avoids WeaveError.IsVerification (checkAccessor definition property accessor method) := by
  unfold checkAccessor
  split
  · exact .ok ()
  · exact .error id

private theorem setter_avoids (source : ValueSource) :
    Avoids WeaveError.IsVerification (context.setter type property source) := by
  unfold setter
  exact (avoids_orError id _).bind fun _ => (avoids_orError id _).bind fun _ =>
    (Avoids.mapError fun _ => id).bind fun _ => .ok _

private theorem notifyChanges_avoids :
    Avoids WeaveError.IsVerification (context.notifyChanges typeIndex propertyIndex) := by
  unfold notifyChanges
  refine (context.targetType_avoids typeIndex).bind fun type =>
    (propertyOf_avoids propertyIndex type).bind fun property => ?_
  split
  · exact .ok _
  · exact (checkAccessor_avoids property _ _ _).bind fun _ => (avoids_orError id _).bind fun _ =>
      (context.setter_avoids type property _).bind fun _ => .ok _

private theorem mappingParameter_avoids (mapping : LocatedType) :
    Avoids WeaveError.IsVerification (mappingParameter mapping) := by
  unfold mappingParameter
  split
  · exact .ok _
  · exact .error id

private theorem mappingApi_avoids (mapping : LocatedType) :
    Avoids WeaveError.IsVerification (context.mappingApi type property mapping) := by
  unfold mappingApi
  exact (mappingParameter_avoids mapping).bind fun _ => (avoids_orError id _).bind fun _ =>
    (avoids_orError id _).bind fun _ => .ok _

private theorem defaultCode_avoids :
    Avoids WeaveError.IsVerification (context.defaultCode type property) := by
  unfold defaultCode
  refine (context.defaultValue_avoids property type.definition).bind fun value => ?_
  split
  · exact .ok _
  · exact (avoids_orError id _).bind fun _ => .ok _

private theorem constructorBlock_avoids (mapping : LocatedType) (identifier : String)
    (field : FieldRef) :
    Avoids WeaveError.IsVerification
      (context.constructorBlock type property mapping identifier field) := by
  unfold constructorBlock
  exact (context.defaultCode_avoids type property).bind fun _ =>
    (mappingParameter_avoids mapping).bind fun _ => (avoids_orError id _).bind fun _ => .ok _

private theorem routeThrough_avoids (mapping : LocatedType) (identifier fieldName : String)
    (fieldType : TypeSig) :
    Avoids WeaveError.IsVerification
      (context.routeThrough typeIndex type property mapping identifier fieldName fieldType) := by
  unfold routeThrough
  exact (context.mappingApi_avoids type property mapping).bind fun _ =>
    (Avoids.mapM fun _ _ => (context.setter_avoids type property _).bind fun _ => .ok _).bind
      fun _ => (context.constructorBlock_avoids type property mapping identifier _).bind
        fun _ => .ok _

private theorem mapProperty_avoids :
    Avoids WeaveError.IsVerification (context.mapProperty typeIndex propertyIndex) := by
  unfold mapProperty
  refine (context.targetType_avoids typeIndex).bind fun type =>
    (propertyOf_avoids propertyIndex type).bind fun property =>
      (context.persistentIdentifier_avoids property type.definition).bind fun identifier => ?_
  split
  · exact .ok _
  · refine (Avoids.forM fun _ _ => checkAccessor_avoids property _ _ _).bind fun _ =>
      (Avoids.forM fun _ _ => checkAccessor_avoids property _ _ _).bind fun _ =>
        (context.runtimeType_avoids _).bind fun mapping => ?_
    simp only
    split
    · exact context.routeThrough_avoids _ _ _ _ _ _ _
    · split
      · exact .ok _
      · exact .error id

private theorem overrideQuery_avoids :
    Avoids WeaveError.IsVerification (context.overrideQuery typeIndex) := by
  unfold overrideQuery
  refine (context.targetType_avoids typeIndex).bind fun type =>
    (context.typeIdentifiers_avoids type.definition).bind fun own => ?_
  split
  · split
    · exact .ok _
    · exact .error id
  · exact (Avoids.mapM fun level _ => context.typeIdentifiers_avoids level.definition).bind fun _ =>
      (avoids_orError id _).bind fun _ => (context.runtimeType_avoids _).bind fun _ =>
        (avoids_orError id _).bind fun _ => (Avoids.mapError fun _ => id).bind fun _ => .ok _

end WeavingContext

/-- No task fails by a verification error. -/
theorem Task.execute_avoids (context : WeavingContext) (task : Task) :
    Avoids WeaveError.IsVerification (task.execute context) := by
  cases task with
  | mappedProperty type property => exact context.mapProperty_avoids type property
  | changeNotification type property => exact context.notifyChanges_avoids type property
  | typeHierarchy type => exact context.overrideQuery_avoids type

theorem WeavingState.runTask_avoids (resolver : Resolver) (configuration : Configuration)
    (state : WeavingState) (task : Task) :
    Avoids WeaveError.IsVerification (runTask resolver configuration state task) := by
  unfold runTask
  simp only
  split
  · exact (Task.execute_avoids _ task).bind fun _ => .ok _
  · exact .ok _

end PropertyWeaver
