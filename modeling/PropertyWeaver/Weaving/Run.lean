import PropertyWeaver.Weaving.File

/-!
# Runs that may crash

An edit that reaches for a type or a method that is not there, or that inserts behind the end of a body,
ends the program without an answer. A run of the pass looks at every edit before it is applied. As long
as all of them are in range, it does what weaving does.
-/

set_option autoImplicit false

namespace PropertyWeaver

/-- Why a run ends early: a task or the check of a body has failed, or an index was out of range. -/
inductive Halt where
  | failure (error : WeaveError)
  | crash

namespace WeavingState

variable (resolver : Resolver) (configuration : Configuration)

def hasMethod (state : WeavingState) (type method : Nat) : Bool :=
  (state.module.types[type]?.bind fun definition => definition.methods[method]?).isSome

/-- Whether the indices of an edit are in range. A prelude has its place in the body of its constructor;
one for a constructor without a body is not put anywhere. -/
def reaches (type : Nat) (state : WeavingState) : Edit → Bool
  | .replaceBody method _ => state.hasMethod type method
  | .prependToConstructor method _ _ =>
      state.hasMethod type method &&
        (state.body? type method).all fun body =>
          state.cursors (type, method) ≤ body.instructions.length
  | .addField _ | .removeField _ | .addMethod _ => type < state.module.types.length

def reachesAll (type : Nat) (state : WeavingState) : List Edit → Bool
  | [] => true
  | edit :: edits => state.reaches type edit && reachesAll type (applyEdit type state edit) edits

def attempt (state : WeavingState) (edit : TypeEdit) : Except Halt WeavingState :=
  if state.reachesAll edit.type edit.edits then .ok (state.apply edit) else .error .crash

def attemptTask (state : WeavingState) (task : Task) : Except Halt WeavingState :=
  let context := WeavingContext.ofModule state.module resolver configuration
  if task.canExecute context then do
    let edit ← (task.execute context).mapError .failure
    if edit.edits.isEmpty then return state else state.attempt edit
  else
    .ok state

def attemptVerify (state : WeavingState) (typeIndex : Nat) : Except Halt Unit :=
  if state.touched.all (state.hasMethod typeIndex) then
    (state.verifyTouched typeIndex).mapError .failure
  else
    .error .crash

def attemptType (state : WeavingState) (typeIndex : Nat) : Except Halt WeavingState := do
  let plan := state.module.plan configuration typeIndex
  let state ← plan.foldlM (attemptTask resolver configuration) { state with touched := [] }
  if configuration.verify then
    state.attemptVerify typeIndex
  return state

end WeavingState

/-- The pass over a module, with the crashes that it may come to. -/
def Module.run (resolver : Resolver) (configuration : Configuration) (module : Module) :
    Except Halt (Module × WeaveReport) :=
  if module.isInstrumented then
    .ok (module, { WeaveReport.initial module.name with alreadyInstrumented := true })
  else do
    let state ← module.baseFirstOrder.foldlM (WeavingState.attemptType resolver configuration)
      (WeavingState.initial module)
    return (state.module.markInstrumented, state.report)

def Module.crashes (resolver : Resolver) (configuration : Configuration) (module : Module) : Bool :=
  module.run resolver configuration matches .error .crash

/-- Whether weaving the module in a file comes to a crash. Nothing has been written by then. -/
def weaveFileCrashes (files : FileSystem) (resolver : Resolver) (configuration : Configuration)
    (path : String) : Bool :=
  match files.readModule path with
  | .error _ => false
  | .ok module =>
      match resolver.preload files module configuration with
      | (.error _, _) => false
      | (.ok (), resolver) => module.crashes resolver configuration

end PropertyWeaver
