import PropertyWeaver.Weaving.Plan

/-!
# The weaving pass

The types of a module are visited base first. Each task runs against the module as the tasks before
it have left it, and its edits are applied before the next task runs. A pass that fails anywhere has
no result.
-/

set_option autoImplicit false

namespace PropertyWeaver

structure WeaveReport where
  module : String
  alreadyInstrumented : Bool
  fieldsInjected : Nat
  fieldsRemoved : Nat
  methodsAdded : Nat
  constructorsPatched : Nat
  members : List WovenMember
  deriving DecidableEq, Repr

namespace WeaveReport

def initial (module : String) : WeaveReport := ⟨module, false, 0, 0, 0, 0, []⟩

def isEmpty (report : WeaveReport) : Bool := report.members.isEmpty

end WeaveReport

/-- The state of a pass: the module so far, the number of prelude instructions at the start of each
constructor, the methods of the current type whose bodies have changed, and the report. -/
structure WeavingState where
  module : Module
  cursors : Nat × Nat → Nat
  touched : List Nat
  report : WeaveReport

namespace WeavingState

def initial (module : Module) : WeavingState :=
  ⟨module, fun _ => 0, [], .initial module.name⟩

def importScopes (state : WeavingState) (scopes : List String) : WeavingState :=
  { state with module := state.module.addReferences scopes }

def body? (state : WeavingState) (type method : Nat) : Option MethodBody := do
  let definition ← state.module.types[type]?
  let method ← definition.methods[method]?
  method.body

def setBody (state : WeavingState) (type method : Nat) (body : MethodBody) : WeavingState :=
  { state with
    module := state.module.modifyType type fun definition =>
      definition.modifyMethod method fun old => { old with body := some body }
    touched := method :: state.touched }

/-- Puts a prelude behind those that the constructor already has, so that fields are initialised in
the order of their properties. A constructor without a body is left alone. -/
def prepend (state : WeavingState) (type method : Nat) (block : List Instruction)
    (maxStack : UInt16) : WeavingState :=
  match state.body? type method with
  | none => state
  | some body =>
      let cursor := state.cursors (type, method)
      let extended :=
        { body.insert cursor block with maxStack := max body.maxStack maxStack }
      let state := state.setBody type method extended
      { state with
        cursors := fun key =>
          if key = (type, method) then cursor + block.length else state.cursors key
        report :=
          { state.report with constructorsPatched := state.report.constructorsPatched + 1 } }

def addField (state : WeavingState) (type : Nat) (field : FieldDef) : WeavingState :=
  { state with
    module := state.module.modifyType type fun definition =>
      { definition with fields := definition.fields ++ [field] }
    report := { state.report with fieldsInjected := state.report.fieldsInjected + 1 } }

/-- Takes every field of a name out of a type. However many there are, one removal is counted. -/
def removeField (state : WeavingState) (type : Nat) (name : String) : WeavingState :=
  let present := state.module.types[type]?.any fun definition => (definition.field? name).isSome
  { state with
    module := state.module.modifyType type fun definition =>
      { definition with fields := definition.fields.filter fun field => field.name ≠ name }
    report :=
      { state.report with
        fieldsRemoved := state.report.fieldsRemoved + (if present then 1 else 0) } }

def addMethod (state : WeavingState) (type : Nat) (method : MethodDef) : WeavingState :=
  let index := (state.module.types[type]?.map fun definition => definition.methods.length).getD 0
  { state with
    module := state.module.modifyType type (·.addMethod method)
    touched := index :: state.touched
    report := { state.report with methodsAdded := state.report.methodsAdded + 1 } }

end WeavingState

def Edit.scopes : Edit → List String
  | .replaceBody _ body => body.instructions.flatMap Instruction.scopes
  | .prependToConstructor _ block _ => block.flatMap Instruction.scopes
  | .addField field => field.fieldType.scopes
  | .removeField _ => []
  | .addMethod method =>
      let body := method.body.getD .empty
      method.returnType.scopes ++ body.locals.flatMap TypeSig.scopes ++
        body.instructions.flatMap Instruction.scopes

namespace WeavingState

/-- Applies one edit to a type. The scopes it brings are listed in any case. -/
def applyEdit (type : Nat) (state : WeavingState) (edit : Edit) : WeavingState :=
  let state := state.importScopes edit.scopes
  match edit with
  | .replaceBody method body => state.setBody type method body
  | .prependToConstructor method block maxStack => state.prepend type method block maxStack
  | .addField field => state.addField type field
  | .removeField name => state.removeField type name
  | .addMethod method => state.addMethod type method

def apply (state : WeavingState) (edit : TypeEdit) : WeavingState :=
  let state := edit.edits.foldl (applyEdit edit.type) state
  { state with
    report := { state.report with members := state.report.members ++ edit.woven.toList } }

/-- Runs one task against the module so far. A task that does not apply, or has no edits, changes
nothing. -/
def runTask (resolver : Resolver) (configuration : Configuration) (state : WeavingState)
    (task : Task) : Except WeaveError WeavingState :=
  let context := WeavingContext.ofModule state.module resolver configuration
  if task.canExecute context then do
    let edit ← task.execute context
    return if edit.edits.isEmpty then state else state.apply edit
  else
    .ok state

/-- Checks the methods of a type whose bodies have changed, the one changed last first. They are a set, so
which one is named if several fail is an arbitrary choice. -/
def verifyTouched (state : WeavingState) (typeIndex : Nat) : Except WeaveError Unit :=
  match state.module.types[typeIndex]? with
  | none => .ok ()
  | some type =>
      state.touched.forM fun index =>
        match type.methods[index]? with
        | none => .ok ()
        | some method => (type.verifyMethod method).mapError .verification

def weaveType (resolver : Resolver) (configuration : Configuration) (state : WeavingState)
    (typeIndex : Nat) : Except WeaveError WeavingState := do
  let plan := state.module.plan configuration typeIndex
  let state ← plan.foldlM (runTask resolver configuration) { state with touched := [] }
  if configuration.verify then
    state.verifyTouched typeIndex
  return state

end WeavingState

namespace Module

/-- Weaves a module. One that has been woven before is returned as it is, and the report says so.
The modules it refers to have to be at hand. -/
def weave (resolver : Resolver) (configuration : Configuration) (module : Module) :
    Except WeaveError (Module × WeaveReport) :=
  if module.isInstrumented then
    .ok (module, { WeaveReport.initial module.name with alreadyInstrumented := true })
  else do
    let state ← module.baseFirstOrder.foldlM (WeavingState.weaveType resolver configuration)
      (WeavingState.initial module)
    return (state.module.markInstrumented, state.report)

end Module

end PropertyWeaver
