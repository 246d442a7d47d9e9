import PropertyWeaver.Proofs.Execution.Instructions
import PropertyWeaver.Proofs.Weaving.Verified

/-!
# What notifying setters do

A synthesized setter runs to its return on every object and every incoming value. If the current
value is equal to the incoming one, it has done nothing but read and compare; otherwise it has
stored the incoming value once and then called the notification method once.
-/

set_option autoImplicit false

namespace PropertyWeaver

open Execution

variable {World : Type}

namespace ValueSource

/-- The current value of a property: the content of its field, or what the runtime reads through the
mapping field. -/
def current (runtime : Runtime World) (object : Nat) (history : History World) :
    ValueSource → Value × History World
  | .field member => (history.memory.field object member, history)
  | .mapping member getValue _ =>
      history.call runtime .virtual getValue
        [.object object, history.memory.field object member]

/-- Gives a property another value, in its field or through the mapping field. -/
def assign (runtime : Runtime World) (object : Nat) (value : Value) (history : History World) :
    ValueSource → History World
  | .field member => history.store object member value
  | .mapping member _ setValue =>
      (history.call runtime .virtual setValue
        [.object object, history.memory.field object member, value]).2

/-- The calls by which the current value is read. -/
def reading (object : Nat) (memory : Memory World) : ValueSource → List Event
  | .field _ => []
  | .mapping member getValue _ =>
      [.call .virtual getValue [.object object, memory.field object member]]

def assignment (object : Nat) (value : Value) (memory : Memory World) : ValueSource → Event
  | .field member => .store object member value
  | .mapping member _ setValue =>
      .call .virtual setValue [.object object, memory.field object member, value]

/-- Reading the value leaves the memory alone. -/
def Quiet (runtime : Runtime World) : ValueSource → Prop
  | .field _ => True
  | .mapping _ getValue _ => ∀ arguments memory,
      (runtime.call .virtual getValue arguments memory).2 = memory

end ValueSource

namespace Equality

/-- Whether two values are equal: to the machine, or to the method that compares them. -/
def holds (runtime : Runtime World) (left right : Value) (history : History World) :
    Equality → Bool × History World
  | .primitive => (runtime.equal left right, history)
  | .method member =>
      let answer := history.call runtime .direct member [left, right]
      (answer.1 ≠ .int32 0, answer.2)

def comparison (left right : Value) : Equality → List Event
  | .primitive => []
  | .method member => [.call .direct member [left, right]]

/-- Comparing values leaves the memory alone. -/
def Quiet (runtime : Runtime World) : Equality → Prop
  | .primitive => True
  | .method member => ∀ arguments memory,
      (runtime.call .direct member arguments memory).2 = memory

def Boolean : Equality → Prop
  | .primitive => True
  | .method member => member.returnType = .builtin .bool

end Equality

/-- What a setter finds out before it stores anything: whether the current value of the property is
equal to the incoming one. -/
def ValueSource.holds (source : ValueSource) (equality : Equality) (runtime : Runtime World)
    (object : Nat) (value : Value) (memory : Memory World) : Bool × History World :=
  let current := source.current runtime object (.start memory)
  equality.holds runtime current.1 value current.2

def ValueSource.queries (source : ValueSource) (equality : Equality) (runtime : Runtime World)
    (object : Nat) (value : Value) (memory : Memory World) : List Event :=
  source.reading object memory ++
    equality.comparison (source.current runtime object (.start memory)).1 value

section Histories

variable (source : ValueSource) (equality : Equality) (runtime : Runtime World) (object : Nat)
  (value : Value) (memory : Memory World)

private theorem events_holds : (source.holds equality runtime object value memory).2.events =
    source.queries equality runtime object value memory := by
  cases source <;> cases equality <;> rfl

private theorem events_assign (history : History World) :
    (source.assign runtime object value history).events =
      history.events ++ [source.assignment object value history.memory] := by
  cases source <;> rfl

private theorem ValueSource.Quiet.current {source : ValueSource} {runtime : Runtime World}
    (quiet : source.Quiet runtime) (history : History World) :
    (source.current runtime object history).2.memory = history.memory := by
  cases source with
  | field _ => rfl
  | mapping _ _ _ => exact quiet _ _

private theorem Equality.Quiet.holds {equality : Equality} {runtime : Runtime World}
    (quiet : equality.Quiet runtime) (left right : Value) (history : History World) :
    (equality.holds runtime left right history).2.memory = history.memory := by
  cases equality with
  | primitive => rfl
  | method _ => exact quiet _ _

end Histories

/-! ## The code of a setter -/

/-- The comparison in front of the branches, and its negation. -/
def Equality.guard (equality : Equality) : List Instruction :=
  [Opcode.ldarg1.plain, equality.compare, .pushInt32 0, Opcode.ceq.plain]

/-- The notification behind the store. -/
def MethodRef.raise (notify : MethodRef) (name : String) : List Instruction :=
  [Opcode.ldarg0.plain, .pushString name, ⟨.callvirt, .method notify⟩]

namespace ValueSource

def storeIndex (source : ValueSource) : Nat := source.load.length + 6

def exitIndex (source : ValueSource) : Nat := source.storeIndex + source.store.length + 3

end ValueSource

section Code

variable (source : ValueSource) (equality : Equality) (notify : MethodRef) (name : String)

private theorem setterCode_eq_guarded : ∃ rest, setterCode source equality notify name =
    [] ++ ((source.load ++ equality.guard) ++ rest) := by
  refine ⟨(setterCode source equality notify name).drop (source.load.length + 4), ?_⟩
  cases source <;> rfl

private theorem setterCode_eq_stored : ∃ before, before.length = source.storeIndex ∧
    setterCode source equality notify name =
      before ++ ((source.store ++ notify.raise name) ++ [Opcode.ret.plain]) := by
  refine ⟨(setterCode source equality notify name).take source.storeIndex, ?_, ?_⟩
  · cases source <;> rfl
  · cases source <;> rfl

private theorem setterCode_brtrue :
    (setterCode source equality notify name)[source.load.length + 4]? =
    some ⟨.brtrue, .branch (.ofNat source.storeIndex)⟩ := by
  cases source <;> rfl

private theorem setterCode_br : (setterCode source equality notify name)[source.load.length + 5]? =
    some ⟨.br, .branch (.ofNat source.exitIndex)⟩ := by
  cases source <;> rfl

private theorem setterCode_ret : (setterCode source equality notify name)[source.exitIndex]? =
    some Opcode.ret.plain := by
  cases source <;> rfl

private theorem toNat_storeIndex : (UInt64.ofNat source.storeIndex).toNat = source.storeIndex := by
  cases source <;> rfl

private theorem toNat_exitIndex : (UInt64.ofNat source.exitIndex).toNat = source.exitIndex := by
  cases source <;> rfl

end Code

namespace Execution.Activation

variable {activation : Activation World} {stack : List Value} {locals : List Value}
  {history : History World} {object : Nat} {value : Value} {source : ValueSource}
  {equality : Equality}

/-! ## The parts of a setter -/

private theorem foldlM_load (given : activation.arguments = [.object object, value])
    (accessible : source.Accessible) :
    source.load.foldlM activation.perform ⟨stack, locals, history⟩ =
      some ⟨(source.current activation.runtime object history).1 :: stack, locals,
        (source.current activation.runtime object history).2⟩ := by
  have receiver : activation.arguments[0]? = some (.object object) := by rw [given]; rfl
  cases source with
  | field member =>
      simp only [ValueSource.load, List.foldlM_cons, List.foldlM_nil, perform_ldarg0 receiver,
        perform_ldfld, Option.bind_eq_bind, Option.bind_some]
      rfl
  | mapping member getValue setValue =>
      have reads : activation.perform
          ⟨history.memory.field object member :: .object object :: stack, locals, history⟩
          ⟨.callvirt, .method getValue⟩ = _ :=
        perform_callvirt [.object object, history.memory.field object member] accessible.1
          (by simp)
      simp only [ValueSource.load, List.foldlM_cons, List.foldlM_nil, perform_ldarg0 receiver,
        perform_ldfld, reads, Option.bind_eq_bind, Option.bind_some]
      rfl

private theorem foldlM_store (given : activation.arguments = [.object object, value])
    (accessible : source.Accessible) :
    source.store.foldlM activation.perform ⟨stack, locals, history⟩ =
      some ⟨stack, locals, source.assign activation.runtime object value history⟩ := by
  have receiver : activation.arguments[0]? = some (.object object) := by rw [given]; rfl
  have incoming : activation.arguments[1]? = some value := by rw [given]; rfl
  cases source with
  | field member =>
      simp only [ValueSource.store, List.foldlM_cons, List.foldlM_nil, perform_ldarg0 receiver,
        perform_ldarg1 incoming, perform_stfld, Option.bind_eq_bind, Option.bind_some]
      rfl
  | mapping member getValue setValue =>
      have writes : activation.perform
          ⟨value :: history.memory.field object member :: .object object :: stack, locals, history⟩
          ⟨.callvirt, .method setValue⟩ = _ :=
        perform_callvirt_void [.object object, history.memory.field object member, value]
          accessible.2 (by simp)
      simp only [ValueSource.store, List.foldlM_cons, List.foldlM_nil, perform_ldarg0 receiver,
        perform_ldarg1 incoming, perform_ldfld, writes, Option.bind_eq_bind, Option.bind_some]
      rfl

private theorem perform_compare (activation : Activation World) (stack locals : List Value)
    (history : History World) (comparing : equality.Comparing) (boolean : equality.Boolean)
    (left right : Value) :
    ∃ word, (equality.holds activation.runtime left right history).1 = decide (word ≠ 0) ∧
      activation.perform ⟨right :: left :: stack, locals, history⟩ equality.compare =
        some ⟨.int32 word :: stack, locals,
          (equality.holds activation.runtime left right history).2⟩ := by
  cases equality with
  | primitive =>
      refine ⟨_, ?_, perform_ceq left right⟩
      cases same : activation.runtime.equal left right <;>
        simp [Equality.holds, same]
  | method member =>
      obtain ⟨word, answer⟩ := activation.runtime.call_bool .direct member [left, right]
        history.memory boolean
      have answer : (history.call activation.runtime .direct member [left, right]).1 =
        .int32 word := answer
      have calls : activation.perform ⟨right :: left :: stack, locals, history⟩
          ⟨.call, .method member⟩ = _ := perform_call [left, right] comparing
      rw [answer] at calls
      refine ⟨word, ?_, calls⟩
      simp [Equality.holds, answer]

/-- The guard turns the answer around: it leaves a one if there is something to store. -/
theorem foldlM_guard (given : activation.arguments = [.object object, value])
    (comparing : equality.Comparing) (boolean : equality.Boolean) (current : Value) :
    equality.guard.foldlM activation.perform ⟨current :: stack, locals, history⟩ =
      some ⟨.int32 (if (equality.holds activation.runtime current value history).1 then 0 else 1) ::
        stack, locals, (equality.holds activation.runtime current value history).2⟩ := by
  have incoming : activation.arguments[1]? = some value := by rw [given]; rfl
  obtain ⟨word, same, compares⟩ :=
    perform_compare activation stack locals history comparing boolean current value
  simp only [Equality.guard, List.foldlM_cons, List.foldlM_nil, perform_ldarg1 incoming, compares,
    perform_pushInt32, perform_ceq, activation.runtime.equal_int32, Option.bind_eq_bind,
    Option.bind_some]
  by_cases zero : word = 0 <;> simp [same, zero]

private theorem foldlM_raise (given : activation.arguments = [.object object, value])
    {notify : MethodRef} (notifies : notify.Exchanges 2 0) (name : String) :
    (notify.raise name).foldlM activation.perform ⟨stack, locals, history⟩ =
      some ⟨stack, locals,
        (history.call activation.runtime .virtual notify [.object object, .string name]).2⟩ := by
  have receiver : activation.arguments[0]? = some (.object object) := by rw [given]; rfl
  have calls : activation.perform ⟨.string name :: .object object :: stack, locals, history⟩
      ⟨.callvirt, .method notify⟩ = _ :=
    perform_callvirt_void [.object object, .string name] notifies (by simp)
  simp only [MethodRef.raise, List.foldlM_cons, List.foldlM_nil, perform_ldarg0 receiver,
    perform_pushString, calls, Option.bind_eq_bind, Option.bind_some]
  rfl

/-! ## The whole setter -/

section

variable {maxStack : UInt16} {notify : MethodRef} {name : String}
  (code : activation.body = .ofCode maxStack (setterCode source equality notify name))
  (given : activation.arguments = [.object object, value]) (accessible : source.Accessible)

include code

private theorem instructions_setter :
    activation.body.instructions = setterCode source equality notify name := by
  rw [code]
  rfl

/-- The branches lead to the return if the values are equal, and to the store otherwise. -/
theorem runs_branch (equal : Bool) :
    activation.Runs
      ⟨source.load.length + 4, .int32 (if equal then 0 else 1) :: stack, locals, history⟩
      ⟨if equal then source.exitIndex else source.storeIndex, stack, locals, history⟩ := by
  have instructions := instructions_setter code
  have tests : activation.step
      ⟨source.load.length + 4, .int32 (if equal then 0 else 1) :: stack, locals, history⟩ = _ :=
    step_brtrue _ (instructions ▸ setterCode_brtrue source equality notify name)
  have exits : activation.step ⟨source.load.length + 5, stack, locals, history⟩ = _ :=
    step_br (instructions ▸ setterCode_br source equality notify name)
  rw [toNat_storeIndex] at tests
  rw [toNat_exitIndex] at exits
  cases equal with
  | true => exact .tail (.single tests) exits
  | false => exact .single tests

include given accessible

private theorem runs_guard (comparing : equality.Comparing) (boolean : equality.Boolean)
    (memory : Memory World) :
    activation.Runs (activation.start memory) ⟨source.load.length + 4,
      [.int32 (if (source.holds equality activation.runtime object value memory).1 then 0 else 1)],
      [], (source.holds equality activation.runtime object value memory).2⟩ := by
  obtain ⟨rest, split⟩ := setterCode_eq_guarded source equality notify name
  have begins : activation.start memory = ⟨0, [], [], .start memory⟩ := by
    rw [start, code]
    rfl
  have loaded : source.load.foldlM activation.perform ⟨[], [], .start memory⟩ = _ :=
    foldlM_load given accessible
  have runs := runs_of_foldlM ((instructions_setter code).trans split)
    (foldlM_perform_append loaded (foldlM_guard given comparing boolean _))
  have length : ([] : List Instruction).length + (source.load ++ equality.guard).length =
      source.load.length + 4 := by
    simp [Equality.guard]
  rw [length] at runs
  rw [begins]
  exact runs

private theorem runs_store (notifies : notify.Exchanges 2 0) :
    activation.Runs ⟨source.storeIndex, stack, locals, history⟩ ⟨source.exitIndex, stack, locals,
      ((source.assign activation.runtime object value history).call activation.runtime .virtual
        notify [.object object, .string name]).2⟩ := by
  obtain ⟨before, length, split⟩ := setterCode_eq_stored source equality notify name
  have stored : source.store.foldlM activation.perform ⟨stack, locals, history⟩ = _ :=
    foldlM_store given accessible
  have runs := runs_of_foldlM ((instructions_setter code).trans split)
    (foldlM_perform_append stored (foldlM_raise given notifies name))
  have length' : before.length + (source.store ++ notify.raise name).length = source.exitIndex := by
    simp [length, MethodRef.raise, ValueSource.exitIndex, Nat.add_assoc]
  rw [length', length] at runs
  exact runs

/-- From its first instruction a setter runs to its return, with an empty stack: past the store if
the values are equal, through it otherwise. -/
theorem setterCode_returns (comparing : equality.Comparing) (boolean : equality.Boolean)
    (notifies : notify.Exchanges 2 0) (memory : Memory World) :
    let found := source.holds equality activation.runtime object value memory
    (found.1 = true → activation.Returns memory ⟨source.exitIndex, [], [], found.2⟩) ∧
      (found.1 = false → activation.Returns memory ⟨source.exitIndex, [], [],
        ((source.assign activation.runtime object value found.2).call activation.runtime .virtual
          notify [.object object, .string name]).2⟩) := by
  intro found
  have guarded := runs_guard code given accessible comparing boolean memory
  have branched := guarded.trans (runs_branch code _)
  have stops : ∃ instruction, activation.body.instructions[source.exitIndex]? = some instruction ∧
      instruction.opcode = .ret :=
    ⟨_, instructions_setter code ▸ setterCode_ret source equality notify name, rfl⟩
  refine ⟨fun same => ⟨?_, stops⟩, fun different => ⟨?_, stops⟩⟩
  · rw [same] at branched
    exact branched
  · rw [different] at branched
    exact branched.trans (runs_store code given accessible notifies)

end

end Execution.Activation

/-! ## Synthesized setters -/

namespace WeavingContext

variable {context : WeavingContext} {type : LocatedType} {property : PropertyDef}
  {source : ValueSource} {body : MethodBody}

/-- The sources of the setters that tasks synthesize: a field, or a mapping field with the methods
that are found for it and that have the documented shape. -/
def Provides (context : WeavingContext) (type : LocatedType) (property : PropertyDef) :
    ValueSource → Prop
  | .field _ => True
  | .mapping _ getValue setValue => ∃ mapping api,
      context.mappingApi type property mapping = .ok api ∧
      getValue = api.getValue.instantiate [property.propertyType] ∧
      setValue = api.setValue.instantiate [property.propertyType] ∧
      api.getValue.definition.isStatic = false ∧ api.getValue.definition.returnsValue = true ∧
      api.setValue.definition.isStatic = false ∧ api.setValue.definition.returnsValue = false

private theorem Provides.accessible (provides : context.Provides type property source) :
    source.Accessible := by
  cases source with
  | field _ => trivial
  | mapping field getValue setValue =>
      obtain ⟨mapping, api, found, rfl, rfl, instanceGet, returns, instanceSet, void⟩ := provides
      obtain ⟨parameter, _, reads, writes⟩ := mappingApi_eq_ok.mp found
      exact ⟨Metadata.exchanges_of_inheritedGenericMethod? _ reads instanceGet returns,
        Metadata.exchanges_of_inheritedGenericMethod? _ writes instanceSet void⟩

/-- What the setter of a property calls has the documented shape: the notification method is an
instance method that returns nothing, and the comparison, if it is a method, returns a boolean. -/
structure Documented (context : WeavingContext) (type : LocatedType) (property : PropertyDef)
    (source : ValueSource) : Prop where
  provides : context.Provides type property source
  notifies : ∀ notify, context.metadata.inheritedMethod? type
      context.configuration.runtime.raisePropertyChanged ["System.String"] = some notify →
    notify.definition.isStatic = false ∧ notify.definition.returnsValue = false
  compares : ∀ member, context.metadata.equality? (source.valueType property.propertyType)
      context.configuration.runtime.equals context.configuration.runtime.rootObject =
        some (.method member) →
    member.returnType = .builtin .bool

/-- A synthesized setter terminates with an empty stack on every object, value and runtime. If the
current value is equal to the incoming one it has only read and compared, and the memory is as
before unless reading or comparing changes it. Otherwise it has assigned the incoming value once and
then called the notification method once, on the object and with the name of the property. -/
theorem setter_returns (made : context.setter type property source = .ok body)
    (documented : context.Documented type property source) (runtime : Runtime World)
    (memory : Memory World) (object : Nat) (value : Value) :
    ∃ equality notify final,
      context.metadata.equality? (source.valueType property.propertyType)
        context.configuration.runtime.equals context.configuration.runtime.rootObject =
          some equality ∧
      context.metadata.inheritedMethod? type context.configuration.runtime.raisePropertyChanged
        ["System.String"] = some notify ∧
      (⟨runtime, body, [.object object, value]⟩ : Activation World).Returns memory final ∧
      final.frame.stack = [] ∧
      let found := source.holds equality runtime object value memory
      let queries := source.queries equality runtime object value memory
      (found.1 = true → final.frame.history = found.2 ∧ found.2.events = queries ∧
        (source.Quiet runtime → equality.Quiet runtime → found.2.memory = memory)) ∧
      (found.1 = false →
        final.frame.history =
          ((source.assign runtime object value found.2).call runtime .virtual notify.methodRef
            [.object object, .string property.name]).2 ∧
        final.frame.history.events = queries ++
          [source.assignment object value found.2.memory,
            .call .virtual notify.methodRef [.object object, .string property.name]]) := by
  obtain ⟨equality, notify, decides, notifies, code⟩ := setter_eq_ok.mp made
  obtain ⟨instanceMethod, void⟩ := documented.notifies notify notifies
  have raises := Metadata.exchanges_of_inheritedMethod? notifies instanceMethod void
  have boolean : equality.Boolean := by
    cases equality with
    | primitive => trivial
    | method member => exact documented.compares member decides
  have comparing : equality.Comparing := by
    cases equality with
    | primitive => trivial
    | method member =>
        refine Metadata.exchanges_of_equality? decides ?_
        rw [MethodRef.returnsValue, boolean]
        rfl
  obtain ⟨stays, changes⟩ := Activation.setterCode_returns
    (show (⟨runtime, body, [.object object, value]⟩ : Activation World).body = _ from code) rfl
    documented.provides.accessible comparing boolean raises memory
  have events := events_holds source equality runtime object value memory
  cases same : (source.holds equality runtime object value memory).1 with
  | true =>
      refine ⟨equality, notify, _, decides, notifies, stays same, rfl, fun _ => ?_,
        fun different => absurd (same.symm.trans different) (by decide)⟩
      refine ⟨rfl, events, fun reads compares => ?_⟩
      exact (compares.holds _ _ _).trans (reads.current _ _)
  | false =>
      refine ⟨equality, notify, _, decides, notifies, changes same, rfl,
        fun equal => absurd (same.symm.trans equal) (by decide), fun _ => ⟨rfl, ?_⟩⟩
      rw [← events]
      have assigned := events_assign source runtime object value
        (source.holds equality runtime object value memory).2
      simp [History.call, assigned]

/-! A runtime to run a setter with: it keeps one value for each mapping object, and its methods
compare values as they are. -/

def sampleCall (method : MethodRef) (arguments : List Value) (memory : Memory (Value → Value)) :
    Value × Memory (Value → Value) :=
  if method.returnType = .builtin .bool then
    (.int32 (if arguments[0]? = arguments[1]? then 1 else 0), memory)
  else
    match method.name, arguments with
    | "GetValue", [_, mapping] => (memory.world mapping, memory)
    | "SetValue", [_, mapping, value] =>
        (.null, { memory with
          world := fun other => if other = mapping then value else memory.world other })
    | _, _ => (.null, memory)

def sampleCalls : Runtime (Value → Value) where
  equal left right := decide (left = right)
  call _ := sampleCall
  box _ value memory := (value, memory)
  equal_int32 left right := by simp
  call_bool kind method arguments memory boolean := by
    refine ⟨if arguments[0]? = arguments[1]? then 1 else 0, ?_⟩
    unfold sampleCall
    rw [if_pos boolean]

def sampleApi : MappingApi :=
  let entity : LocatedType := ⟨Module.sampleEntityType, some "Semweave.Runtime"⟩
  let method (index : Nat) : LocatedMethod := ⟨entity, index, entity.definition.methods[index]!⟩
  ⟨method 0, method 1⟩

def sampleSource : ValueSource :=
  .mapping ⟨(⟨Module.sampleCounter, none⟩ : LocatedType).sig, "CountMapping",
      .instantiated ⟨some "Semweave.Runtime", "Semweave.Mapping", "PropertyMapping`1"⟩ false
        [.builtin .int32]⟩
    (sampleApi.getValue.instantiate [.builtin .int32])
    (sampleApi.setValue.instantiate [.builtin .int32])

def sampleRaise : LocatedMethod :=
  ⟨⟨Module.sampleEntityType, some "Semweave.Runtime"⟩, 2, Module.sampleEntityType.methods[2]!⟩

theorem setter_returns_sampleCount :
    let context := WeavingContext.ofModule Module.sampleModule Module.sampleResolver {}
    let type : LocatedType := ⟨Module.sampleCounter, none⟩
    let body : MethodBody := .ofCode 4
      (setterCode sampleSource .primitive sampleRaise.methodRef "Count")
    context.setter type Module.sampleCount sampleSource = .ok body ∧
      context.Documented type Module.sampleCount sampleSource ∧
      ∀ memory object value, ∃ final,
        (⟨sampleCalls, body, [.object object, value]⟩ : Activation _).Returns memory final ∧
          final.frame.stack = [] := by
  intro context type body
  have raise : context.metadata.inheritedMethod? type "RaisePropertyChanged" ["System.String"] =
      some sampleRaise := by decide
  have made : context.setter type Module.sampleCount sampleSource = .ok body :=
    setter_eq_ok.mpr ⟨.primitive, sampleRaise, by decide, raise, rfl⟩
  have documented : context.Documented type Module.sampleCount sampleSource := {
    provides := by
      refine ⟨⟨Module.sampleMappingType, some "Semweave.Runtime"⟩, sampleApi, ?_, rfl, rfl, ?_⟩
      · exact mappingApi_eq_ok.mpr ⟨"T", rfl, by decide, by decide⟩
      · decide
    notifies := by
      intro notify found
      obtain rfl := Option.some.inj (raise.symm.trans found)
      decide
    compares := by
      intro member found
      have primitive : context.metadata.equality? (.builtin .int32) "Equals" "System.Object" =
        some .primitive := by decide
      cases primitive.symm.trans found }
  refine ⟨made, documented, fun memory object value => ?_⟩
  obtain ⟨_, _, final, _, _, returns, empty, _⟩ :=
    setter_returns made documented sampleCalls memory object value
  exact ⟨final, returns, empty⟩

end WeavingContext

end PropertyWeaver
