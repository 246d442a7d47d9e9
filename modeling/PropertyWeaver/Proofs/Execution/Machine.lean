import Mathlib.Logic.Relation
import PropertyWeaver.Verification.Effect

/-!
# The stack machine

What code does when it runs. An activation has a stack, arguments and locals, and works on a memory
that it shares with the runtime. Whatever a call does is left to the runtime; the machine keeps a
record of what the code itself has done, call by call and store by store.
-/

set_option autoImplicit false

namespace PropertyWeaver.Execution

/-- Values of the machine. Objects and arrays are given by address; booleans and the small integers
are 32-bit words, and a 64-bit word has no sign. -/
inductive Value where
  | null
  | int32 (value : Int32)
  | int64 (value : Int64)
  | float32 (value : Binary32)
  | float64 (value : Binary64)
  | string (value : String)
  | object (address : Nat)
  | array (address : Nat)
  deriving DecidableEq, Inhabited

namespace Value

/-- The way a branch goes on a value. It does not look at floats. -/
def truth? : Value → Option Bool
  | .null => some false
  | .int32 value => some (value != 0)
  | .int64 value => some (value != 0)
  | .string _ | .object _ | .array _ => some true
  | .float32 _ | .float64 _ => none

def index? : Value → Option Nat
  | .int32 value => value.toInt.toNat?
  | _ => none

theorem decide_int32_eq (left right : Int32) :
    decide (int32 left = int32 right) = decide (left = right) :=
  decide_eq_decide.mpr ⟨int32.inj, congrArg int32⟩

end Value

/-- How a call finds its code: by its reference alone, by the receiver, or to make an object. -/
inductive CallKind where
  | direct
  | virtual
  | construction
  deriving DecidableEq

/-- What code does besides moving values around. -/
inductive Event where
  | call (kind : CallKind) (method : MethodRef) (arguments : List Value)
  | store (object : Nat) (field : FieldRef) (value : Value)
  | storeStatic (field : FieldRef) (value : Value)
  | storeElement (array index : Nat) (value : Value)
  | allocate (element : TypeSig) (length : Nat)
  | box (type : TypeSig) (value : Value)
  deriving DecidableEq

/-! ## Memory -/

/-- The fields of objects, the static fields and the arrays, and whatever else the runtime keeps. -/
structure Memory (World : Type) where
  field : Nat → FieldRef → Value
  static : FieldRef → Value
  arrays : List (List Value)
  world : World

/-- The memory and how it came about: the events so far, the first one first. -/
structure History (World : Type) where
  memory : Memory World
  events : List Event

namespace Memory

variable {World : Type}

def setField (memory : Memory World) (object : Nat) (field : FieldRef) (value : Value) :
    Memory World :=
  { memory with
    field := fun owner member =>
      if owner = object ∧ member = field then value else memory.field owner member }

def setStatic (memory : Memory World) (field : FieldRef) (value : Value) : Memory World :=
  { memory with
    static := fun member => if member = field then value else memory.static member }

/-- Puts a value into an array that has room for it. -/
def setElement? (memory : Memory World) (array index : Nat) (value : Value) :
    Option (Memory World) := do
  let elements ← memory.arrays[array]?
  if index < elements.length then
    some { memory with arrays := memory.arrays.set array (elements.set index value) }
  else
    none

/-- Adds an array without content. Its address is the number of arrays before. -/
def allocate (memory : Memory World) (length : Nat) : Memory World :=
  { memory with arrays := memory.arrays ++ [List.replicate length .null] }

end Memory

/-- What the machine leaves to the runtime: the effect of calls, boxes, and the equality of values.
Words are compared by their bits, and a method that returns a boolean returns a word. -/
structure Runtime (World : Type) where
  equal : Value → Value → Bool
  call : CallKind → MethodRef → List Value → Memory World → Value × Memory World
  box : TypeSig → Value → Memory World → Value × Memory World
  equal_int32 : ∀ left right, equal (.int32 left) (.int32 right) = decide (left = right)
  call_bool : ∀ kind method arguments memory, method.returnType = .builtin .bool →
    ∃ word, (call kind method arguments memory).1 = .int32 word

namespace History

variable {World : Type}

def start (memory : Memory World) : History World := ⟨memory, []⟩

def store (history : History World) (object : Nat) (field : FieldRef) (value : Value) :
    History World :=
  ⟨history.memory.setField object field value, history.events ++ [.store object field value]⟩

/-- Puts a value into an array, where there is room for it. -/
def storeElement (history : History World) (array index : Nat) (value : Value) : History World :=
  ⟨{ history.memory with
      arrays := history.memory.arrays.modify array fun elements => elements.set index value },
    history.events ++ [.storeElement array index value]⟩

/-- Calls a method. The result of one that returns nothing means nothing. -/
def call (history : History World) (runtime : Runtime World) (kind : CallKind)
    (method : MethodRef) (arguments : List Value) : Value × History World :=
  let (result, memory) := runtime.call kind method arguments history.memory
  (result, ⟨memory, history.events ++ [.call kind method arguments]⟩)

end History

/-! ## Single instructions -/

/-- What an instruction works on: the stack, its top first, the locals, and the history. -/
structure Frame (World : Type) where
  stack : List Value
  locals : List Value
  history : History World

namespace Frame

variable {World : Type}

def push (frame : Frame World) (value : Value) : Frame World :=
  { frame with stack := value :: frame.stack }

/-- Takes values from the stack, which are listed in the order in which they have been pushed. -/
def pop? (frame : Frame World) (count : Nat) : Option (List Value × Frame World) :=
  if count ≤ frame.stack.length then
    some ((frame.stack.take count).reverse, { frame with stack := frame.stack.drop count })
  else
    none

end Frame

end Execution

/-- The value that an instruction pushes whatever there is on the stack. -/
def Instruction.literal? (instruction : Instruction) : Option Execution.Value :=
  match instruction.opcode, instruction.operand with
  | .ldnull, _ => some .null
  | .ldcI4_0, _ => some (.int32 0)
  | .ldcI4_1, _ => some (.int32 1)
  | .ldcI4_2, _ => some (.int32 2)
  | .ldcI4_3, _ => some (.int32 3)
  | .ldcI4_4, _ => some (.int32 4)
  | .ldcI4_5, _ => some (.int32 5)
  | .ldcI4_6, _ => some (.int32 6)
  | .ldcI4_7, _ => some (.int32 7)
  | .ldcI4_8, _ => some (.int32 8)
  | .ldcI4S, .int32 value | .ldcI4, .int32 value => some (.int32 value)
  | .ldcI8, .int64 value => some (.int64 value)
  | .ldcR4, .float32 value => some (.float32 value)
  | .ldcR8, .float64 value => some (.float64 value)
  | .ldstr, .string value => some (.string value)
  | _, _ => none

def Instruction.type? (instruction : Instruction) : Option TypeSig :=
  match instruction.operand with
  | .type sig => some sig
  | _ => none

namespace Execution

/-- A call of a body. -/
structure Activation (World : Type) where
  runtime : Runtime World
  body : MethodBody
  arguments : List Value

namespace Activation

variable {World : Type}

/-- Calls the method that an instruction names. Making an object needs no receiver, and a virtual
call needs one. -/
def invoke (activation : Activation World) (kind : CallKind) (frame : Frame World)
    (instruction : Instruction) : Option (Frame World) := do
  let method ← instruction.method?
  let count := if kind = .construction then method.parameters.length else method.popCount
  let (arguments, rest) ← frame.pop? count
  if kind = .virtual ∧ arguments.head? = some .null then
    none
  else
    let (result, history) := frame.history.call activation.runtime kind method arguments
    let rest := { rest with history := history }
    return if kind = .construction ∨ method.returnsValue then rest.push result else rest

/-- The effect of an instruction after which control goes on to the next one. There is none if the
instruction is a jump or a return, or if it cannot be executed. -/
def perform (activation : Activation World) (frame : Frame World) (instruction : Instruction) :
    Option (Frame World) :=
  match instruction.opcode with
  | .nop => some frame
  | .ldarg0 | .ldarg1 | .ldarg2 | .ldarg3 | .ldargS => do
      let index ← instruction.argument?
      return frame.push (← activation.arguments[index]?)
  | .ldloc0 | .ldloc1 | .ldloc2 | .ldloc3 | .ldlocS => do
      let index ← instruction.local?
      return frame.push (← frame.locals[index]?)
  | .stloc0 | .stloc1 | .stloc2 | .stloc3 | .stlocS => do
      let index ← instruction.local?
      match frame.stack with
      | value :: rest =>
          if index < frame.locals.length then
            return { frame with stack := rest, locals := frame.locals.set index value }
          else
            none
      | [] => none
  | .ldnull | .ldcI4_0 | .ldcI4_1 | .ldcI4_2 | .ldcI4_3 | .ldcI4_4 | .ldcI4_5 | .ldcI4_6
  | .ldcI4_7 | .ldcI4_8 | .ldcI4S | .ldcI4 | .ldcI8 | .ldcR4 | .ldcR8 | .ldstr => do
      return frame.push (← instruction.literal?)
  | .dup =>
      match frame.stack with
      | value :: rest => some { frame with stack := value :: value :: rest }
      | [] => none
  | .pop =>
      match frame.stack with
      | _ :: rest => some { frame with stack := rest }
      | [] => none
  | .ceq =>
      match frame.stack with
      | right :: left :: rest =>
          let word := if activation.runtime.equal left right then 1 else 0
          some { frame with stack := .int32 word :: rest }
      | _ => none
  | .convI8 =>
      match frame.stack with
      | .int32 value :: rest => some { frame with stack := .int64 value.toInt64 :: rest }
      | .int64 value :: rest => some { frame with stack := .int64 value :: rest }
      | _ => none
  | .convU8 =>
      match frame.stack with
      | .int32 value :: rest =>
          some { frame with stack := .int64 value.toUInt32.toUInt64.toInt64 :: rest }
      | .int64 value :: rest => some { frame with stack := .int64 value :: rest }
      | _ => none
  | .box => do
      let type ← instruction.type?
      match frame.stack with
      | value :: rest =>
          let (boxed, memory) := activation.runtime.box type value frame.history.memory
          return { frame with
            stack := boxed :: rest
            history := ⟨memory, frame.history.events ++ [.box type value]⟩ }
      | [] => none
  | .call => activation.invoke .direct frame instruction
  | .callvirt => activation.invoke .virtual frame instruction
  | .newobj => activation.invoke .construction frame instruction
  | .ldfld => do
      let field ← instruction.field?
      match frame.stack with
      | .object owner :: rest =>
          return { frame with stack := frame.history.memory.field owner field :: rest }
      | _ => none
  | .stfld => do
      let field ← instruction.field?
      match frame.stack with
      | value :: .object owner :: rest =>
          return { frame with stack := rest, history := frame.history.store owner field value }
      | _ => none
  | .ldsfld => do
      let field ← instruction.field?
      return frame.push (frame.history.memory.static field)
  | .stsfld => do
      let field ← instruction.field?
      match frame.stack with
      | value :: rest =>
          return { frame with
            stack := rest
            history :=
              ⟨frame.history.memory.setStatic field value,
                frame.history.events ++ [.storeStatic field value]⟩ }
      | [] => none
  | .newarr => do
      let element ← instruction.type?
      match frame.stack with
      | top :: rest =>
          let length ← top.index?
          return { frame with
            stack := .array frame.history.memory.arrays.length :: rest
            history :=
              ⟨frame.history.memory.allocate length,
                frame.history.events ++ [.allocate element length]⟩ }
      | [] => none
  | .ldelemRef =>
      match frame.stack with
      | top :: .array array :: rest => do
          let index ← top.index?
          let elements ← frame.history.memory.arrays[array]?
          return { frame with stack := (← elements[index]?) :: rest }
      | _ => none
  | .stelemRef =>
      match frame.stack with
      | value :: top :: .array array :: rest => do
          let index ← top.index?
          let memory ← frame.history.memory.setElement? array index value
          return { frame with
            stack := rest
            history := ⟨memory, frame.history.events ++ [.storeElement array index value]⟩ }
      | _ => none
  | .br | .brtrue | .brfalse | .ret => none

end Activation

/-! ## Runs -/

/-- The index of the next instruction, and what it works on. -/
structure State (World : Type) where
  index : Nat
  frame : Frame World

namespace Activation

variable {World : Type} (activation : Activation World)

/-- The state in front of the first instruction. Locals have no content. -/
def start (memory : Memory World) : State World :=
  ⟨0, [], activation.body.locals.map fun _ => .null, .start memory⟩

/-- A branch that is taken on one of the two truth values. -/
def branch (taken : Bool) (instruction : Instruction) (state : State World) :
    Option (State World) :=
  match state.frame.stack with
  | value :: rest => do
      let target ← instruction.target?
      let truth ← value.truth?
      return ⟨if truth = taken then target else state.index + 1, { state.frame with stack := rest }⟩
  | [] => none

/-- One step. There is none behind a return. -/
def step (state : State World) : Option (State World) := do
  let instruction ← activation.body.instructions[state.index]?
  match instruction.opcode with
  | .ret => none
  | .br => return { state with index := ← instruction.target? }
  | .brtrue => branch true instruction state
  | .brfalse => branch false instruction state
  | _ => return ⟨state.index + 1, ← activation.perform state.frame instruction⟩

/-- Execution leads from one state to another. -/
def Runs : State World → State World → Prop :=
  Relation.ReflTransGen fun before after => activation.step before = some after

/-- Execution of the whole body arrives at a return. -/
structure Returns (memory : Memory World) (final : State World) : Prop where
  runs : activation.Runs (activation.start memory) final
  stops : ∃ instruction, activation.body.instructions[final.index]? = some instruction ∧
    instruction.opcode = .ret

variable {activation}

private theorem step_of_ret {state : State World} {instruction : Instruction}
    (found : activation.body.instructions[state.index]? = some instruction)
    (returns : instruction.opcode = .ret) : activation.step state = none := by
  simp [step, found, returns]

/-- Where execution stops it is at the end of every run that passes there. -/
theorem Runs.eq_of_stops {state final : State World} (runs : activation.Runs state final)
    (stops : activation.step state = none) : final = state := by
  rcases Relation.ReflTransGen.cases_head runs with rfl | ⟨next, stepped, _⟩
  · rfl
  · rw [stops] at stepped
    cases stepped

/-- A body returns in one state at most. -/
theorem Returns.unique {memory : Memory World} {left right : State World}
    (first : activation.Returns memory left) (second : activation.Returns memory right) :
    left = right := by
  obtain ⟨_, here, returns⟩ := first.stops
  obtain ⟨_, there, returns'⟩ := second.stops
  have deterministic : Relator.RightUnique fun before after : State World =>
      activation.step before = some after := fun _ _ _ one other =>
    Option.some.inj (one.symm.trans other)
  rcases Relation.ReflTransGen.total_of_right_unique deterministic first.runs second.runs with
    runs | runs
  · exact (Runs.eq_of_stops runs (step_of_ret here returns)).symm
  · exact Runs.eq_of_stops runs (step_of_ret there returns')

/-! ## Straight code -/

/-- An instruction that can be performed is followed by the next one. -/
theorem step_of_perform {index : Nat} {frame next : Frame World} {instruction : Instruction}
    (found : activation.body.instructions[index]? = some instruction)
    (performed : activation.perform frame instruction = some next) :
    activation.step ⟨index, frame⟩ = some ⟨index + 1, next⟩ := by
  obtain ⟨opcode, operand⟩ := instruction
  cases opcode with
  | br | brtrue | brfalse | ret => cases performed
  | _ => simp [step, found, performed]

theorem foldlM_perform_append {code more : List Instruction} {frame middle final : Frame World}
    (first : code.foldlM activation.perform frame = some middle)
    (second : more.foldlM activation.perform middle = some final) :
    (code ++ more).foldlM activation.perform frame = some final := by
  rw [List.foldlM_append, first]
  exact second

/-- Instructions that can be performed one behind the other are all passed. -/
theorem runs_of_foldlM {before code after : List Instruction} {frame final : Frame World}
    (split : activation.body.instructions = before ++ (code ++ after))
    (performed : code.foldlM activation.perform frame = some final) :
    activation.Runs ⟨before.length, frame⟩ ⟨before.length + code.length, final⟩ := by
  induction code generalizing before frame with
  | nil =>
      obtain rfl := Option.some.inj performed
      exact .refl
  | cons instruction code hypothesis =>
      rw [List.foldlM_cons] at performed
      obtain ⟨next, here, rest⟩ := Option.bind_eq_some_iff.mp performed
      have found : activation.body.instructions[before.length]? = some instruction := by
        simp [split]
      have behind : activation.body.instructions = (before ++ [instruction]) ++ (code ++ after) := by
        simp [split]
      have runs := hypothesis behind rest
      rw [List.length_append, Nat.add_assoc] at runs
      rw [List.length_cons, Nat.add_comm code.length]
      exact .head (step_of_perform found here) runs

end Activation

end Execution

end PropertyWeaver
