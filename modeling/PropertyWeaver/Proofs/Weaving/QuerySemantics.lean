import PropertyWeaver.Proofs.Execution.Instructions
import PropertyWeaver.Proofs.Weaving.Templates

/-!
# What queries do

The code of a query allocates an array and fills it from the front. It makes one object for each
identifier, in order, and returns the array, which no other code has seen before.
-/

set_option autoImplicit false

namespace PropertyWeaver

open Execution

variable {World : Type}

/-- Making an object from a string leaves an array alone. -/
def Execution.Runtime.Spares (runtime : Runtime World) (constructor : MethodRef) (array : Nat) : Prop :=
  ∀ text memory elements, memory.arrays[array]? = some elements →
    (runtime.call .construction constructor [.string text] memory).2.arrays[array]? = some elements

/-- The value is an object that the constructor makes from the string. -/
def Execution.Runtime.Constructs (runtime : Runtime World) (constructor : MethodRef) (text : String)
    (value : Value) : Prop :=
  ∃ memory, value = (runtime.call .construction constructor [.string text] memory).1

/-- What is done to fill an array with objects made from strings, starting at an index. -/
def fillEvents (constructor : MethodRef) (array offset : Nat) (texts : List String)
    (values : List Value) : List Event :=
  ((texts.zip values).mapIdx fun index pair =>
    [.call .construction constructor [.string pair.1],
      .storeElement array (index + offset) pair.2]).flatten

private theorem fillEvents_cons (constructor : MethodRef) (array offset : Nat) (text : String)
    (value : Value) (texts : List String) (values : List Value) :
    fillEvents constructor array offset (text :: texts) (value :: values) =
      [.call .construction constructor [.string text], .storeElement array offset value] ++
        fillEvents constructor array (offset + 1) texts values := by
  simp [fillEvents, List.mapIdx_cons, Nat.add_assoc, Nat.add_comm 1]

namespace Execution.Activation

variable {activation : Activation World} {constructor : MethodRef} {array : Nat}
  {stack locals : List Value} {history : History World}

private theorem foldlM_storeIdentifier {front back : List Value} {old : Value} (identifier : String)
    (count : constructor.parameters.length = 1) (spares : activation.runtime.Spares constructor array)
    (short : front.length < 2 ^ 31)
    (found : history.memory.arrays[array]? = some (front ++ old :: back)) :
    ∃ value history', (WeavingContext.storeIdentifier constructor front.length identifier).foldlM
        activation.perform ⟨.array array :: stack, locals, history⟩ =
          some ⟨.array array :: stack, locals, history'⟩ ∧
      activation.runtime.Constructs constructor identifier value ∧
      history'.memory.arrays[array]? = some (front ++ value :: back) ∧
      history'.events = history.events ++ [.call .construction constructor [.string identifier],
        .storeElement array front.length value] := by
  let made := history.call activation.runtime .construction constructor [.string identifier]
  have makes : activation.perform
      ⟨.string identifier :: .int32 (Int32.ofNat front.length) :: .array array :: .array array :: stack,
        locals, history⟩ ⟨.newobj, .method constructor⟩ = _ := perform_newobj [.string identifier] count
  have kept : made.2.memory.arrays[array]? = some (front ++ old :: back) :=
    spares identifier history.memory _ found
  have stores : activation.perform
      ⟨made.1 :: .int32 (Int32.ofNat front.length) :: .array array :: .array array :: stack, locals,
        made.2⟩ Opcode.stelemRef.plain = _ := perform_stelemRef made.1 short kept (by simp)
  refine ⟨made.1, made.2.storeElement array front.length made.1, ?_, ⟨history.memory, rfl⟩, ?_, ?_⟩
  · simp only [WeavingContext.storeIdentifier, List.foldlM_cons, List.foldlM_nil, perform_dup,
      perform_pushInt32, perform_pushString, makes, Option.bind_eq_bind, Option.bind_some]
    exact congrArg (Option.bind · some) stores
  · simp [History.storeElement, kept]
  · exact List.append_assoc ..

/-- The code for several identifiers fills the array from an index to its end. -/
theorem foldlM_storeIdentifiers {front : List Value} (identifiers : List String)
    (count : constructor.parameters.length = 1) (spares : activation.runtime.Spares constructor array)
    (short : front.length + identifiers.length < 2 ^ 31)
    (found : history.memory.arrays[array]? =
      some (front ++ List.replicate identifiers.length .null)) :
    ∃ values history', (identifiers.mapIdx fun index =>
          WeavingContext.storeIdentifier constructor (index + front.length)).flatten.foldlM
        activation.perform ⟨.array array :: stack, locals, history⟩ =
          some ⟨.array array :: stack, locals, history'⟩ ∧
      List.Forall₂ (activation.runtime.Constructs constructor) identifiers values ∧
      history'.memory.arrays[array]? = some (front ++ values) ∧
      history'.events = history.events ++
        fillEvents constructor array front.length identifiers values := by
  induction identifiers generalizing front history with
  | nil => exact ⟨[], history, rfl, .nil, found, (List.append_nil _).symm⟩
  | cons identifier identifiers hypothesis =>
      rw [List.length_cons] at short
      rw [List.length_cons, List.replicate_succ] at found
      obtain ⟨value, between, first, made, stored, events⟩ := @foldlM_storeIdentifier _ activation
        constructor array stack locals history front _ _ identifier count spares (by omega) found
      have next : between.memory.arrays[array]? =
          some ((front ++ [value]) ++ List.replicate identifiers.length .null) := by
        rw [stored, List.append_assoc]
        rfl
      obtain ⟨values, final, rest, makes, filled, events'⟩ := hypothesis
        (by rw [List.length_append, List.length_singleton]; omega) next
      have longer : (front ++ [value]).length = front.length + 1 := List.length_append
      have shift : ∀ index, index + (front ++ [value]).length = index + 1 + front.length := by omega
      simp only [shift] at rest
      refine ⟨value :: values, final, ?_, .cons made makes, ?_, ?_⟩
      · rw [List.mapIdx_cons, List.flatten_cons, Nat.zero_add]
        exact foldlM_perform_append first rest
      · rw [filled, List.append_assoc]
        rfl
      · rw [events', events, List.append_assoc, fillEvents_cons, longer]

section Query

variable {element : TypeSig} {identifiers : List String}
  (code : activation.body.instructions = WeavingContext.queryCode element constructor identifiers)
  (room : activation.body.locals.length = 1) (short : identifiers.length < 2 ^ 31)
  (memory : Memory World)

include code short

private theorem runs_exit (history : History World) :
    activation.Runs ⟨5 * identifiers.length + 3, [], [.array array], history⟩
        ⟨5 * identifiers.length + 5, [.array array], [.array array], history⟩ ∧
      activation.body.instructions[5 * identifiers.length + 5]? = some Opcode.ret.plain := by
  have behind : ∀ index, activation.body.instructions[5 * identifiers.length + 3 + index]? =
      [⟨.br, .branch (.ofNat (5 * identifiers.length + 4))⟩, .loadLocal 0,
        Opcode.ret.plain][index]? := by
    intro index
    have filling : [.storeLocal 0, ⟨.br, .branch (.ofNat (5 * identifiers.length + 4))⟩, .loadLocal 0,
        Opcode.ret.plain][index + 1]? = [⟨.br, .branch (.ofNat (5 * identifiers.length + 4))⟩,
          .loadLocal 0, Opcode.ret.plain][index]? := rfl
    rw [code, WeavingContext.queryCode, List.getElem?_append_right, ← filling]
    · congr 1
      simp only [List.length_append, WeavingContext.length_storeIdentifiers, List.length_cons,
        List.length_nil]
      omega
    · simp only [List.length_append, WeavingContext.length_storeIdentifiers, List.length_cons,
        List.length_nil]
      omega
  have target : (UInt64.ofNat (5 * identifiers.length + 4)).toNat = 5 * identifiers.length + 4 :=
    UInt64.toNat_ofNat_of_lt (by simp only [UInt64.size]; omega)
  have jumps : ∀ frame, activation.step ⟨5 * identifiers.length + 3, frame⟩ =
      some ⟨5 * identifiers.length + 4, frame⟩ := by
    intro frame
    rw [step_br (behind 0), target]
  have loads : activation.step ⟨5 * identifiers.length + 4, [], [.array array], history⟩ =
      some ⟨5 * identifiers.length + 5, [.array array], [.array array], history⟩ :=
    step_of_perform (behind 1) (perform_loadLocal (.array array))
  exact ⟨.head (jumps _) (.single loads), behind 2⟩

variable (count : constructor.parameters.length = 1)
  (spares : activation.runtime.Spares constructor memory.arrays.length)

include room count spares

/-- Up to its jump a query allocates the array, fills it and keeps it in the local. -/
theorem runs_fill : ∃ values history,
    activation.Runs (activation.start memory)
        ⟨5 * identifiers.length + 3, [], [.array memory.arrays.length], history⟩ ∧
      history.memory.arrays[memory.arrays.length]? = some values ∧
      List.Forall₂ (activation.runtime.Constructs constructor) identifiers values ∧
      history.events = .allocate element identifiers.length ::
        fillEvents constructor memory.arrays.length 0 identifiers values := by
  let address := memory.arrays.length
  let allocated : History World :=
    ⟨memory.allocate identifiers.length, [.allocate element identifiers.length]⟩
  have start : activation.start memory = ⟨0, [], [.null], .start memory⟩ := by
    obtain ⟨only, one⟩ := List.length_eq_one_iff.mp room
    rw [Activation.start, one]
    rfl
  have fresh : allocated.memory.arrays[address]? =
      some ([] ++ List.replicate identifiers.length .null) := by
    simp [allocated, address, Memory.allocate]
  have allocates : [.pushInt32 (Int32.ofNat identifiers.length), ⟨.newarr, .type element⟩].foldlM
      activation.perform ⟨[], [.null], .start memory⟩ =
        some ⟨[.array address], [.null], allocated⟩ := by
    simp only [List.foldlM_cons, List.foldlM_nil, perform_pushInt32, perform_newarr element short,
      Option.bind_eq_bind, Option.bind_some]
    rfl
  obtain ⟨values, history, fills, made, filled, events⟩ := @foldlM_storeIdentifiers _ activation
    constructor address [] [.null] allocated [] identifiers count spares (by simpa using short) fresh
  have stores : [Instruction.storeLocal 0].foldlM activation.perform
      ⟨[.array address], [.null], history⟩ = some ⟨[], [.array address], history⟩ := rfl
  have split : activation.body.instructions = [] ++
      (([.pushInt32 (Int32.ofNat identifiers.length), ⟨.newarr, .type element⟩] ++
        ((identifiers.mapIdx (WeavingContext.storeIdentifier constructor)).flatten ++
          [Instruction.storeLocal 0])) ++
      [⟨.br, .branch (.ofNat (5 * identifiers.length + 4))⟩, .loadLocal 0, Opcode.ret.plain]) := by
    simp [code, WeavingContext.queryCode]
  have runs := runs_of_foldlM split
    (foldlM_perform_append allocates (foldlM_perform_append fills stores))
  simp only [List.length_append, WeavingContext.length_storeIdentifiers, List.length_cons,
    List.length_nil, Nat.zero_add] at runs
  refine ⟨values, history, ?_, filled, made, events⟩
  rw [start, show 5 * identifiers.length + 3 = 2 + (5 * identifiers.length + 1) by omega]
  exact runs

/-- The code of a query runs to its return and leaves the array, filled with objects made from the
identifiers. -/
theorem queryCode_returns : ∃ values final, activation.Returns memory final ∧
    final.frame.stack = [.array memory.arrays.length] ∧
    final.frame.history.memory.arrays[memory.arrays.length]? = some values ∧
    List.Forall₂ (activation.runtime.Constructs constructor) identifiers values ∧
    final.frame.history.events = .allocate element identifiers.length ::
      fillEvents constructor memory.arrays.length 0 identifiers values := by
  obtain ⟨values, history, fills, filled, made, events⟩ := runs_fill code room short memory count spares
  obtain ⟨exits, returns⟩ :=
    @runs_exit _ activation constructor memory.arrays.length _ _ code short history
  exact ⟨values, _, ⟨fills.trans exits, _, returns, rfl⟩, rfl, filled, made, events⟩

end Query

end Execution.Activation

end PropertyWeaver
