import Mathlib.Data.List.Chain
import PropertyWeaver.Proofs.Code.Insertion

/-!
# Control flow around an inserted block

Where control goes is a matter of indices alone: a branch goes to its target, and most instructions go
on to the next index. Old instructions lead to each other as before, with one difference: what falls
through to the position of the block, or starts there, passes the block first. A branch skips it.
-/

set_option autoImplicit false

namespace PropertyWeaver

inductive Exit where
  | jump
  | next

/-- An instruction is another one up to its branch target, which is renamed. -/
structure Instruction.Retargets (rename : Nat → Nat) (old new : Instruction) : Prop where
  opcode : new.opcode = old.opcode
  target : new.target? = old.target?.map rename
  still : old.target? = none → new = old

namespace MethodBody

/-- Control goes from an index to another one. The target of a jump need not lie in the body. -/
inductive Flow (body : MethodBody) (index : Nat) : Exit → Nat → Prop where
  | jump {instruction : Instruction} {target : Nat} :
      body.instructions[index]? = some instruction → instruction.opcode.isBranch = true →
      instruction.target? = some target → Flow body index .jump target
  | next {instruction : Instruction} :
      body.instructions[index]? = some instruction → instruction.fallsThrough = true →
      Flow body index .next (index + 1)

/-- The indices that control passes one behind the other, from the first one on. A run may be cut
short at any index. -/
structure ControlRun (body : MethodBody) (indices : List Nat) : Prop where
  starts : ∀ first ∈ indices.head?, first = 0
  steps : indices.IsChain fun index next => ∃ exit, body.Flow index exit next

/-- Every target that is shifted stays a 64-bit word. -/
def Shiftable (body : MethodBody) (at_ count : Nat) : Prop :=
  ∀ instruction ∈ body.instructions, ∀ target ∈ instruction.target?,
    at_ ≤ target → target + count < 2 ^ 64

instance (body : MethodBody) (at_ count : Nat) : Decidable (body.Shiftable at_ count) :=
  inferInstanceAs (Decidable (∀ instruction ∈ body.instructions, ∀ target ∈ instruction.target?,
    at_ ≤ target → target + count < 2 ^ 64))

/-- Where control arrives that falls through to an old index, or starts there. -/
def arrival (at_ count index : Nat) : Nat :=
  if at_ < index then index + count else index

/-- The old index of a new one. The block has none. -/
def originalIndex? (at_ count index : Nat) : Option Nat :=
  if index < at_ then some index else if index < at_ + count then none else some (index - count)

/-- The old index that control passes next, from a new one on. -/
def nextOriginal (at_ count index : Nat) : Nat :=
  if index < at_ then index else max at_ (index - count)

/-! ## Indices -/

section Indices

variable {at_ count index offset : Nat}

private theorem originalIndex?_shiftIndex :
    originalIndex? at_ count (shiftIndex at_ count index) = some index := by
  by_cases behind : at_ ≤ index
  · rw [shiftIndex_of_le behind, originalIndex?, if_neg (by omega), if_neg (by omega),
      Nat.add_sub_cancel]
  · rw [shiftIndex_of_lt (Nat.lt_of_not_le behind), originalIndex?, if_pos (Nat.lt_of_not_le behind)]

private theorem originalIndex?_add (inside : offset < count) :
    originalIndex? at_ count (at_ + offset) = none := by
  rw [originalIndex?, if_neg (by omega), if_pos (by omega)]

private theorem nextOriginal_shiftIndex : nextOriginal at_ count
    (shiftIndex at_ count index) = index := by
  unfold nextOriginal shiftIndex
  split <;> split <;> omega

private theorem nextOriginal_add (inside : offset ≤ count) : nextOriginal at_ count
    (at_ + offset) = at_ := by
  unfold nextOriginal
  split <;> omega

private theorem nextOriginal_arrival : nextOriginal at_ count
    (arrival at_ count index) = index := by
  unfold nextOriginal arrival
  split <;> split <;> omega

private theorem shiftIndex_succ : shiftIndex at_ count index + 1 = arrival at_ count
    (index + 1) := by
  unfold shiftIndex arrival
  split <;> split <;> omega

private theorem arrival_of_ne (elsewhere : index ≠ at_) :
    arrival at_ count index = shiftIndex at_ count index := by
  unfold shiftIndex arrival
  split <;> split <;> omega

private theorem arrival_self : arrival at_ count at_ = at_ :=
  if_neg (Nat.lt_irrefl at_)

private theorem shifted_or_added (at_ count index : Nat) :
    (∃ old, index = shiftIndex at_ count old) ∨ ∃ offset < count, index = at_ + offset := by
  by_cases before : index < at_
  · exact .inl ⟨index, (shiftIndex_of_lt before).symm⟩
  · by_cases inside : index < at_ + count
    · exact .inr ⟨index - at_, by omega, by omega⟩
    · exact .inl ⟨index - count, by rw [shiftIndex_of_le (by omega)]; omega⟩

end Indices

/-! ## Single steps -/

section Steps

variable {body : MethodBody} {at_ : Nat} {block more : List Instruction}

private theorem retargets_mapTarget {instruction : Instruction} {count : Nat}
    (fits : ∀ target ∈ instruction.target?, at_ ≤ target → target + count < 2 ^ 64) :
    instruction.Retargets (shiftIndex at_ count)
      (instruction.mapTarget (shiftTarget at_ count)) where
  opcode := instruction.opcode_mapTarget _
  target := by
    obtain ⟨opcode, operand⟩ := instruction
    cases operand with
    | branch target =>
        by_cases behind : at_ ≤ target.toNat
        · exact congrArg some (toNat_shiftTarget (fits target.toNat rfl behind))
        · simp [Instruction.mapTarget, Instruction.target?, shiftTarget, shiftIndex, behind]
    | _ => rfl
  still := Instruction.mapTarget_of_target?

variable (inside : at_ ≤ body.instructions.length) (fits : body.Shiftable at_ block.length)

include inside fits

private theorem retargets_insert (index : Nat) :
    Option.Rel (Instruction.Retargets (shiftIndex at_ block.length)) body.instructions[index]?
      (body.insert at_ block).instructions[shiftIndex at_ block.length index]? := by
  rw [insert_shiftIndex inside]
  cases found : body.instructions[index]? with
  | none => exact .none
  | some instruction =>
      exact .some (retargets_mapTarget (fits instruction (List.mem_of_getElem? found)))

private theorem exists_old {index : Nat} {new : Instruction}
    (found : (body.insert at_ block).instructions[shiftIndex at_ block.length index]? = some new) :
    ∃ old, body.instructions[index]? = some old ∧
      old.Retargets (shiftIndex at_ block.length) new := by
  have here := retargets_insert inside fits index
  rw [found] at here
  cases there : body.instructions[index]? with
  | none =>
      rw [there] at here
      cases here
  | some old =>
      rw [there] at here
      exact ⟨old, rfl, Option.rel_some_some.mp here⟩

private theorem exists_new {index : Nat} {old : Instruction}
    (found : body.instructions[index]? = some old) :
    ∃ new, (body.insert at_ block).instructions[shiftIndex at_ block.length index]? = some new ∧
      old.Retargets (shiftIndex at_ block.length) new := by
  refine ⟨old.mapTarget (shiftTarget at_ block.length), ?_, ?_⟩
  · rw [insert_shiftIndex inside, found, Option.map_some]
  · exact retargets_mapTarget (fits old (List.mem_of_getElem? found))

private theorem flow_jump_iff {index next : Nat} :
    (body.insert at_ block).Flow (shiftIndex at_ block.length index) .jump next ↔
      ∃ target, body.Flow index .jump target ∧ next = shiftIndex at_ block.length target := by
  constructor
  · intro flow
    cases flow with
    | jump found branches names =>
        obtain ⟨old, there, same⟩ := exists_old inside fits found
        rw [same.target, Option.map_eq_some_iff] at names
        obtain ⟨target, names, rfl⟩ := names
        exact ⟨target, .jump there (same.opcode ▸ branches) names, rfl⟩
  · intro follows
    obtain ⟨target, flow, rfl⟩ := follows
    cases flow with
    | jump found branches names =>
        obtain ⟨new, there, same⟩ := exists_new inside fits found
        refine .jump there (same.opcode ▸ branches) ?_
        rw [same.target, names, Option.map_some]

private theorem flow_next_iff {index next : Nat} :
    (body.insert at_ block).Flow (shiftIndex at_ block.length index) .next next ↔
      body.Flow index .next (index + 1) ∧ next = arrival at_ block.length (index + 1) := by
  rw [← shiftIndex_succ]
  constructor
  · intro flow
    cases flow with
    | next found falls =>
        obtain ⟨old, there, same⟩ := exists_old inside fits found
        refine ⟨.next there ?_, rfl⟩
        rwa [Instruction.fallsThrough, ← same.opcode]
  · intro follows
    obtain ⟨flow, rfl⟩ := follows
    cases flow with
    | next found falls =>
        obtain ⟨new, there, same⟩ := exists_new inside fits found
        refine .next there ?_
        rwa [Instruction.fallsThrough, same.opcode]

end Steps

/-! ## The block -/

section Block

variable {body : MethodBody} {at_ : Nat} {block : List Instruction}
  (inside : at_ ≤ body.instructions.length)

include inside

private theorem flow_block (still : ∀ instruction ∈ block, instruction.target? = none)
    {offset next : Nat} {exit : Exit} (within : offset < block.length)
    (flow : (body.insert at_ block).Flow (at_ + offset) exit next) :
    exit = .next ∧ next = at_ + offset + 1 := by
  cases flow with
  | jump found _ names =>
      rw [insert_add inside within] at found
      rw [still _ (List.mem_of_getElem? found)] at names
      cases names
  | next _ _ => exact ⟨rfl, rfl⟩

private theorem flow_through (falls : ∀ instruction ∈ block, instruction.fallsThrough = true)
    {offset : Nat} (within : offset < block.length) :
    (body.insert at_ block).Flow (at_ + offset) .next (at_ + offset + 1) := by
  refine .next ?_ (falls _ (List.getElem_mem within))
  rw [insert_add inside within, List.getElem?_eq_getElem within]

end Block

/-! ## Runs -/

section Runs

variable {body : MethodBody} {at_ : Nat} {block : List Instruction}
  (inside : at_ ≤ body.instructions.length) (fits : body.Shiftable at_ block.length)

include inside fits

/-- A step of the new body is a step of the old one, or it stays in front of the same old index. -/
theorem original_step (still : ∀ instruction ∈ block, instruction.target? = none) {index next : Nat}
    {exit : Exit} (flow : (body.insert at_ block).Flow index exit next) :
    (∃ old, originalIndex? at_ block.length index = some old ∧
      nextOriginal at_ block.length index = old ∧
      body.Flow old exit (nextOriginal at_ block.length next)) ∨
    (originalIndex? at_ block.length index = none ∧
      nextOriginal at_ block.length next = nextOriginal at_ block.length index) := by
  cases shifted_or_added at_ block.length index with
  | inl shifted =>
      obtain ⟨old, rfl⟩ := shifted
      refine .inl ⟨old, originalIndex?_shiftIndex, nextOriginal_shiftIndex, ?_⟩
      cases exit with
      | jump =>
          obtain ⟨target, flow, rfl⟩ := (flow_jump_iff inside fits).mp flow
          rwa [nextOriginal_shiftIndex]
      | next =>
          obtain ⟨flow, rfl⟩ := (flow_next_iff inside fits).mp flow
          rwa [nextOriginal_arrival]
  | inr added =>
      obtain ⟨offset, within, rfl⟩ := added
      obtain ⟨rfl, rfl⟩ := flow_block inside still within flow
      refine .inr ⟨originalIndex?_add within, ?_⟩
      rw [nextOriginal_add within.le, Nat.add_assoc, nextOriginal_add within]

/-- Without the indices of the block a run of the new body is one of the old body. -/
theorem isChain_original (still : ∀ instruction ∈ block, instruction.target? = none)
    {index : Nat} {rest : List Nat}
    (chain : (index :: rest).IsChain fun index next =>
      ∃ exit, (body.insert at_ block).Flow index exit next) :
    (((index :: rest).filterMap (originalIndex? at_ block.length)).IsChain fun index next =>
      ∃ exit, body.Flow index exit next) ∧
    ∀ first ∈ ((index :: rest).filterMap (originalIndex? at_ block.length)).head?,
      first = nextOriginal at_ block.length index := by
  induction rest generalizing index with
  | nil =>
      cases shifted_or_added at_ block.length index with
      | inl shifted =>
          obtain ⟨old, rfl⟩ := shifted
          simp [originalIndex?_shiftIndex, nextOriginal_shiftIndex]
      | inr added =>
          obtain ⟨offset, within, rfl⟩ := added
          simp [originalIndex?_add within]
  | cons next rest hypothesis =>
      obtain ⟨⟨exit, flow⟩, behind⟩ := List.isChain_cons_cons.mp chain
      obtain ⟨steps, starts⟩ := hypothesis behind
      cases original_step inside fits still flow with
      | inl moves =>
          obtain ⟨old, here, ahead, flow⟩ := moves
          rw [List.filterMap_cons_some here]
          refine ⟨List.isChain_cons.mpr ⟨fun first leads => ⟨exit, ?_⟩, steps⟩, ?_⟩
          · rwa [starts first leads]
          · intro first leads
            exact (Option.some.inj leads).symm.trans ahead.symm
      | inr stays =>
          obtain ⟨added, same⟩ := stays
          rw [List.filterMap_cons_none added, ← same]
          exact ⟨steps, starts⟩

private theorem ControlRun.original (still : ∀ instruction ∈ block, instruction.target? = none)
    {indices : List Nat} (run : (body.insert at_ block).ControlRun indices) :
    body.ControlRun (indices.filterMap (originalIndex? at_ block.length)) := by
  cases indices with
  | nil => exact ⟨by simp, .nil⟩
  | cons index rest =>
      obtain rfl := run.starts index rfl
      obtain ⟨steps, starts⟩ := isChain_original inside fits still run.steps
      refine ⟨fun first leads => ?_, steps⟩
      rw [starts first leads, nextOriginal]
      split <;> omega

omit fits in
private theorem isChain_block (falls : ∀ instruction ∈ block, instruction.fallsThrough = true)
    {offset left : Nat} {rest : List Nat} (split : offset + left = block.length)
    (chain : ((at_ + block.length) :: rest).IsChain fun index next =>
      ∃ exit, (body.insert at_ block).Flow index exit next) :
    ((List.range' (at_ + offset) left ++ (at_ + block.length) :: rest).IsChain fun index next =>
      ∃ exit, (body.insert at_ block).Flow index exit next) ∧
    (List.range' (at_ + offset) left ++ (at_ + block.length) :: rest).head? = some (at_ + offset) := by
  induction left generalizing offset with
  | zero =>
      obtain rfl : offset = block.length := split
      exact ⟨chain, rfl⟩
  | succ left hypothesis =>
      obtain ⟨steps, starts⟩ := @hypothesis (offset + 1) (by omega)
      rw [List.range'_succ, List.cons_append]
      refine ⟨List.isChain_cons.mpr ⟨fun next leads => ⟨.next, ?_⟩, steps⟩, rfl⟩
      obtain rfl := Option.some.inj (starts.symm.trans leads)
      exact flow_through inside falls (by omega)

omit fits in
/-- In front of an old index control arrives where it falls through to it or starts there. -/
theorem exists_arrival (falls : ∀ instruction ∈ block, instruction.fallsThrough = true)
    {index : Nat} {rest : List Nat}
    (chain : (shiftIndex at_ block.length index :: rest).IsChain fun index next =>
      ∃ exit, (body.insert at_ block).Flow index exit next) :
    ∃ front : List Nat, front.filterMap (originalIndex? at_ block.length) = [] ∧
      ((front ++ shiftIndex at_ block.length index :: rest).IsChain fun index next =>
        ∃ exit, (body.insert at_ block).Flow index exit next) ∧
      (front ++ shiftIndex at_ block.length index :: rest).head? =
        some (arrival at_ block.length index) := by
  by_cases here : index = at_
  · subst here
    rw [shiftIndex_of_le (Nat.le_refl index)] at chain ⊢
    obtain ⟨steps, starts⟩ := isChain_block inside falls (Nat.zero_add _) chain
    refine ⟨List.range' index block.length, ?_, steps, starts.trans ?_⟩
    · refine List.filterMap_eq_nil_iff.mpr fun added member => ?_
      obtain ⟨behind, before⟩ := List.mem_range'_1.mp member
      obtain ⟨offset, rfl⟩ := Nat.exists_eq_add_of_le behind
      exact originalIndex?_add (by omega)
    · rw [arrival_self, Nat.add_zero]
  · exact ⟨[], rfl, chain, by rw [arrival_of_ne here]; rfl⟩

/-- A run of the old body is one of the new body, with the block passed wherever it is in the way. -/
theorem exists_isChain (falls : ∀ instruction ∈ block, instruction.fallsThrough = true)
    {index : Nat} {rest : List Nat}
    (chain : (index :: rest).IsChain fun index next => ∃ exit, body.Flow index exit next) :
    ∃ longer, ((shiftIndex at_ block.length index :: longer).IsChain fun index next =>
        ∃ exit, (body.insert at_ block).Flow index exit next) ∧
      longer.filterMap (originalIndex? at_ block.length) = rest := by
  induction rest generalizing index with
  | nil => exact ⟨[], List.isChain_singleton _, rfl⟩
  | cons next rest hypothesis =>
      obtain ⟨⟨exit, flow⟩, behind⟩ := List.isChain_cons_cons.mp chain
      obtain ⟨longer, steps, same⟩ := hypothesis behind
      have kept : (shiftIndex at_ block.length next :: longer).filterMap
          (originalIndex? at_ block.length) = next :: rest := by
        rw [List.filterMap_cons_some originalIndex?_shiftIndex, same]
      cases exit with
      | jump =>
          refine ⟨shiftIndex at_ block.length next :: longer, ?_, kept⟩
          have jumps := (flow_jump_iff inside fits).mpr ⟨next, flow, rfl⟩
          exact List.isChain_cons_cons.mpr ⟨⟨.jump, jumps⟩, steps⟩
      | next =>
          obtain ⟨front, added, steps, starts⟩ := exists_arrival inside falls steps
          refine ⟨front ++ shiftIndex at_ block.length next :: longer, ?_, ?_⟩
          · refine List.isChain_cons.mpr ⟨fun first leads => ⟨.next, ?_⟩, steps⟩
            obtain rfl := Option.some.inj (starts.symm.trans leads)
            cases flow with
            | next found continues =>
                exact (flow_next_iff inside fits).mpr ⟨.next found continues, rfl⟩
          · rw [List.filterMap_append, added, List.nil_append, kept]

private theorem ControlRun.exists_insert
    (falls : ∀ instruction ∈ block, instruction.fallsThrough = true)
    {indices : List Nat} (run : body.ControlRun indices) :
    ∃ longer, (body.insert at_ block).ControlRun longer ∧
      longer.filterMap (originalIndex? at_ block.length) = indices := by
  cases indices with
  | nil => exact ⟨[], ⟨by simp, .nil⟩, rfl⟩
  | cons index rest =>
      obtain rfl := run.starts index rfl
      obtain ⟨longer, steps, same⟩ := exists_isChain inside fits falls run.steps
      obtain ⟨front, added, steps, starts⟩ := exists_arrival inside falls steps
      refine ⟨front ++ shiftIndex at_ block.length 0 :: longer, ⟨fun first leads => ?_, steps⟩, ?_⟩
      · obtain rfl := Option.some.inj (starts.symm.trans leads)
        exact if_neg (Nat.not_lt_zero at_)
      · rw [List.filterMap_append, added, List.nil_append,
          List.filterMap_cons_some originalIndex?_shiftIndex, same]

end Runs

/-! ## Two blocks -/

private theorem shiftTarget_shiftTarget {at_ first second : Nat} {target : UInt64}
    (fits : at_ ≤ target.toNat → target.toNat + (first + second) < 2 ^ 64) :
    shiftTarget (at_ + first) second (shiftTarget at_ first target) =
      shiftTarget at_ (first + second) target := by
  apply UInt64.toNat_inj.mp
  by_cases behind : at_ ≤ target.toNat
  · have fits := fits behind
    have once : (shiftTarget at_ first target).toNat = target.toNat + first := by
      rw [toNat_shiftTarget (by omega), shiftIndex_of_le behind]
    rw [toNat_shiftTarget (by omega), once, shiftIndex_of_le (by omega), toNat_shiftTarget fits,
      shiftIndex_of_le behind, Nat.add_assoc]
  · simp only [shiftTarget, behind, if_false]
    rw [if_neg (by omega)]

private theorem insert_insert {body : MethodBody} {at_ : Nat} {block more : List Instruction}
    (inside : at_ ≤ body.instructions.length)
    (still : ∀ instruction ∈ block, instruction.target? = none)
    (fits : body.Shiftable at_ (block.length + more.length)) :
    (body.insert at_ block).insert (at_ + block.length) more = body.insert at_ (block ++ more) := by
  have twice : (body.instructions.map (Instruction.mapTarget (shiftTarget at_ block.length))).map
      (Instruction.mapTarget (shiftTarget (at_ + block.length) more.length)) =
      body.instructions.map (Instruction.mapTarget (shiftTarget at_ (block ++ more).length)) := by
    rw [Instruction.map_mapTarget_map, List.length_append]
    refine List.map_congr_left fun instruction member => ?_
    have fits := fits instruction member
    obtain ⟨opcode, operand⟩ := instruction
    cases operand with
    | branch target =>
        simp only [Instruction.mapTarget, Function.comp_apply]
        rw [shiftTarget_shiftTarget (fits target.toNat rfl)]
    | _ => rfl
  have moved : ((body.insert at_ block).instructions.map
      (Instruction.mapTarget (shiftTarget (at_ + block.length) more.length))) =
      ((body.instructions.map
        (Instruction.mapTarget (shiftTarget at_ (block ++ more).length))).take at_ ++ block) ++
      (body.instructions.map
        (Instruction.mapTarget (shiftTarget at_ (block ++ more).length))).drop at_ := by
    rw [instructions_insert, List.map_append, List.map_append, List.map_take, List.map_drop, twice,
      Instruction.map_mapTarget_of_still still]
  have front : ((body.instructions.map
      (Instruction.mapTarget (shiftTarget at_ (block ++ more).length))).take at_ ++ block).length =
      at_ + block.length := by
    rw [List.length_append, length_front inside]
  have code : ((body.insert at_ block).insert (at_ + block.length) more).instructions =
      (body.insert at_ (block ++ more)).instructions := by
    rw [instructions_insert, moved, List.take_left' front, List.drop_left' front, instructions_insert]
    simp only [List.append_assoc]
  exact congrArg (fun instructions => { body with instructions := instructions }) code

/-- Inserting a block without branches keeps the control flow, as long as the targets behind it can be
shifted. Every old instruction stands at its shifted index, with its target shifted the same way, and the
block lies in between. A jump leads to the shifted target, past the block if that was the index of the
block; what falls through to this index, or starts there, enters the block. A run of the new body without
the indices of the block is one of the old body. If control falls through the block, every run of the old
body is obtained in this way. Two blocks put in one behind the other are one block. -/
theorem insert_preserves_flow {body : MethodBody} {at_ : Nat} {block : List Instruction}
    (inside : at_ ≤ body.instructions.length)
    (still : ∀ instruction ∈ block, instruction.target? = none)
    (fits : body.Shiftable at_ block.length) :
    (∀ index, Option.Rel (Instruction.Retargets (shiftIndex at_ block.length))
      body.instructions[index]?
      (body.insert at_ block).instructions[shiftIndex at_ block.length index]?) ∧
    (∀ offset < block.length,
      (body.insert at_ block).instructions[at_ + offset]? = block[offset]?) ∧
    (∀ index next, (body.insert at_ block).Flow (shiftIndex at_ block.length index) .jump next ↔
      ∃ target, body.Flow index .jump target ∧ next = shiftIndex at_ block.length target) ∧
    (∀ index next, (body.insert at_ block).Flow (shiftIndex at_ block.length index) .next next ↔
      body.Flow index .next (index + 1) ∧ next = arrival at_ block.length (index + 1)) ∧
    (∀ indices, (body.insert at_ block).ControlRun indices →
      body.ControlRun (indices.filterMap (originalIndex? at_ block.length))) ∧
    ((∀ instruction ∈ block, instruction.fallsThrough = true) →
      (∀ offset < block.length, ∀ exit next, (body.insert at_ block).Flow (at_ + offset) exit next ↔
        exit = .next ∧ next = at_ + offset + 1) ∧
      ∀ indices, body.ControlRun indices → ∃ longer, (body.insert at_ block).ControlRun longer ∧
        longer.filterMap (originalIndex? at_ block.length) = indices) ∧
    (∀ more, body.Shiftable at_ (block.length + more.length) →
      (body.insert at_ block).insert (at_ + block.length) more = body.insert at_ (block ++ more)) := by
  refine ⟨retargets_insert inside fits, fun offset within => insert_add inside within,
    fun _ _ => flow_jump_iff inside fits, fun _ _ => flow_next_iff inside fits,
    fun _ run => run.original inside fits still, fun falls => ⟨?_, ?_⟩,
    fun _ fits => insert_insert inside still fits⟩
  · intro offset within exit next
    constructor
    · exact flow_block inside still within
    · intro through
      obtain ⟨rfl, rfl⟩ := through
      exact flow_through inside falls within
  · intro indices run
    exact run.exists_insert inside fits falls

def loopBody : MethodBody :=
  .ofCode 1 [Opcode.ldarg0.plain, ⟨.brtrue, .branch 0⟩, Opcode.ret.plain]

theorem insert_preserves_flow_loopBody :
    (∀ instruction ∈ [Opcode.nop.plain, Opcode.nop.plain],
      instruction.target? = none ∧ instruction.fallsThrough = true) ∧
    loopBody.Shiftable 0 [Opcode.nop.plain, Opcode.nop.plain].length ∧
    (loopBody.insert 0 [Opcode.nop.plain, Opcode.nop.plain]).Flow 3 .jump 2 ∧
    loopBody.ControlRun [0, 1, 0, 1, 2] ∧
    ∃ longer, (loopBody.insert 0 [Opcode.nop.plain, Opcode.nop.plain]).ControlRun longer ∧
      longer.filterMap (originalIndex? 0 2) = [0, 1, 0, 1, 2] := by
  have plain : ∀ instruction ∈ [Opcode.nop.plain, Opcode.nop.plain],
      instruction.target? = none ∧ instruction.fallsThrough = true := by
    decide
  have fits : loopBody.Shiftable 0 [Opcode.nop.plain, Opcode.nop.plain].length := by decide
  have load : loopBody.Flow 0 .next 1 := .next rfl rfl
  have again : loopBody.Flow 1 .jump 0 := .jump rfl rfl rfl
  have leave : loopBody.Flow 1 .next 2 := .next rfl rfl
  have run : loopBody.ControlRun [0, 1, 0, 1, 2] := by
    refine ⟨by simp, ?_⟩
    simp only [List.isChain_cons_cons, List.isChain_singleton, and_true]
    exact ⟨⟨_, load⟩, ⟨_, again⟩, ⟨_, load⟩, ⟨_, leave⟩⟩
  obtain ⟨_, _, jumps, _, _, falls, _⟩ := insert_preserves_flow
    (Nat.zero_le loopBody.instructions.length) (fun instruction member => (plain instruction member).1)
    fits
  obtain ⟨_, runs⟩ := falls fun instruction member => (plain instruction member).2
  exact ⟨plain, fits, (jumps 1 2).mpr ⟨0, again, rfl⟩, run, runs _ run⟩

def farBody : MethodBody :=
  .ofCode 0 [⟨.br, .branch 18446744073709551615⟩, Opcode.ret.plain]

/-- A target that cannot be shifted wraps around: a jump out of the body becomes one to its start, and
two blocks are not one block. A branch opcode without a target is not a return either, but a block that
has one is never left. -/
theorem insert_misleads_control :
    (Opcode.nop.plain.target? = none ∧ Opcode.nop.plain.opcode ≠ .ret ∧
      farBody.instructions[0]? = some ⟨.br, .branch 18446744073709551615⟩ ∧
      (farBody.insert 0 [Opcode.nop.plain]).instructions[shiftIndex 0 1 0]? = some ⟨.br, .branch 0⟩ ∧
      shiftIndex 0 1 18446744073709551615 ≠ 0 ∧
      (farBody.insert 0 [Opcode.nop.plain]).ControlRun [0, 1, 0, 1] ∧
      ¬ farBody.ControlRun ([0, 1, 0, 1].filterMap (originalIndex? 0 1)) ∧
      (farBody.insert 0 [Opcode.nop.plain]).insert 1 [Opcode.nop.plain] ≠
        farBody.insert 0 [Opcode.nop.plain, Opcode.nop.plain]) ∧
    (Opcode.br.plain.target? = none ∧ Opcode.br.plain.opcode ≠ .ret ∧
      loopBody.ControlRun [0] ∧
      ¬ ∃ longer, (loopBody.insert 0 [Opcode.br.plain]).ControlRun longer ∧
        longer.filterMap (originalIndex? 0 1) = [0]) := by
  refine ⟨⟨rfl, by decide, rfl, rfl, by decide, ⟨by simp, ?_⟩, ?_, by decide⟩,
    rfl, by decide, ⟨by simp, List.isChain_singleton 0⟩, ?_⟩
  · have falls : (farBody.insert 0 [Opcode.nop.plain]).Flow 0 .next 1 := .next rfl rfl
    have jumps : (farBody.insert 0 [Opcode.nop.plain]).Flow 1 .jump 0 := .jump rfl rfl rfl
    simp only [List.isChain_cons_cons, List.isChain_singleton, and_true]
    exact ⟨⟨_, falls⟩, ⟨_, jumps⟩, ⟨_, falls⟩⟩
  · intro run
    obtain ⟨⟨exit, flow⟩, _⟩ := List.isChain_cons_cons.mp run.steps
    cases flow with
    | jump found _ names =>
        obtain rfl := Option.some.inj found
        exact absurd names (by decide)
  · intro lifted
    obtain ⟨longer, run, projects⟩ := lifted
    cases longer with
    | nil => cases projects
    | cons index rest =>
        obtain rfl := run.starts index rfl
        cases rest with
        | nil => exact absurd projects (by decide)
        | cons next rest =>
            obtain ⟨⟨exit, flow⟩, _⟩ := List.isChain_cons_cons.mp run.steps
            cases flow with
            | jump found _ names =>
                obtain rfl := Option.some.inj found
                cases names
            | next found falls =>
                obtain rfl := Option.some.inj found
                cases falls

end MethodBody

end PropertyWeaver
