import PropertyWeaver.Proofs.Code.Insertion
import PropertyWeaver.Proofs.Verification.Depth

/-!
# Inserting verified code

Code without jumps that starts and ends with an empty stack may be put in front of any instruction
that is reached with an empty stack. The machine then reaches what it reached before, at shifted
indices, and the points of the block; so a body that verifies still does, whatever its branches are.
-/

set_option autoImplicit false

namespace PropertyWeaver.Verification

/-! ## Straight code -/

/-- An instruction that fits its body and after which control goes on to the next one. -/
structure Plain (shape : BodyShape) (locals : Nat) (instruction : Instruction) : Prop where
  operand : instruction.wellFormed = true
  argument : ∀ index ∈ instruction.argument?, index < shape.argumentCount
  slot : ∀ index ∈ instruction.local?, index < locals
  branches : instruction.opcode.isBranch = false
  returns : instruction.opcode ≠ .ret

/-- Code without branches and returns that leads from one depth of the stack to another. No depth on
the way, the two ends included, is above `bound`. -/
inductive Straight (shape : BodyShape) (locals bound : Nat) : Nat → List Instruction → Nat → Prop where
  | nil {depth : Nat} : depth ≤ bound → Straight shape locals bound depth [] depth
  | cons {depth final : Nat} {instruction : Instruction} {code : List Instruction} :
      Plain shape locals instruction → (instruction.effect shape).pops ≤ depth → depth ≤ bound →
      Straight shape locals bound
        (depth - (instruction.effect shape).pops + (instruction.effect shape).pushes) code final →
      Straight shape locals bound depth (instruction :: code) final

variable {shape : BodyShape} {locals bound depth middle final : Nat}

private theorem Plain.next_of_leads {instruction : Instruction}
    (plain : Plain shape locals instruction)
    {index next : Nat} (leads : instruction.Leads index next) : next = index + 1 := by
  cases leads with
  | branch branches _ =>
      rw [plain.branches] at branches
      cases branches
  | next _ _ => rfl

private theorem Plain.leads {instruction : Instruction} (plain : Plain shape locals instruction)
    (index : Nat) : instruction.Leads index (index + 1) := by
  refine .next (fun jumps => ?_) plain.returns
  have branches := plain.branches
  rw [jumps] at branches
  cases branches

namespace Straight

private theorem start_le {code : List Instruction}
    (straight : Straight shape locals bound depth code final) : depth ≤ bound := by
  cases straight with
  | nil within => exact within
  | cons _ _ within _ => exact within

theorem append {code more : List Instruction}
    (first : Straight shape locals bound depth code middle)
    (second : Straight shape locals bound middle more final) :
    Straight shape locals bound depth (code ++ more) final := by
  induction first with
  | nil _ => exact second
  | cons plain enough within _ hypothesis =>
      exact .cons plain enough within (hypothesis second)

private theorem final_unique {final' : Nat} {code : List Instruction}
    (left : Straight shape locals bound depth code final)
    (right : Straight shape locals bound depth code final') : final = final' := by
  induction left with
  | nil _ =>
      cases right with
      | nil _ => rfl
  | cons _ _ _ _ hypothesis =>
      cases right with
      | cons _ _ _ rest => exact hypothesis rest

end Straight

/-! ## Points of a body with a block -/

section Insert

variable {body : MethodBody} {at_ : Nat} {block : List Instruction}

/-- The points of a body with an inserted block: the old ones at shifted indices, and those in front
of an instruction of the block. -/
inductive Spot (body : MethodBody) (shape : BodyShape) (at_ : Nat) (block : List Instruction)
    (bound : Nat) : Point → Prop where
  | kept {index depth : Nat} : Reachable body shape ⟨index, depth⟩ →
      Spot body shape at_ block bound ⟨MethodBody.shiftIndex at_ block.length index, depth⟩
  | added {before after : List Instruction} {instruction : Instruction} {depth : Nat} :
      block = before ++ instruction :: after →
      Straight shape body.locals.length bound 0 before depth →
      Straight shape body.locals.length bound depth (instruction :: after) 0 →
      Spot body shape at_ block bound ⟨at_ + before.length, depth⟩

variable (safe : StackSafe body shape) (entry : Reachable body shape ⟨at_, 0⟩)
  (fits : body.instructions.length + block.length < 2 ^ 64)

theorem StackSafe.lt_of_reachable (safe : StackSafe body shape) {point : Point}
    (reached : Reachable body shape point) : point.index < body.instructions.length := by
  obtain ⟨instruction, found, _⟩ := safe.legal point reached
  exact (List.getElem?_eq_some_iff.mp found).1

include entry in
private theorem Spot.between {before after : List Instruction} {depth : Nat}
    (split : block = before ++ after)
    (first : Straight shape body.locals.length bound 0 before depth)
    (second : Straight shape body.locals.length bound depth after 0) :
    Spot body shape at_ block bound ⟨at_ + before.length, depth⟩ := by
  cases after with
  | nil =>
      cases second with
      | nil _ =>
          have here : Spot body shape at_ block bound
              ⟨MethodBody.shiftIndex at_ block.length at_, 0⟩ := .kept entry
          rw [MethodBody.shiftIndex_of_le (Nat.le_refl at_)] at here
          simpa [split] using here
  | cons instruction after => exact .added split first second

include safe fits in
/-- Where an old instruction leads in the new body: to a shifted successor, or to the block in place
of the instruction behind it. -/
theorem leads_mapTarget {index depth next : Nat} {instruction : Instruction}
    (reached : Reachable body shape ⟨index, depth⟩)
    (found : body.instructions[index]? = some instruction)
    (leads : (instruction.mapTarget (MethodBody.shiftTarget at_ block.length)).Leads
      (MethodBody.shiftIndex at_ block.length index) next) :
    ∃ old, instruction.Leads index old ∧
      (next = MethodBody.shiftIndex at_ block.length old ∨ next = at_ ∧ old = at_) := by
  cases leads with
  | branch branches target =>
      rw [Instruction.opcode_mapTarget] at branches
      obtain ⟨word, operand, rfl⟩ := (instruction.operand_mapTarget_eq_branch _).mp target
      have leads : instruction.Leads index word.toNat := .branch branches operand
      have inside := (safe.legal_at reached found).inside _ leads
      exact ⟨word.toNat, leads, .inl (MethodBody.toNat_shiftTarget (by omega))⟩
  | next jumps returns =>
      rw [Instruction.opcode_mapTarget] at jumps returns
      refine ⟨index + 1, .next jumps returns, ?_⟩
      unfold MethodBody.shiftIndex
      split <;> split <;> omega

include safe entry fits in
private theorem Spot.step (straight : Straight shape body.locals.length bound 0 block 0)
    {point next : Point} (spot : Spot body shape at_ block bound point)
    (step : Step (body.insert at_ block) shape point next) :
    Spot body shape at_ block bound next := by
  have inside := safe.lt_of_reachable entry
  cases step with
  | mk found enough leads =>
    cases spot with
    | @kept index depth reached =>
        rw [MethodBody.insert_shiftIndex inside.le] at found
        obtain ⟨instruction, old, rfl⟩ := Option.map_eq_some_iff.mp found
        rw [Instruction.effect_mapTarget] at enough
        simp only [Point.depthBehind, Instruction.effect_mapTarget]
        obtain ⟨target, follows, same⟩ := leads_mapTarget safe fits reached old leads
        have reached' := reached.step (.mk old enough follows)
        rcases same with rfl | ⟨rfl, rfl⟩
        · exact .kept reached'
        · -- control falls onto the block; the stack is empty there
          have empty := safe.consistent _ _ reached' entry rfl
          simp only [Point.depthBehind] at empty
          rw [empty]
          exact Spot.between entry rfl (.nil straight.start_le) straight
    | @added before after instruction depth split first second =>
        rw [MethodBody.insert_add inside.le (by simp [split]), split] at found
        simp only [List.getElem?_append_right (Nat.le_refl _), Nat.sub_self,
          List.getElem?_cons_zero, Option.some.injEq] at found
        obtain rfl := found
        cases second with
        | cons plain enough within rest =>
            obtain rfl := plain.next_of_leads leads
            have first' := first.append (.cons plain enough within (.nil rest.start_le))
            have split' : block = (before ++ [instruction]) ++ after := by simp [split]
            have next := Spot.between entry split' first' rest
            simpa [Point.depthBehind, Nat.add_assoc] using next

include safe entry fits in
private theorem Spot.of_reachable (straight : Straight shape body.locals.length bound 0 block 0)
    {point : Point} (reached : Reachable (body.insert at_ block) shape point) :
    Spot body shape at_ block bound point := by
  induction reached with
  | refl =>
      by_cases start : at_ = 0
      · subst start
        exact Spot.between entry rfl (.nil straight.start_le) straight
      · have kept : Spot body shape at_ block bound
            ⟨MethodBody.shiftIndex at_ block.length 0, 0⟩ := .kept .start
        rwa [MethodBody.shiftIndex_of_lt (Nat.pos_of_ne_zero start)] at kept
  | tail _ step spot => exact spot.step safe entry fits straight step

include safe fits in
private theorem Legal.mapTarget {index depth : Nat} {instruction : Instruction}
    (entry : Reachable body shape ⟨at_, 0⟩) (reached : Reachable body shape ⟨index, depth⟩)
    (found : body.instructions[index]? = some instruction)
    (legal : Legal body shape ⟨index, depth⟩ instruction) :
    Legal (body.insert at_ block) shape ⟨MethodBody.shiftIndex at_ block.length index, depth⟩
      (instruction.mapTarget (MethodBody.shiftTarget at_ block.length)) where
  operand := by rw [Instruction.wellFormed_mapTarget, legal.operand]
  argument := by
    rw [Instruction.argument?_mapTarget]
    exact legal.argument
  slot := by
    rw [Instruction.local?_mapTarget]
    exact legal.slot
  enough := by
    rw [Instruction.effect_mapTarget]
    exact legal.enough
  balanced returns := by
    rw [Instruction.opcode_mapTarget] at returns
    rw [Instruction.effect_mapTarget]
    exact legal.balanced returns
  inside next leads := by
    have inside := safe.lt_of_reachable entry
    rw [MethodBody.length_insert inside.le]
    obtain ⟨old, follows, same⟩ := leads_mapTarget safe fits reached found leads
    have within := legal.inside old follows
    rcases same with rfl | ⟨rfl, rfl⟩
    · exact (MethodBody.shiftIndex_lt_iff inside.le).mpr within
    · omega

include safe entry fits in
private theorem Spot.legal {point : Point} (spot : Spot body shape at_ block bound point) :
    ∃ instruction, (body.insert at_ block).instructions[point.index]? = some instruction ∧
      Legal (body.insert at_ block) shape point instruction := by
  have inside := safe.lt_of_reachable entry
  cases spot with
  | @kept index depth reached =>
      obtain ⟨instruction, found, legal⟩ := safe.legal _ reached
      refine ⟨_, ?_, legal.mapTarget safe fits entry reached found⟩
      rw [MethodBody.insert_shiftIndex inside.le, found]
      rfl
  | @added before after instruction depth split _ second =>
      have here : (body.insert at_ block).instructions[at_ + before.length]? = some instruction := by
        rw [MethodBody.insert_add inside.le (by simp [split]), split]
        simp
      refine ⟨instruction, here, ?_⟩
      cases second with
      | cons plain enough _ _ =>
          exact {
            operand := plain.operand
            argument := plain.argument
            slot := plain.slot
            enough := enough
            balanced := fun returns => absurd returns plain.returns
            inside := by
              intro next leads
              obtain rfl := plain.next_of_leads leads
              have length := congrArg List.length split
              simp only [List.length_append, List.length_cons] at length
              rw [MethodBody.length_insert inside.le]
              simp only at inside ⊢
              omega }

include safe in
private theorem Spot.consistent {left right : Point} (first : Spot body shape at_ block bound left)
    (second : Spot body shape at_ block bound right) (same : left.index = right.index) :
    left.depth = right.depth := by
  cases first with
  | @kept index depth reached =>
      cases second with
      | @kept index' depth' reached' =>
          obtain rfl := MethodBody.shiftIndex_inj same
          exact safe.consistent ⟨index, depth⟩ ⟨index, depth'⟩ reached reached' rfl
      | added split _ _ =>
          exact absurd same (MethodBody.shiftIndex_ne_add (by simp [split]))
  | @added before after instruction depth split first _ =>
      cases second with
      | kept reached' =>
          exact absurd same.symm (MethodBody.shiftIndex_ne_add (by simp [split]))
      | @added before' _ _ _ split' first' _ =>
          have length : before.length = before'.length := Nat.add_left_cancel same
          obtain ⟨rfl, _⟩ := List.append_inj (split.symm.trans split') length
          exact first.final_unique first'

private theorem Spot.depth_le {limit : Nat} (bounded : ∀ point, Reachable body shape point →
    point.depth ≤ limit) {point : Point} (spot : Spot body shape at_ block bound point) :
    point.depth ≤ max limit bound := by
  cases spot with
  | @kept index depth reached =>
      exact Nat.le_trans (bounded ⟨index, depth⟩ reached) (Nat.le_max_left ..)
  | added _ _ second => exact Nat.le_trans second.start_le (Nat.le_max_right ..)

/-- Straight code that keeps the stack empty may be inserted wherever the machine arrives with an
empty stack. The body stays safe. -/
theorem StackSafe.insert (safe : StackSafe body shape) (entry : Reachable body shape ⟨at_, 0⟩)
    (fits : body.instructions.length + block.length < 2 ^ 64)
    (straight : Straight shape body.locals.length bound 0 block 0) :
    StackSafe (body.insert at_ block) shape where
  nonempty empty := by
    have inside := safe.lt_of_reachable entry
    have length : (body.insert at_ block).instructions.length = _ :=
      MethodBody.length_insert inside.le
    simp only [empty, List.length_nil] at length inside
    omega
  consistent _ _ left right same :=
    (Spot.of_reachable safe entry fits straight left).consistent safe
      (Spot.of_reachable safe entry fits straight right) same
  legal _ reached := (Spot.of_reachable safe entry fits straight reached).legal safe entry fits

include safe entry in
private theorem Reachable.through {before after : List Instruction} {depth : Nat}
    (split : block = before ++ after)
    (straight : Straight shape body.locals.length bound depth after final)
    (reached : Reachable (body.insert at_ block) shape ⟨at_ + before.length, depth⟩) :
    Reachable (body.insert at_ block) shape ⟨at_ + block.length, final⟩ := by
  have inside := safe.lt_of_reachable entry
  induction after generalizing before depth with
  | nil =>
      cases straight with
      | nil _ => simpa [split] using reached
  | cons instruction after hypothesis =>
      cases straight with
      | cons plain enough _ rest =>
          have here : (body.insert at_ block).instructions[at_ + before.length]? =
              some instruction := by
            rw [MethodBody.insert_add inside.le (by simp [split]), split]
            simp
          have next := reached.step (.mk here enough (plain.leads _))
          have split' : block = (before ++ [instruction]) ++ after := by simp [split]
          exact hypothesis split' rest
            (by simpa [Point.depthBehind, Nat.add_assoc] using next)

include safe entry fits in
/-- Whatever the machine reached it reaches again, at the shifted index. -/
theorem Reachable.insert (straight : Straight shape body.locals.length bound 0 block 0)
    {point : Point} (reached : Reachable body shape point) :
    Reachable (body.insert at_ block) shape
      ⟨MethodBody.shiftIndex at_ block.length point.index, point.depth⟩ := by
  have inside := safe.lt_of_reachable entry
  have arrive : Reachable (body.insert at_ block) shape ⟨at_, 0⟩ →
      Reachable (body.insert at_ block) shape
        ⟨MethodBody.shiftIndex at_ block.length at_, 0⟩ := by
    intro reached
    rw [MethodBody.shiftIndex_of_le (Nat.le_refl at_)]
    exact Reachable.through safe entry (List.nil_append block).symm straight reached
  induction reached with
  | refl =>
      by_cases start : at_ = 0
      · subst start
        exact arrive .start
      · rw [MethodBody.shiftIndex_of_lt (Nat.pos_of_ne_zero start)]
        exact .start
  | @tail point _ before step reached =>
      cases step with
      | @mk instruction _ found enough leads =>
          have behind : ∀ {target : Nat},
              (instruction.mapTarget (MethodBody.shiftTarget at_ block.length)).Leads
                (MethodBody.shiftIndex at_ block.length point.index) target →
              Reachable (body.insert at_ block) shape
                ⟨target, point.depthBehind shape instruction⟩ := by
            intro target leads
            have step : Step (body.insert at_ block) shape
                ⟨MethodBody.shiftIndex at_ block.length point.index, point.depth⟩ _ := .mk
              (by rw [MethodBody.insert_shiftIndex inside.le, found]; rfl)
              (by rwa [Instruction.effect_mapTarget]) leads
            simp only [Point.depthBehind, Instruction.effect_mapTarget] at step
            exact reached.step step
          cases leads with
          | @branch word branches operand =>
              have within := (safe.legal_at before found).inside _ (.branch branches operand)
              rw [← MethodBody.toNat_shiftTarget (by omega)]
              exact behind (.branch (by simpa using branches)
                ((instruction.operand_mapTarget_eq_branch _).mpr ⟨word, operand, rfl⟩))
          | next jumps returns =>
              have follows := behind (.next (by simpa using jumps) (by simpa using returns))
              by_cases falls : point.index + 1 = at_
              · -- the block comes first; by safety it is entered with an empty stack
                have reached' := Reachable.step before (.mk found enough (.next jumps returns))
                have empty : point.depthBehind shape instruction = 0 :=
                  safe.consistent _ _ reached' entry falls
                rw [MethodBody.shiftIndex_of_lt (by omega), falls, empty] at follows
                simp only [falls, empty]
                exact arrive follows
              · have same : MethodBody.shiftIndex at_ block.length (point.index + 1) =
                    MethodBody.shiftIndex at_ block.length point.index + 1 := by
                  unfold MethodBody.shiftIndex
                  split <;> split <;> omega
                rw [same]
                exact follows

end Insert

/-- A body that verifies still does once straight code is put in front of an instruction that it
reaches with an empty stack, if the declared stack is raised to what the code needs. -/
theorem verify_insert {body : MethodBody} {at_ : Nat} {block : List Instruction} (limit : UInt16)
    (verified : body.verify shape = .ok ()) (entry : Reachable body shape ⟨at_, 0⟩)
    (fits : body.instructions.length + block.length < 2 ^ 64)
    (straight : Straight shape body.locals.length limit.toNat 0 block 0) :
    ({ body.insert at_ block with maxStack := max body.maxStack limit } : MethodBody).verify shape =
      .ok () := by
  obtain ⟨safe, bounded⟩ := verify_iff.mp verified
  have safe' := safe.insert entry fits straight
  refine verify_iff.mpr ⟨safe'.congr rfl rfl, fun point reached => ?_⟩
  have reached' : Reachable (body.insert at_ block) shape point := reached.congr rfl
  have spot := Spot.of_reachable safe entry fits straight reached'
  have within := spot.depth_le bounded
  have raised : (max body.maxStack limit).toNat = max body.maxStack.toNat limit.toNat := by
    change (if body.maxStack ≤ limit then limit else body.maxStack).toNat = _
    split
    · next le => exact (Nat.max_eq_right (UInt16.le_iff_toNat_le.mp le)).symm
    · next lt =>
      rw [UInt16.le_iff_toNat_le] at lt
      exact (Nat.max_eq_left (Nat.le_of_not_le lt)).symm
  rw [raised]
  exact within

end PropertyWeaver.Verification
