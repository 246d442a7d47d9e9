import PropertyWeaver.Proofs.Verification.Depth

/-!
# Stack layouts

A layout assigns one depth to every instruction of a body. If each instruction is legal at its depth
and leaves the depth that its successors have, the machine never meets any other depth, so the body
verifies.
-/

set_option autoImplicit false

namespace PropertyWeaver.Verification

/-- An instruction agrees with a list of depths: it may be executed at its own depth, and what it
leaves is the depth of the instructions behind it. -/
structure Agrees (shape : BodyShape) (locals : Nat) (depths : List Nat) (index depth : Nat)
    (instruction : Instruction) : Prop where
  operand : instruction.wellFormed = true
  argument : ∀ index ∈ instruction.argument?, index < shape.argumentCount
  slot : ∀ index ∈ instruction.local?, index < locals
  enough : (instruction.effect shape).pops ≤ depth
  balanced : instruction.opcode = .ret → depth = (instruction.effect shape).pops
  jump : ∀ target ∈ instruction.target?,
    depths[target]? = some (Point.depthBehind ⟨index, depth⟩ shape instruction)
  next : instruction.fallsThrough = true →
    depths[index + 1]? = some (Point.depthBehind ⟨index, depth⟩ shape instruction)

/-- The depths in front of the instructions of a body. -/
structure Layout (body : MethodBody) (shape : BodyShape) (depths : List Nat) : Prop where
  size : depths.length = body.instructions.length
  entry : depths[0]? = some 0
  agrees : ∀ index instruction depth, body.instructions[index]? = some instruction →
    depths[index]? = some depth →
    Agrees shape body.locals.length depths index depth instruction
  bounded : ∀ depth ∈ depths, depth ≤ body.maxStack.toNat

namespace Layout

variable {body : MethodBody} {shape : BodyShape} {depths : List Nat}

private theorem follows (layout : Layout body shape depths) {index depth next : Nat}
    {instruction : Instruction} (found : body.instructions[index]? = some instruction)
    (recorded : depths[index]? = some depth) (leads : instruction.Leads index next) :
    depths[next]? = some (Point.depthBehind ⟨index, depth⟩ shape instruction) := by
  have agrees := layout.agrees index instruction depth found recorded
  rcases (leads_iff agrees.operand).mp leads with target | ⟨continues, rfl⟩
  · exact agrees.jump next target
  · exact agrees.next continues

private theorem of_reachable (layout : Layout body shape depths) {point : Point}
    (reached : Reachable body shape point) : depths[point.index]? = some point.depth := by
  induction reached with
  | refl => exact layout.entry
  | tail _ step recorded =>
      cases step with
      | mk found _ leads => exact layout.follows found recorded leads

private theorem stackSafe (layout : Layout body shape depths) : StackSafe body shape where
  nonempty empty := by
    have size := layout.size
    have entry := layout.entry
    rw [empty, List.length_nil, List.length_eq_zero_iff] at size
    simp [size] at entry
  consistent left right reachesLeft reachesRight same := by
    have recorded := layout.of_reachable reachesLeft
    rw [same, layout.of_reachable reachesRight] at recorded
    exact (Option.some.inj recorded).symm
  legal point reached := by
    have recorded := layout.of_reachable reached
    obtain ⟨inside, _⟩ := List.getElem?_eq_some_iff.mp recorded
    have found := List.getElem?_eq_getElem (layout.size ▸ inside)
    have agrees := layout.agrees _ _ _ found recorded
    refine ⟨_, found, ⟨agrees.operand, agrees.argument, agrees.slot, agrees.enough,
      agrees.balanced, fun next leads => ?_⟩⟩
    have recorded' := layout.follows found recorded leads
    exact layout.size ▸ (List.getElem?_eq_some_iff.mp recorded').1

theorem verify (depths : List Nat) (layout : Layout body shape depths) : body.verify shape = .ok () := by
  refine verify_iff.mpr ⟨layout.stackSafe, fun point reached => ?_⟩
  exact layout.bounded _ (List.mem_of_getElem? (layout.of_reachable reached))

end Layout

/-- Going through a list of instructions and a list of depths side by side. -/
theorem forall_getElem?_cons {α β : Type} {first : α} {rest : List α} {first' : β} {rest' : List β}
    {holds : Nat → α → β → Prop} :
    (∀ index left right, (first :: rest)[index]? = some left →
        (first' :: rest')[index]? = some right → holds index left right) ↔
      holds 0 first first' ∧
        ∀ index left right, rest[index]? = some left → rest'[index]? = some right →
          holds (index + 1) left right := by
  constructor
  · intro all
    refine ⟨all 0 first first' rfl rfl, fun index left right => ?_⟩
    simpa using all (index + 1) left right
  · rintro ⟨here, behind⟩ index left right
    cases index with
    | zero =>
        rintro found recorded
        obtain rfl := Option.some.inj found
        obtain rfl := Option.some.inj recorded
        exact here
    | succ index => simpa using behind index left right

end PropertyWeaver.Verification
