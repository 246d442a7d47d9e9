import Mathlib.Order.Bounds.Defs
import PropertyWeaver.Proofs.Verification.Search

/-!
# The required stack is the greatest depth

When the search ends nothing is pending, so the recorded depths are closed under the steps of the
machine. They are then exactly the reachable points: the body is stack safe, and the greatest depth
met is the greatest depth that any run reaches.
-/

set_option autoImplicit false

namespace PropertyWeaver.Verification

variable {body : MethodBody} {shape : BodyShape}

section Closed

variable {search : Search} (valid : Valid body shape search) (idle : search.pending = [])

include valid idle

/-- With nothing pending every step leads from a record to a record. -/
theorem Valid.recorded_step {point next : Point}
    (recorded : search.recorded point.index = some point.depth)
    (step : Step body shape point next) : search.recorded next.index = some next.depth := by
  cases step with
  | mk found enough leads =>
      obtain ⟨instruction, found', _, follows⟩ :=
        valid.visited point.index point.depth recorded (idle ▸ List.not_mem_nil)
      obtain rfl := Option.some.inj (found.symm.trans found')
      exact follows _ leads

private theorem Valid.recorded_of_reachable {point : Point} (reached : Reachable body shape point) :
    search.recorded point.index = some point.depth := by
  induction reached with
  | refl => exact valid.entry
  | tail _ step recorded => exact valid.recorded_step idle recorded step

private theorem Valid.stackSafe : StackSafe body shape where
  nonempty empty := by
    have inside := Search.recorded_lt valid.entry
    simp [valid.size, empty] at inside
  consistent left right reachesLeft reachesRight same := by
    have recorded := valid.recorded_of_reachable idle reachesLeft
    rw [same, valid.recorded_of_reachable idle reachesRight] at recorded
    exact (Option.some.inj recorded).symm
  legal point reached := by
    have recorded := valid.recorded_of_reachable idle reached
    obtain ⟨instruction, found, legal, _⟩ :=
      valid.visited point.index point.depth recorded (idle ▸ List.not_mem_nil)
    exact ⟨instruction, found, legal⟩

private theorem Valid.isGreatest :
    IsGreatest { depth | ∃ index, Reachable body shape ⟨index, depth⟩ } search.deepest := by
  constructor
  · obtain ⟨index, recorded⟩ := valid.attained
    exact ⟨index, valid.reached index _ recorded⟩
  · rintro depth ⟨index, reached⟩
    exact valid.bounded index depth (valid.recorded_of_reachable idle reached)

end Closed

/-- The search answers with the greatest depth of a stack safe body, or names a defect. -/
theorem requiredStack_spec (body : MethodBody) (shape : BodyShape) :
    (∃ depth, requiredStack body shape = .ok depth ∧ StackSafe body shape ∧
      IsGreatest { depth | ∃ index, Reachable body shape ⟨index, depth⟩ } depth) ∨
    (∃ error, requiredStack body shape = .error error ∧ Defect body shape error) := by
  unfold requiredStack
  by_cases empty : body.instructions = []
  · exact .inr ⟨.emptyBody, by simp [empty], .emptyBody empty⟩
  · rw [if_neg (by simpa using empty)]
    have positive := List.length_pos_iff.mpr empty
    have valid : Valid body shape (Search.initial body.instructions.length) :=
      valid_initial empty
    rcases run_spec valid (work_initial positive).le with
      ⟨final, ends, valid, idle⟩ | failure
    · exact .inl ⟨final.deepest, ends, valid.stackSafe idle, valid.isGreatest idle⟩
    · exact .inr failure

private theorem requiredStack_isOk_iff :
    (∃ depth, requiredStack body shape = .ok depth) ↔ StackSafe body shape := by
  rcases requiredStack_spec body shape with ⟨depth, found, safe, _⟩ | ⟨error, fails, defect⟩
  · exact ⟨fun _ => safe, fun _ => ⟨depth, found⟩⟩
  · constructor
    · rintro ⟨depth, found⟩
      rw [fails] at found
      cases found
    · intro safe
      exact absurd safe defect.not_stackSafe

theorem isGreatest_of_requiredStack {depth : Nat} (found : requiredStack body shape = .ok depth) :
    IsGreatest { depth | ∃ index, Reachable body shape ⟨index, depth⟩ } depth := by
  rcases requiredStack_spec body shape with ⟨depth', found', _, greatest⟩ | ⟨error, fails, _⟩
  · rw [found] at found'
    obtain rfl := Except.ok.inj found'
    exact greatest
  · rw [fails] at found
    cases found

private theorem verify_eq_ok_iff :
    body.verify shape = .ok () ↔
      ∃ depth, requiredStack body shape = .ok depth ∧ depth ≤ body.maxStack.toNat := by
  unfold MethodBody.verify
  cases requiredStack body shape with
  | error error => simp
  | ok depth =>
      by_cases deep : body.maxStack.toNat < depth
      · simp [deep]
      · simp [deep, Nat.le_of_not_lt deep]

theorem verify_iff :
    body.verify shape = .ok () ↔
      StackSafe body shape ∧
        ∀ point, Reachable body shape point → point.depth ≤ body.maxStack.toNat := by
  rw [verify_eq_ok_iff, ← requiredStack_isOk_iff]
  constructor
  · rintro ⟨depth, found, fits⟩
    refine ⟨⟨depth, found⟩, fun point reached => ?_⟩
    exact Nat.le_trans ((isGreatest_of_requiredStack found).2 ⟨point.index, reached⟩) fits
  · rintro ⟨⟨depth, found⟩, fits⟩
    obtain ⟨index, reached⟩ := (isGreatest_of_requiredStack found).1
    exact ⟨depth, found, fits _ reached⟩

/-- The verifier is sound and complete for the depth machine. It finds a required stack exactly if
the body is stack safe, and this is the greatest depth that the machine reaches, so no run of any
length goes above it. A body is accepted if it declares at least that much. -/
theorem requiredStack_sound_complete (body : MethodBody) (shape : BodyShape) :
    ((∃ depth, requiredStack body shape = .ok depth) ↔ StackSafe body shape) ∧
    (∀ depth, requiredStack body shape = .ok depth →
      IsGreatest { depth | ∃ index, Reachable body shape ⟨index, depth⟩ } depth ∧
      ∀ points, Run body shape points → ∀ point ∈ points, point.depth ≤ depth) ∧
    (body.verify shape = .ok () ↔
      ∃ depth, requiredStack body shape = .ok depth ∧ depth ≤ body.maxStack.toNat) := by
  refine ⟨requiredStack_isOk_iff, fun depth found => ?_, verify_eq_ok_iff⟩
  have greatest := isGreatest_of_requiredStack found
  refine ⟨greatest, fun points run point passes => ?_⟩
  exact greatest.2 ⟨point.index, run.reachable passes⟩

end PropertyWeaver.Verification
