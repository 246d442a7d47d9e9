import PropertyWeaver.Proofs.Verification.Depth

/-!
# Diagnoses

An error of the search is more than a refusal: it names an instruction and what is wrong there, and
whoever reads it looks at that instruction. What it says has to hold of the machine, so that a run
from the entry arrives at the named index and meets the named defect.
-/

set_option autoImplicit false

namespace PropertyWeaver

def VerifyError.offset? : VerifyError → Option Nat
  | .operandMismatch _ offset | .stackUnderflow offset | .stackMismatch offset _ _
  | .unbalancedReturn offset _ | .invalidTarget _ offset | .invalidLocal _ _ offset
  | .invalidArgument _ _ offset | .fallsOffEnd offset => some offset
  | .emptyBody | .maxStackTooSmall _ _ | .inMethod _ _ => none

namespace Verification

variable {body : MethodBody} {shape : BodyShape} {error : VerifyError}

private theorem Run.concat {points : List Point} {point next : Point} (run : Run body shape points)
    (last : points.getLast? = some point) (step : Step body shape point next) :
    Run body shape (points ++ [next]) where
  starts := by
    rw [List.head?_append, run.starts]
    rfl
  steps := by
    refine run.steps.append (.singleton next) fun before ends after starts => ?_
    rw [last] at ends
    obtain rfl := Option.some.inj ends
    obtain rfl := Option.some.inj starts
    exact step

private theorem Reachable.exists_run {point : Point} (reached : Reachable body shape point) :
    ∃ points, Run body shape points ∧ points.getLast? = some point := by
  induction reached with
  | refl => exact ⟨[⟨0, 0⟩], ⟨rfl, .singleton _⟩, rfl⟩
  | tail _ step hypothesis =>
      obtain ⟨points, run, last⟩ := hypothesis
      exact ⟨_, run.concat last step, List.getLast?_concat⟩

private theorem Defect.reachable {offset : Nat} (defect : Defect body shape error)
    (placed : error.offset? = some offset) : ∃ depth, Reachable body shape ⟨offset, depth⟩ := by
  cases defect with
  | emptyBody _ => cases placed
  | operandMismatch reached _ _ | invalidArgument reached _ _ _ | invalidLocal reached _ _ _
  | unbalancedReturn reached _ _ _ | stackUnderflow reached _ _ | invalidTarget reached _ _ _ _
  | fallsOffEnd reached _ _ _ _ | stackMismatch reached _ _ _ =>
      obtain rfl := Option.some.inj placed
      exact ⟨_, reached⟩

private theorem defect_of_requiredStack (fails : requiredStack body shape = .error error) :
    Defect body shape error := by
  rcases requiredStack_spec body shape with ⟨depth, found, _⟩ | ⟨error', fails', defect⟩
  · rw [fails] at found
    cases found
  · rw [fails] at fails'
    obtain rfl := Except.error.inj fails'
    exact defect

/-- An error of the search is true of the machine. It is one of the nine defects, with the numbers
that it reports, and a run from the entry ends at the index that it names. -/
theorem requiredStack_diagnoses (fails : requiredStack body shape = .error error) :
    Defect body shape error ∧
      ∀ offset, error.offset? = some offset →
        ∃ points depth, Run body shape points ∧ points.getLast? = some ⟨offset, depth⟩ := by
  have defect := defect_of_requiredStack fails
  refine ⟨defect, fun offset placed => ?_⟩
  obtain ⟨depth, reached⟩ := defect.reachable placed
  obtain ⟨points, run, last⟩ := reached.exists_run
  exact ⟨points, depth, run, last⟩

/-- A loop that pushes once more each time around reaches its entry with depths 0 and 1. -/
theorem requiredStack_diagnoses_loop :
    requiredStack (.ofCode 1 [Opcode.ldnull.plain, ⟨.br, .branch 0⟩]) ⟨0, false⟩ =
        .error (.stackMismatch 0 0 1) ∧
      Defect (.ofCode 1 [Opcode.ldnull.plain, ⟨.br, .branch 0⟩]) ⟨0, false⟩
        (.stackMismatch 0 0 1) := by
  have fails : requiredStack (.ofCode 1 [Opcode.ldnull.plain, ⟨.br, .branch 0⟩]) ⟨0, false⟩ =
      .error (.stackMismatch 0 0 1) := by decide
  exact ⟨fails, (requiredStack_diagnoses fails).1⟩

/-- What an error about a body with its declared stack says: there is a defect, or some run goes deeper
than declared and none goes deeper than required. -/
inductive Complaint (body : MethodBody) (shape : BodyShape) : VerifyError → Prop where
  | defect {error : VerifyError} : Defect body shape error → Complaint body shape error
  | tooDeep {required : Nat} :
      IsGreatest { depth | ∃ index, Reachable body shape ⟨index, depth⟩ } required →
      body.maxStack.toNat < required →
      Complaint body shape (.maxStackTooSmall body.maxStack.toNat required)

private theorem complaint_of_verify (fails : body.verify shape = .error error) :
    Complaint body shape error := by
  unfold MethodBody.verify at fails
  cases found : requiredStack body shape with
  | error cause =>
      rw [found] at fails
      obtain rfl := Except.error.inj fails
      exact .defect (defect_of_requiredStack found)
  | ok required =>
      simp only [found, Outcome.ok_bind] at fails
      split at fails
      · next deep =>
        obtain rfl := Except.error.inj fails
        exact .tooDeep (isGreatest_of_requiredStack found) deep
      · cases fails

/-- A module is refused with a complaint about a body of it, under the name of its method. -/
theorem exists_complaint_of_module {module : Module} (refused : module.verify = .error error) :
    ∃ type ∈ module.types, ∃ method ∈ type.methods, ∃ body cause,
      method.body = some body ∧ Complaint body method.shape cause ∧
      error = .inMethod (type.fullName ++ "::" ++ method.name) cause := by
  obtain ⟨type, listed, inside⟩ := Outcome.exists_of_forM_eq_error refused
  obtain ⟨method, member, named⟩ := Outcome.exists_of_forM_eq_error inside
  obtain ⟨cause, fails, rfl⟩ := Outcome.mapError_eq_error.mp named
  cases has : method.body with
  | none =>
      rw [MethodDef.verify, has] at fails
      cases fails
  | some body =>
      rw [MethodDef.verify, has] at fails
      exact ⟨type, listed, method, member, body, cause, has, complaint_of_verify fails, rfl⟩

end Verification

end PropertyWeaver
