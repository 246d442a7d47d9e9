import Mathlib.Data.List.Induction
import PropertyWeaver.Proofs.Outcome
import PropertyWeaver.Weaving.Error

/-!
# Labels of assembled code

Code may be assembled by any operations in any order. What comes out are the lines that they append,
with every branch leading to the place where its label was marked last, before the branch or behind it.
-/

set_option autoImplicit false

namespace PropertyWeaver

namespace Assembly

/-! ## Operations -/

inductive Operation where
  | defineLabel
  | mark (label : Label)
  | branch (opcode : Opcode) (label : Label)
  | emit (opcode : Opcode)
  | emitWith (opcode : Opcode) (operand : Operand)
  | push (instruction : Instruction)
  | extend (code : List Instruction)
  deriving DecidableEq

def Operation.lines : Operation → List Line
  | .defineLabel => []
  | .mark _ => []
  | .branch opcode label => [.branch opcode label]
  | .emit opcode => [.instruction opcode.plain]
  | .emitWith opcode operand => [.instruction ⟨opcode, operand⟩]
  | .push instruction => [.instruction instruction]
  | .extend code => code.map Line.instruction

def perform (assembly : Assembly) : Operation → Assembly
  | .defineLabel => assembly.defineLabel.2
  | .mark label => assembly.mark label
  | .branch opcode label => assembly.branch opcode label
  | .emit opcode => assembly.push opcode.plain
  | .emitWith opcode operand => assembly.push ⟨opcode, operand⟩
  | .push instruction => assembly.push instruction
  | .extend code => assembly.append code

def performAll (operations : List Operation) : Assembly :=
  operations.foldl perform empty

def appended (operations : List Operation) : List Line :=
  operations.flatMap Operation.lines

def Operation.label? : Operation → Option Label
  | .mark label => some label
  | .branch _ label => some label
  | _ => none

/-- Every label in use has been returned by a definition before. -/
def LabelsDefined (operations : List Operation) : Prop :=
  ∀ index, (inside : index < operations.length) → ∀ label ∈ operations[index].label?,
    ∃ definition < index, operations[definition]? = some .defineLabel ∧
      (performAll (operations.take definition)).defineLabel.1 = label

instance : DecidablePred LabelsDefined := fun operations =>
  inferInstanceAs (Decidable (∀ index, (inside : index < operations.length) →
    ∀ label ∈ operations[index].label?,
      ∃ definition < index, operations[definition]? = some .defineLabel ∧
        (performAll (operations.take definition)).defineLabel.1 = label))

/-- The last mark of a label stands behind so many lines. -/
def MarkedLast (operations : List Operation) (label : Label) (position : Nat) : Prop :=
  ∃ before after, operations = before ++ .mark label :: after ∧ .mark label ∉ after ∧
    (appended before).length = position

/-- What becomes of a line: a branch leads to the last mark of its label, and an instruction stays as it
is, even if it brings a branch operand of its own. -/
inductive Resolves (operations : List Operation) : Line → Instruction → Prop
  | instruction (instruction : Instruction) : Resolves operations (.instruction instruction) instruction
  | branch (opcode : Opcode) {label : Label} {position : Nat}
      (marked : MarkedLast operations label position) :
      Resolves operations (.branch opcode label) ⟨opcode, .branch (.ofNat position)⟩

/-! ## Assemblies that follow their operations -/

variable {operations : List Operation} {label : Label} {position : Nat}

theorem performAll_append (operations : List Operation) (operation : Operation) :
    performAll (operations ++ [operation]) = (performAll operations).perform operation :=
  List.foldl_concat perform empty operation operations

private theorem appended_append (operations later : List Operation) :
    appended (operations ++ later) = appended operations ++ appended later :=
  List.flatMap_append

private theorem appended_cons (operation : Operation) (operations : List Operation) :
    appended (operation :: operations) = operation.lines ++ appended operations :=
  List.flatMap_cons

private theorem Operation.branch_mem_lines {operation : Operation} {opcode : Opcode} :
    Line.branch opcode label ∈ operation.lines ↔ operation = .branch opcode label := by
  cases operation <;> simp [lines, eq_comm]

private theorem branch_mem_appended {opcode : Opcode} :
    Line.branch opcode label ∈ appended operations ↔ .branch opcode label ∈ operations := by
  simp only [appended, List.mem_flatMap, Operation.branch_mem_lines, exists_eq_right]

private theorem appended_eq_append_branch {opcode : Opcode} {front back : List Line} :
    appended operations = front ++ .branch opcode label :: back ↔
      ∃ before after, operations = before ++ .branch opcode label :: after ∧
        appended before = front ∧ appended after = back := by
  constructor
  · intro split
    induction operations generalizing front with
    | nil => simp [appended] at split
    | cons operation operations hypothesis =>
        rw [appended_cons] at split
        have later {middle : List Line} (reached : front = operation.lines ++ middle)
            (rest : appended operations = middle ++ .branch opcode label :: back) :
            ∃ before after, operation :: operations = before ++ .branch opcode label :: after ∧
              appended before = front ∧ appended after = back := by
          obtain ⟨before, after, rfl, rfl, rfl⟩ := hypothesis rest
          exact ⟨operation :: before, after, rfl, reached.symm, rfl⟩
        cases List.append_eq_append_iff.mp split with
        | inl behind =>
            obtain ⟨middle, reached, rest⟩ := behind
            exact later reached rest
        | inr within =>
            obtain ⟨middle, whole, rest⟩ := within
            cases middle with
            | nil =>
                rw [List.append_nil] at whole
                exact later (whole.symm.trans (List.append_nil _).symm) rest.symm
            | cons first middle =>
                obtain ⟨rfl, rfl⟩ := List.cons.inj rest
                have member : Line.branch opcode label ∈ operation.lines := by
                  rw [whole]
                  exact List.mem_append_right front List.mem_cons_self
                obtain rfl := Operation.branch_mem_lines.mp member
                have alone : [Line.branch opcode label] =
                    front ++ .branch opcode label :: middle := whole
                cases front with
                | nil =>
                    obtain ⟨-, rfl⟩ := List.cons.inj alone
                    exact ⟨[], operations, rfl, rfl, rfl⟩
                | cons other front =>
                    have short := congrArg List.length alone
                    simp at short
  · intro split
    obtain ⟨before, after, rfl, rfl, rfl⟩ := split
    rw [appended_append, appended_cons]
    rfl

private theorem length_marks_performAll (operations : List Operation) :
    (performAll operations).marks.length = operations.count .defineLabel := by
  induction operations using List.reverseRecOn with
  | nil => rfl
  | append_singleton operations operation hypothesis =>
      rw [performAll_append, List.count_append, ← hypothesis]
      cases operation <;> simp [perform, defineLabel, mark, branch, push, append]

namespace LabelsDefined

variable {operation : Operation}

private theorem of_append
    (defined : LabelsDefined (operations ++ [operation])) : LabelsDefined operations := by
  intro index inside label used
  have inside' : index < (operations ++ [operation]).length := by
    rw [List.length_append]
    exact Nat.lt_add_right 1 inside
  have same : (operations ++ [operation]).get ⟨index, inside'⟩ = operations[index] :=
    List.getElem_append_left inside
  rw [← same] at used
  obtain ⟨definition, earlier, found, returned⟩ := defined index inside' label used
  have within := Nat.lt_trans earlier inside
  rw [List.getElem?_append_left within] at found
  rw [List.take_append_of_le_length (Nat.le_of_lt within)] at returned
  exact ⟨definition, earlier, found, returned⟩

private theorem lt_length (defined : LabelsDefined (operations ++ [operation]))
    (used : operation.label? = some label) : label < (performAll operations).marks.length := by
  obtain ⟨definition, earlier, found, returned⟩ :=
    defined operations.length (by simp) label (by simpa using used)
  rw [List.getElem?_append_left earlier] at found
  rw [List.take_append_of_le_length (Nat.le_of_lt earlier)] at returned
  change (performAll (operations.take definition)).marks.length = label at returned
  have upTo : operations.take (definition + 1) = operations.take definition ++ [.defineLabel] := by
    rw [List.take_add_one, found]
    rfl
  have counted := (List.take_sublist (definition + 1) operations).count_le Operation.defineLabel
  rw [upTo, List.count_append, List.count_singleton_self] at counted
  rw [length_marks_performAll] at returned ⊢
  rwa [returned] at counted

end LabelsDefined

private theorem MarkedLast.mem
    (marked : MarkedLast operations label position) : .mark label ∈ operations := by
  obtain ⟨before, after, rfl, -⟩ := marked
  exact List.mem_append_right before List.mem_cons_self

/-- The last mark is either the operation just performed, or another one behind which it stands. -/
theorem markedLast_append {operation : Operation} :
    MarkedLast (operations ++ [operation]) label position ↔
      operation = .mark label ∧ (appended operations).length = position ∨
      operation ≠ .mark label ∧ MarkedLast operations label position := by
  constructor
  · intro marked
    obtain ⟨before, after, split, unmarked, counted⟩ := marked
    cases List.eq_nil_or_concat after with
    | inl none =>
        subst none
        obtain ⟨rfl, last⟩ := List.append_inj' split rfl
        exact .inl ⟨List.singleton_inj.mp last, counted⟩
    | inr some =>
        obtain ⟨front, last, rfl⟩ := some
        rw [List.concat_eq_append] at split unmarked
        rw [← List.cons_append, ← List.append_assoc] at split
        obtain ⟨rfl, same⟩ := List.append_inj' split rfl
        obtain rfl := List.singleton_inj.mp same
        rw [List.mem_append, List.mem_singleton, not_or] at unmarked
        exact .inr ⟨Ne.symm unmarked.2, before, front, rfl, unmarked.1, counted⟩
  · intro marked
    cases marked with
    | inl last =>
        obtain ⟨rfl, counted⟩ := last
        exact ⟨operations, [], rfl, List.not_mem_nil, counted⟩
    | inr earlier =>
        obtain ⟨other, before, after, rfl, unmarked, counted⟩ := earlier
        refine ⟨before, after ++ [operation], List.append_assoc before _ _, ?_, counted⟩
        rw [List.mem_append, List.mem_singleton, not_or]
        exact ⟨unmarked, other.symm⟩

private theorem exists_markedLast (marked : .mark label ∈ operations) :
    ∃ position, MarkedLast operations label position := by
  induction operations using List.reverseRecOn with
  | nil => cases marked
  | append_singleton operations operation hypothesis =>
      simp only [markedLast_append]
      by_cases last : operation = .mark label
      · exact ⟨_, .inl ⟨last, rfl⟩⟩
      · have earlier : .mark label ∈ operations :=
          (List.mem_append.mp marked).resolve_right (last ∘ Eq.symm ∘ List.mem_singleton.mp)
        obtain ⟨position, there⟩ := hypothesis earlier
        exact ⟨position, .inr ⟨last, there⟩⟩

private theorem position?_defineLabel (assembly : Assembly) (label : Label) :
    assembly.defineLabel.2.position? label = assembly.position? label := by
  change ((assembly.marks ++ [none])[label]?).join = (assembly.marks[label]?).join
  rw [List.getElem?_append]
  split
  · rfl
  next outside =>
    rw [List.getElem?_eq_none (Nat.le_of_not_lt outside)]
    cases label - assembly.marks.length <;> rfl

private theorem position?_mark {assembly : Assembly} {marked : Label}
    (known : marked < assembly.marks.length) (label : Label) :
    (assembly.mark marked).position? label =
      if marked = label then some assembly.size else assembly.position? label := by
  change ((assembly.marks.set marked _)[label]?).join = _
  rw [List.getElem?_set]
  split
  next same =>
    subst same
    rfl
  · rfl

private theorem position?_perform {assembly : Assembly} {operation : Operation}
    (other : ∀ marked, operation ≠ .mark marked) (label : Label) :
    (assembly.perform operation).position? label = assembly.position? label := by
  cases operation with
  | defineLabel => exact position?_defineLabel assembly label
  | mark marked => exact absurd rfl (other marked)
  | _ => rfl

private theorem lines_perform (assembly : Assembly) (operation : Operation) :
    (assembly.perform operation).lines = assembly.lines ++ operation.lines := by
  cases operation <;> simp [perform, defineLabel, mark, branch, push, append, Operation.lines]

/-- The lines are those that the operations append, and every label has the position of its last mark. -/
structure Follows (assembly : Assembly) (operations : List Operation) : Prop where
  lines : assembly.lines = appended operations
  position : ∀ label position,
    assembly.position? label = some position ↔ MarkedLast operations label position

/-- One more operation is followed, if it does not mark a label that nobody knows. -/
theorem Follows.perform {assembly : Assembly} {operation : Operation}
    (follows : assembly.Follows operations)
    (known : ∀ label, operation = .mark label → label < assembly.marks.length) :
    (assembly.perform operation).Follows (operations ++ [operation]) where
  lines := by
    rw [lines_perform, follows.lines, appended_append, appended_cons]
    exact congrArg _ (List.append_nil _).symm
  position := by
    intro label position
    rw [markedLast_append, ← follows.position, ← follows.lines]
    by_cases marks : ∃ marked, operation = .mark marked
    · obtain ⟨marked, rfl⟩ := marks
      rw [Assembly.perform, position?_mark (known marked rfl)]
      by_cases same : marked = label
      · simp [same, size]
      · simp [same]
    · have other := not_exists.mp marks
      rw [position?_perform other]
      simp [other label]

private theorem follows_performAll (defined : LabelsDefined operations) :
    (performAll operations).Follows operations := by
  induction operations using List.reverseRecOn with
  | nil =>
      refine ⟨rfl, fun label position => iff_of_false ?_ fun marked => nomatch marked.mem⟩
      exact nofun
  | append_singleton operations operation hypothesis =>
      rw [performAll_append]
      refine (hypothesis defined.of_append).perform fun label same => ?_
      exact defined.lt_length (congrArg Operation.label? same)

/-! ## Finished code -/

theorem resolve_branch_eq_ok {assembly : Assembly} {opcode : Opcode} {instruction : Instruction} :
    assembly.resolve (.branch opcode label) = .ok instruction ↔
      ∃ position, assembly.position? label = some position ∧
        instruction = ⟨opcode, .branch (.ofNat position)⟩ := by
  rw [resolve]
  cases assembly.position? label <;> simp [eq_comm]

theorem resolve_branch_eq_error {assembly : Assembly} {opcode : Opcode} {unbound : Label} :
    assembly.resolve (.branch opcode label) = .error unbound ↔
      assembly.position? label = none ∧ label = unbound := by
  rw [resolve]
  cases assembly.position? label <;> simp

namespace Follows

variable {assembly : Assembly} {line : Line} {instruction : Instruction}

private theorem position?_eq_none (follows : assembly.Follows operations) :
    assembly.position? label = none ↔ .mark label ∉ operations := by
  rw [Option.eq_none_iff_forall_ne_some]
  constructor
  · intro unbound marked
    obtain ⟨position, last⟩ := exists_markedLast marked
    exact unbound position ((follows.position label position).mpr last)
  · intro unmarked position bound
    exact unmarked ((follows.position label position).mp bound).mem

private theorem resolve_eq_ok (follows : assembly.Follows operations) :
    assembly.resolve line = .ok instruction ↔ Resolves operations line instruction := by
  cases line with
  | instruction kept =>
      constructor
      · intro same
        cases same
        exact .instruction _
      · intro resolves
        cases resolves
        rfl
  | branch opcode label =>
      rw [resolve_branch_eq_ok]
      constructor
      · intro bound
        obtain ⟨position, there, rfl⟩ := bound
        exact .branch opcode ((follows.position label position).mp there)
      · intro resolves
        cases resolves with
        | branch opcode marked => exact ⟨_, (follows.position label _).mpr marked, rfl⟩

private theorem resolve_eq_error (follows : assembly.Follows operations) :
    assembly.resolve line = .error label ↔
      ∃ opcode, line = .branch opcode label ∧ .mark label ∉ operations := by
  cases line with
  | instruction kept => simp [resolve]
  | branch opcode used =>
      rw [resolve_branch_eq_error, follows.position?_eq_none]
      constructor
      · intro unbound
        obtain ⟨unmarked, rfl⟩ := unbound
        exact ⟨opcode, rfl, unmarked⟩
      · intro unbound
        obtain ⟨_, same, unmarked⟩ := unbound
        cases same
        exact ⟨unmarked, rfl⟩

private theorem exists_resolve_eq_ok (follows : assembly.Follows operations) :
    (∃ instruction, assembly.resolve line = .ok instruction) ↔
      ∀ opcode label, line = .branch opcode label → .mark label ∈ operations := by
  constructor
  · intro resolves opcode label same
    by_contra unmarked
    obtain ⟨instruction, resolved⟩ := resolves
    cases resolved.symm.trans (follows.resolve_eq_error.mpr ⟨opcode, same, unmarked⟩)
  · intro marked
    cases resolved : assembly.resolve line with
    | ok instruction => exact ⟨instruction, rfl⟩
    | error label =>
        obtain ⟨opcode, same, unmarked⟩ := follows.resolve_eq_error.mp resolved
        exact absurd (marked opcode label same) unmarked

private theorem exists_finish_eq_ok (follows : assembly.Follows operations) :
    (∃ code, assembly.finish = .ok code) ↔
      ∀ opcode label, .branch opcode label ∈ operations → .mark label ∈ operations := by
  rw [finish, Outcome.exists_mapM_eq_ok, follows.lines]
  simp only [follows.exists_resolve_eq_ok, ← branch_mem_appended]
  constructor
  · intro resolves opcode label used
    exact resolves _ used opcode label rfl
  · intro marked line member opcode label same
    exact marked opcode label (same ▸ member)

private theorem finish_eq_error (follows : assembly.Follows operations) :
    assembly.finish = .error label ↔
      ∃ before opcode after, operations = before ++ .branch opcode label :: after ∧
        (∀ opcode label, .branch opcode label ∈ before → .mark label ∈ operations) ∧
        .mark label ∉ operations := by
  rw [finish, follows.lines, Outcome.mapM_eq_error]
  simp only [follows.exists_resolve_eq_ok, follows.resolve_eq_error]
  constructor
  · intro fails
    obtain ⟨front, line, back, split, marked, opcode, rfl, unmarked⟩ := fails
    obtain ⟨before, after, rfl, rfl, -⟩ := appended_eq_append_branch.mp split
    refine ⟨before, opcode, after, rfl, ?_, unmarked⟩
    intro opcode label used
    exact marked _ (branch_mem_appended.mpr used) opcode label rfl
  · intro fails
    obtain ⟨before, opcode, after, split, marked, unmarked⟩ := fails
    refine ⟨appended before, _, appended after,
      appended_eq_append_branch.mpr ⟨before, after, split, rfl, rfl⟩, ?_, opcode, rfl, unmarked⟩
    intro line member opcode label same
    subst same
    exact marked opcode label (branch_mem_appended.mp member)

private theorem finish_eq_ok (follows : assembly.Follows operations) {code : List Instruction} :
    assembly.finish = .ok code ↔ List.Forall₂ (Resolves operations) (appended operations) code := by
  rw [finish, Outcome.mapM_eq_ok, follows.lines]
  simp only [follows.resolve_eq_ok]

end Follows

/-- Code can be finished exactly if every label that a branch uses is marked somewhere; otherwise it
fails with the label of the first branch for which this is not so. Finished code has an instruction for
every line, in order: what was appended as an instruction is unchanged, and a branch leads to the number
of lines before the last mark of its label. -/
theorem finish_laws (operations : List Operation) (defined : LabelsDefined operations) :
    ((∃ code, (performAll operations).finish = .ok code) ↔
      ∀ opcode label, .branch opcode label ∈ operations → .mark label ∈ operations) ∧
    (∀ error, (performAll operations).finish.mapError WeaveError.unboundLabel = .error error ↔
      ∃ before opcode label after,
        operations = before ++ .branch opcode label :: after ∧
        (∀ opcode label, .branch opcode label ∈ before → .mark label ∈ operations) ∧
        .mark label ∉ operations ∧ error = .unboundLabel label) ∧
    (∀ code, (performAll operations).finish = .ok code ↔
      List.Forall₂ (Resolves operations) (appended operations) code) := by
  have follows := follows_performAll defined
  refine ⟨follows.exists_finish_eq_ok, ?_, fun _ => follows.finish_eq_ok⟩
  intro error
  simp only [Outcome.mapError_eq_error, follows.finish_eq_error]
  constructor
  · intro fails
    obtain ⟨label, ⟨before, opcode, after, split, marked, unmarked⟩, same⟩ := fails
    exact ⟨before, opcode, label, after, split, marked, unmarked, same⟩
  · intro fails
    obtain ⟨before, opcode, label, after, split, marked, unmarked, same⟩ := fails
    exact ⟨label, ⟨before, opcode, after, split, marked, unmarked⟩, same⟩

/-- A label that is marked twice, a loop, and a branch that was already resolved. -/
def twiceMarked : List Operation :=
  [.defineLabel, .mark 0, .push ⟨.br, .branch 7⟩, .defineLabel, .branch .brtrue 1, .mark 1,
   .branch .br 0, .mark 1, .emit .ret]

theorem finish_twiceMarked :
    LabelsDefined twiceMarked ∧
      (performAll twiceMarked).finish =
        .ok [⟨.br, .branch 7⟩, ⟨.brtrue, .branch 3⟩, ⟨.br, .branch 0⟩, Opcode.ret.plain] := by
  have defined : LabelsDefined twiceMarked := by decide
  have loop : MarkedLast twiceMarked 0 0 :=
    ⟨[.defineLabel], twiceMarked.drop 2, rfl, by decide, rfl⟩
  have exit : MarkedLast twiceMarked 1 3 :=
    ⟨twiceMarked.take 7, [.emit .ret], rfl, by decide, rfl⟩
  refine ⟨defined, ((finish_laws twiceMarked defined).2.2 _).mpr ?_⟩
  exact .cons (.instruction _) (.cons (.branch .brtrue exit) (.cons (.branch .br loop)
    (.cons (.instruction _) .nil)))

end Assembly

end PropertyWeaver
