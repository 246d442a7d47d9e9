import PropertyWeaver.Proofs.Code.Labels

/-!
# Branches patched in place

Code can also be assembled with nothing but instructions. A branch to a label is then an instruction
with an open target and a note of its index, and finishing writes the targets at the noted indices.
The notes are the indices of the open branches in order at any time, so both ways of assembling give
the same code for the same operations, or fail with the same label.
-/

set_option autoImplicit false

namespace PropertyWeaver

/-- Unfinished code without lines: the instructions so far, for every defined label the position at
which it was marked last, and the noted indices with the labels that they wait for. -/
structure Draft where
  instructions : List Instruction
  marks : List (Option Nat)
  fixups : List (Nat × Label)
  deriving DecidableEq

namespace Draft

/-- A target that no code is long enough to have. -/
def openTarget : Operand := .branch 0xFFFFFFFFFFFFFFFF

def empty : Draft := ⟨[], [], []⟩

def extend (draft : Draft) (code : List Instruction) : Draft :=
  { draft with instructions := draft.instructions ++ code }

def defineLabel (draft : Draft) : Label × Draft :=
  (draft.marks.length, { draft with marks := draft.marks ++ [none] })

def mark (draft : Draft) (label : Label) : Draft :=
  { draft with marks := draft.marks.set label (some draft.instructions.length) }

def branch (draft : Draft) (opcode : Opcode) (label : Label) : Draft :=
  { draft with
    instructions := draft.instructions ++ [⟨opcode, openTarget⟩]
    fixups := draft.fixups ++ [(draft.instructions.length, label)] }

/-- Writes the target of one noted branch. -/
def patch (marks : List (Option Nat)) (code : List Instruction) (fixup : Nat × Label) :
    Except Label (List Instruction) :=
  match (marks[fixup.2]?).join with
  | some target =>
      .ok (code.modify fixup.1 fun instruction =>
        { instruction with operand := .branch (.ofNat target) })
  | none => .error fixup.2

def finish (draft : Draft) : Except Label (List Instruction) :=
  draft.fixups.foldlM (patch draft.marks) draft.instructions

def perform (draft : Draft) : Assembly.Operation → Draft
  | .defineLabel => draft.defineLabel.2
  | .mark label => draft.mark label
  | .branch opcode label => draft.branch opcode label
  | .emit opcode => draft.extend [opcode.plain]
  | .emitWith opcode operand => draft.extend [⟨opcode, operand⟩]
  | .push instruction => draft.extend [instruction]
  | .extend code => draft.extend code

def performAll (operations : List Assembly.Operation) : Draft :=
  operations.foldl perform empty

end Draft

/-! ## The draft of an assembly -/

/-- The instruction that stands for a line until the code is finished. -/
def Line.unresolved : Line → Instruction
  | .instruction kept => kept
  | .branch opcode _ => ⟨opcode, Draft.openTarget⟩

/-- The indices of the branches among lines, the first of which has the given index. -/
def Line.fixupsFrom : (index : Nat) → List Line → List (Nat × Label)
  | _, [] => []
  | index, .instruction _ :: rest => fixupsFrom (index + 1) rest
  | index, .branch _ label :: rest => (index, label) :: fixupsFrom (index + 1) rest

def Assembly.draft (assembly : Assembly) : Draft where
  instructions := assembly.lines.map Line.unresolved
  marks := assembly.marks
  fixups := Line.fixupsFrom 0 assembly.lines

namespace Line

private theorem fixupsFrom_append (index : Nat) (front back : List Line) :
    fixupsFrom index (front ++ back) =
      fixupsFrom index front ++ fixupsFrom (index + front.length) back := by
  induction front generalizing index with
  | nil => rfl
  | cons line front hypothesis =>
      rw [List.length_cons, Nat.add_comm front.length, ← Nat.add_assoc]
      cases line with
      | instruction instruction => exact hypothesis (index + 1)
      | branch opcode label => exact congrArg _ (hypothesis (index + 1))

private theorem fixupsFrom_instructions (index : Nat) (code : List Instruction) :
    fixupsFrom index (code.map instruction) = [] := by
  induction code generalizing index with
  | nil => rfl
  | cons first code hypothesis => exact hypothesis (index + 1)

private theorem exists_of_mem_fixupsFrom {index place : Nat} {label : Label} {lines : List Line}
    (noted : (place, label) ∈ fixupsFrom index lines) :
    ∃ offset opcode, place = index + offset ∧ lines[offset]? = some (.branch opcode label) := by
  induction lines generalizing index with
  | nil => cases noted
  | cons line rest hypothesis =>
      have later (noted : (place, label) ∈ fixupsFrom (index + 1) rest) : ∃ offset opcode,
          place = index + offset ∧ (line :: rest)[offset]? = some (.branch opcode label) := by
        obtain ⟨offset, opcode, rfl, found⟩ := hypothesis noted
        exact ⟨offset + 1, opcode, by omega, found⟩
      cases line with
      | instruction kept => exact later noted
      | branch opcode other =>
          cases noted with
          | head => exact ⟨0, opcode, rfl, rfl⟩
          | tail _ noted => exact later noted

private theorem pairwise_fixupsFrom (index : Nat) (lines : List Line) :
    (fixupsFrom index lines).Pairwise fun first second => first.1 < second.1 := by
  induction lines generalizing index with
  | nil => exact .nil
  | cons line rest hypothesis =>
      cases line with
      | instruction kept => exact hypothesis (index + 1)
      | branch opcode label =>
          refine .cons ?_ (hypothesis (index + 1))
          rintro ⟨place, other⟩ member
          obtain ⟨offset, _, rfl, _⟩ := exists_of_mem_fixupsFrom member
          change index < index + 1 + offset
          omega

end Line

namespace Assembly

@[simp] theorem draft_append (assembly : Assembly) (code : List Instruction) :
    (assembly.append code).draft = assembly.draft.extend code := by
  have kept : code.map (Line.unresolved ∘ Line.instruction) = code := List.map_id code
  simp [draft, append, Draft.extend, Line.fixupsFrom_append, Line.fixupsFrom_instructions, kept]

@[simp] theorem draft_branch (assembly : Assembly) (opcode : Opcode) (label : Label) :
    (assembly.branch opcode label).draft = assembly.draft.branch opcode label := by
  simp [draft, branch, Draft.branch, Line.fixupsFrom_append, Line.fixupsFrom, Line.unresolved]

@[simp] theorem draft_mark (assembly : Assembly) (label : Label) :
    (assembly.mark label).draft = assembly.draft.mark label := by
  simp [draft, mark, Draft.mark, size]

/-- An operation does the same to an assembly and to its draft. -/
theorem draft_perform (assembly : Assembly) (operation : Operation) :
    (assembly.perform operation).draft = assembly.draft.perform operation := by
  cases operation with
  | defineLabel => rfl
  | mark label => exact draft_mark assembly label
  | branch opcode label => exact draft_branch assembly opcode label
  | _ => exact draft_append assembly _

private theorem draft_performAll (operations : List Operation) :
    (performAll operations).draft = Draft.performAll operations := by
  induction operations using List.reverseRecOn with
  | nil => rfl
  | append_singleton operations operation hypothesis =>
      rw [performAll_append, draft_perform, hypothesis]
      exact (List.foldl_concat Draft.perform Draft.empty operation operations).symm

/-! ## Patching -/

private theorem patch_of_none {assembly : Assembly} {index : Nat} {label : Label}
    {code : List Instruction} (unbound : assembly.position? label = none) :
    Draft.patch assembly.marks code (index, label) = .error label := by
  change (match assembly.position? label with | some _ => _ | none => _) = _
  rw [unbound]

private theorem patch_of_some {assembly : Assembly} {opcode : Opcode} {label : Label} {target : Nat}
    (bound : assembly.position? label = some target) (finished rest : List Instruction) :
    Draft.patch assembly.marks (finished ++ ⟨opcode, Draft.openTarget⟩ :: rest)
        (finished.length, label) =
      .ok (finished ++ ⟨opcode, .branch (.ofNat target)⟩ :: rest) := by
  change (match assembly.position? label with | some _ => _ | none => _) = _
  rw [bound]
  simp [List.modify_eq_set_getElem?]

private theorem map_mapM_cons {assembly : Assembly} {line : Line} {first : Instruction}
    (resolved : assembly.resolve line = .ok first) (finished : List Instruction) (rest : List Line) :
    (finished ++ ·) <$> (line :: rest).mapM assembly.resolve =
      (finished ++ [first] ++ ·) <$> rest.mapM assembly.resolve := by
  rw [List.mapM_cons, resolved]
  cases rest.mapM assembly.resolve with
  | error label => rfl
  | ok code => exact congrArg Except.ok (List.append_cons finished first code)

/-- Patching the branches among lines behind finished code resolves the lines one after the other. -/
theorem foldlM_patch (assembly : Assembly) (finished : List Instruction) (lines : List Line) :
    (Line.fixupsFrom finished.length lines).foldlM (Draft.patch assembly.marks)
        (finished ++ lines.map Line.unresolved) =
      (finished ++ ·) <$> lines.mapM assembly.resolve := by
  induction lines generalizing finished with
  | nil => rfl
  | cons line rest hypothesis =>
      -- with its first line resolved, the finished code is one instruction longer
      have longer (first : Instruction) := hypothesis (finished ++ [first])
      simp only [List.length_append, List.length_singleton] at longer
      cases line with
      | instruction kept =>
          have resolved : assembly.resolve (.instruction kept) = .ok kept := rfl
          rw [map_mapM_cons resolved, ← longer, ← List.append_cons]
          rfl
      | branch opcode label =>
          rw [Line.fixupsFrom, List.foldlM_cons]
          cases bound : assembly.position? label with
          | none =>
              have unresolved : assembly.resolve (.branch opcode label) = .error label :=
                resolve_branch_eq_error.mpr ⟨bound, rfl⟩
              rw [List.mapM_cons, unresolved, patch_of_none bound]
              rfl
          | some target =>
              have resolved : assembly.resolve (.branch opcode label) = _ :=
                resolve_branch_eq_ok.mpr ⟨target, bound, rfl⟩
              rw [map_mapM_cons resolved, ← longer, ← List.append_cons]
              exact congrArg (· >>= _) (patch_of_some bound finished _)

private theorem finish_draft (assembly : Assembly) : assembly.draft.finish = assembly.finish :=
  (assembly.foldlM_patch [] assembly.lines).trans (id_map _)

end Assembly

namespace Draft

variable (operations : List Assembly.Operation)

/-- For the same operations, patching in place and resolving lines give the same code or fail with the
same label. -/
theorem finish_performAll :
    (performAll operations).finish = (Assembly.performAll operations).finish := by
  rw [← Assembly.draft_performAll, Assembly.finish_draft]

/-- Every noted index is that of an instruction with an open target, and none is noted twice. -/
theorem fixups_performAll :
    (∀ fixup ∈ (performAll operations).fixups,
      ∃ opcode, (performAll operations).instructions[fixup.1]? = some ⟨opcode, openTarget⟩) ∧
    (performAll operations).fixups.Pairwise fun first second => first.1 < second.1 := by
  rw [← Assembly.draft_performAll]
  refine ⟨?_, Line.pairwise_fixupsFrom 0 _⟩
  rintro ⟨index, label⟩ noted
  obtain ⟨offset, opcode, same, found⟩ := Line.exists_of_mem_fixupsFrom noted
  rw [Nat.zero_add] at same
  subst same
  refine ⟨opcode, ?_⟩
  change ((Assembly.performAll operations).lines.map Line.unresolved)[index]? = _
  rw [List.getElem?_map, found]
  rfl

end Draft

end PropertyWeaver
