import PropertyWeaver.Code.Instruction

/-!
# Assembling code with labels

Code is assembled line by line. A branch may name a label before the label is marked; when the code
is finished every branch receives the position of its label. Lines that bring a branch operand of
their own keep it.
-/

set_option autoImplicit false

namespace PropertyWeaver

/-- Labels are numbered from zero in the order in which they are defined. -/
abbrev Label := Nat

inductive Line where
  | instruction (instruction : Instruction)
  | branch (opcode : Opcode) (label : Label)
  deriving DecidableEq, Inhabited

/-- Unfinished code: the lines so far, and for every defined label the position at which it was
marked last. -/
structure Assembly where
  lines : List Line
  marks : List (Option Nat)
  deriving DecidableEq, Inhabited

namespace Assembly

def empty : Assembly := ⟨[], []⟩

def size (assembly : Assembly) : Nat :=
  assembly.lines.length

def append (assembly : Assembly) (code : List Instruction) : Assembly :=
  { assembly with lines := assembly.lines ++ code.map Line.instruction }

def push (assembly : Assembly) (instruction : Instruction) : Assembly :=
  assembly.append [instruction]

def defineLabel (assembly : Assembly) : Label × Assembly :=
  (assembly.marks.length, { assembly with marks := assembly.marks ++ [none] })

/-- Binds a label to the position of the next line. A later mark of the same label replaces it. -/
def mark (assembly : Assembly) (label : Label) : Assembly :=
  { assembly with marks := assembly.marks.set label (some assembly.size) }

def branch (assembly : Assembly) (opcode : Opcode) (label : Label) : Assembly :=
  { assembly with lines := assembly.lines ++ [.branch opcode label] }

def position? (assembly : Assembly) (label : Label) : Option Nat :=
  (assembly.marks[label]?).join

/-- The instruction that a line stands for; fails with the label of a branch that goes nowhere. -/
def resolve (assembly : Assembly) : Line → Except Label Instruction
  | .instruction instruction => .ok instruction
  | .branch opcode label =>
      match assembly.position? label with
      | some target => .ok ⟨opcode, .branch (.ofNat target)⟩
      | none => .error label

/-- The finished code. It fails with the first label, in the order of the lines, that a branch uses
and nothing marks. -/
def finish (assembly : Assembly) : Except Label (List Instruction) :=
  assembly.lines.mapM assembly.resolve

end Assembly

end PropertyWeaver
