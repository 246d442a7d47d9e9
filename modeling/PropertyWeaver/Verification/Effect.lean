import PropertyWeaver.Code.Body
import PropertyWeaver.Module.Basic

/-!
# What an instruction needs

The slots that an instruction names, the values it takes from the stack and leaves on it, and where
control goes next.
-/

set_option autoImplicit false

namespace PropertyWeaver

/-- What a body's code depends on besides the body: the number of arguments, the receiver included,
and whether the method returns a value. -/
structure BodyShape where
  argumentCount : Nat
  returnsValue : Bool
  deriving DecidableEq, Repr

def MethodDef.shape (method : MethodDef) : BodyShape :=
  ⟨method.argumentCount, method.returnsValue⟩

structure StackEffect where
  pops : Nat
  pushes : Nat
  deriving DecidableEq, Repr

namespace Instruction

def slot? (instruction : Instruction) : Option Nat :=
  match instruction.operand with
  | .slot index => some index.toNat
  | _ => none

def argument? (instruction : Instruction) : Option Nat :=
  match instruction.opcode with
  | .ldarg0 => some 0
  | .ldarg1 => some 1
  | .ldarg2 => some 2
  | .ldarg3 => some 3
  | .ldargS => instruction.slot?
  | _ => none

def local? (instruction : Instruction) : Option Nat :=
  match instruction.opcode with
  | .ldloc0 | .stloc0 => some 0
  | .ldloc1 | .stloc1 => some 1
  | .ldloc2 | .stloc2 => some 2
  | .ldloc3 | .stloc3 => some 3
  | .ldlocS | .stlocS => instruction.slot?
  | _ => none

/-- The stack effect. A call depends on its method operand, a return on the shape of the body. -/
def effect (shape : BodyShape) (instruction : Instruction) : StackEffect :=
  match instruction.opcode with
  | .nop | .br => ⟨0, 0⟩
  | .ldarg0 | .ldarg1 | .ldarg2 | .ldarg3 | .ldargS => ⟨0, 1⟩
  | .ldloc0 | .ldloc1 | .ldloc2 | .ldloc3 | .ldlocS => ⟨0, 1⟩
  | .stloc0 | .stloc1 | .stloc2 | .stloc3 | .stlocS => ⟨1, 0⟩
  | .ldnull | .ldcI4_0 | .ldcI4_1 | .ldcI4_2 | .ldcI4_3 | .ldcI4_4 | .ldcI4_5 | .ldcI4_6
  | .ldcI4_7 | .ldcI4_8 | .ldcI4S | .ldcI4 | .ldcI8 | .ldcR4 | .ldcR8 | .ldstr => ⟨0, 1⟩
  | .dup => ⟨1, 2⟩
  | .pop => ⟨1, 0⟩
  | .ceq => ⟨2, 1⟩
  | .convI8 | .convU8 | .box => ⟨1, 1⟩
  | .brtrue | .brfalse => ⟨1, 0⟩
  | .ret => ⟨shape.returnsValue.toNat, 0⟩
  | .call | .callvirt =>
      match instruction.method? with
      | some method => ⟨method.popCount, method.returnsValue.toNat⟩
      | none => ⟨0, 0⟩
  | .newobj =>
      match instruction.method? with
      | some method => ⟨method.parameters.length, 1⟩
      | none => ⟨0, 1⟩
  | .ldfld => ⟨1, 1⟩
  | .stfld => ⟨2, 0⟩
  | .ldsfld => ⟨0, 1⟩
  | .stsfld => ⟨1, 0⟩
  | .newarr => ⟨1, 1⟩
  | .ldelemRef => ⟨2, 1⟩
  | .stelemRef => ⟨3, 0⟩

def fallsThrough (instruction : Instruction) : Bool :=
  !instruction.opcode.isTerminator

end Instruction

end PropertyWeaver
