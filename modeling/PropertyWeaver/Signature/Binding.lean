import PropertyWeaver.Signature.Basic

/-!
# Generic bindings

A `Binding` pairs generic parameter names with arguments by position. Substitution replaces the
parameters that have an argument and keeps the others.
-/

set_option autoImplicit false

namespace PropertyWeaver

/-- Generic parameters in declaration order and their arguments. Either list may be the longer one.
-/
structure Binding where
  parameters : List String
  arguments : List TypeSig
  deriving DecidableEq, Repr, Inhabited

def Binding.empty : Binding := ⟨[], []⟩

def Binding.find? (binding : Binding) (name : String) : Option TypeSig :=
  (binding.parameters.findIdx? (· = name)).bind fun position => binding.arguments[position]?

namespace TypeSig

mutual

/-- Replaces the bound parameters of the enclosing type and of the enclosing method. Arguments are
put in as they are and not substituted again. -/
def substitute (types methods : Binding) : TypeSig → TypeSig
  | .builtin type => .builtin type
  | .classType type => .classType type
  | .valueType type => .valueType type
  | .instantiated definition isValue arguments =>
      .instantiated definition isValue (substituteAll types methods arguments)
  | .typeParameter name => (types.find? name).getD (.typeParameter name)
  | .methodParameter name => (methods.find? name).getD (.methodParameter name)
  | .array element => .array (element.substitute types methods)

def substituteAll (types methods : Binding) : List TypeSig → List TypeSig
  | [] => []
  | sig :: rest => sig.substitute types methods :: substituteAll types methods rest

end

@[simp]
theorem substituteAll_eq_map (types methods : Binding) (sigs : List TypeSig) :
    substituteAll types methods sigs = sigs.map (substitute types methods) := by
  induction sigs with
  | nil => rfl
  | cons sig rest ih => simp [substituteAll, ih]

end TypeSig

end PropertyWeaver
