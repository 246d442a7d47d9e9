import PropertyWeaver.Signature.Basic

/-!
# Scopes of signatures

A reference without a scope depends on the module that stores it. `qualify` fills the missing scopes
in, so that a signature keeps its meaning when it moves to another module, and `scopes` lists the
modules that a signature needs.
-/

set_option autoImplicit false

namespace PropertyWeaver

/-- Adds the names that are not yet listed, in order. Names already listed keep their place. -/
def extendScopes (known more : List String) : List String :=
  more.foldl (fun known scope => if scope ∈ known then known else known ++ [scope]) known

/-- The reference with a missing scope filled in. No origin leaves it as it is. -/
def TypeRef.qualify (origin : Option String) (type : TypeRef) : TypeRef :=
  { type with scope := type.scope <|> origin }

def TypeRef.scopes (type : TypeRef) : List String :=
  type.scope.toList

namespace TypeSig

mutual

def qualify (origin : Option String) : TypeSig → TypeSig
  | .builtin type => .builtin type
  | .classType type => .classType (type.qualify origin)
  | .valueType type => .valueType (type.qualify origin)
  | .instantiated definition isValue arguments =>
      .instantiated (definition.qualify origin) isValue (qualifyAll origin arguments)
  | .typeParameter name => .typeParameter name
  | .methodParameter name => .methodParameter name
  | .array element => .array (element.qualify origin)

def qualifyAll (origin : Option String) : List TypeSig → List TypeSig
  | [] => []
  | sig :: rest => sig.qualify origin :: qualifyAll origin rest

end

@[simp]
theorem qualifyAll_eq_map (origin : Option String) (sigs : List TypeSig) :
    qualifyAll origin sigs = sigs.map (qualify origin) := by
  induction sigs with
  | nil => rfl
  | cons sig rest ih => simp [qualifyAll, ih]

mutual

/-- Every scope named in the signature, in reading order. A scope named twice is listed twice. -/
def scopes : TypeSig → List String
  | .builtin _ | .typeParameter _ | .methodParameter _ => []
  | .classType type | .valueType type => type.scopes
  | .instantiated definition _ arguments => definition.scopes ++ scopesOfAll arguments
  | .array element => element.scopes

def scopesOfAll : List TypeSig → List String
  | [] => []
  | sig :: rest => sig.scopes ++ scopesOfAll rest

end

@[simp]
theorem scopesOfAll_eq_flatMap (sigs : List TypeSig) : scopesOfAll sigs = sigs.flatMap scopes := by
  induction sigs with
  | nil => rfl
  | cons sig rest ih => simp [scopesOfAll, ih]

end TypeSig

end PropertyWeaver
