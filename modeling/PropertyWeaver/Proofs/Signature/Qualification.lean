import Mathlib.Data.List.Basic
import PropertyWeaver.Metadata.Basic
import PropertyWeaver.Signature.Binding

/-!
# Qualified signatures

A signature that is qualified means what it has meant in the module that it comes from. Which references
a signature mentions is said apart from the functions on signatures: a reference stands behind the
signature itself, behind an argument or behind an element. Qualifying, substituting, collecting scopes
and resolving all agree on these places.
-/

set_option autoImplicit false

namespace PropertyWeaver

/-! ## References -/

namespace TypeRef

@[simp] theorem qualify_qualify (origin : Option String) (type : TypeRef) :
    (type.qualify origin).qualify origin = type.qualify origin := by
  obtain ⟨scope, qualifier, name⟩ := type
  cases scope <;> cases origin <;> rfl

@[simp] theorem qualify_none (type : TypeRef) : type.qualify none = type := by
  obtain ⟨scope, qualifier, name⟩ := type
  cases scope <;> rfl

@[simp] theorem fullName_qualify (origin : Option String) (type : TypeRef) :
    (type.qualify origin).fullName = type.fullName := rfl

private theorem scope_qualify_some (module : String) (type : TypeRef) :
    (type.qualify (some module)).scope = some (type.scope.getD module) := by
  obtain ⟨scope, qualifier, name⟩ := type
  cases scope <;> rfl

end TypeRef

/-! ## Signatures and what occurs in them -/

namespace TypeSig

/-- Induction over a signature, whose arguments and element are smaller. -/
theorem nested_induction {holds : TypeSig → Prop} (builtin : ∀ type, holds (.builtin type))
    (classType : ∀ type, holds (.classType type)) (valueType : ∀ type, holds (.valueType type))
    (instantiated : ∀ definition isValue arguments, (∀ argument ∈ arguments, holds argument) →
      holds (.instantiated definition isValue arguments))
    (typeParameter : ∀ name, holds (.typeParameter name))
    (methodParameter : ∀ name, holds (.methodParameter name))
    (array : ∀ element, holds element → holds (.array element)) : (sig : TypeSig) → holds sig
  | .builtin type => builtin type
  | .classType type => classType type
  | .valueType type => valueType type
  | .instantiated definition isValue arguments =>
      instantiated definition isValue arguments fun argument _ =>
        nested_induction builtin classType valueType instantiated typeParameter methodParameter array
          argument
  | .typeParameter name => typeParameter name
  | .methodParameter name => methodParameter name
  | .array element =>
      array element (nested_induction builtin classType valueType instantiated typeParameter
        methodParameter array element)

/-- A signature occurs in itself, and in whatever it is an argument or an element of, at any depth. -/
inductive OccursIn (inner : TypeSig) : TypeSig → Prop where
  | self : OccursIn inner inner
  | argument {definition : TypeRef} {isValue : Bool} {arguments : List TypeSig} {argument : TypeSig} :
      argument ∈ arguments → OccursIn inner argument →
      OccursIn inner (.instantiated definition isValue arguments)
  | element {element : TypeSig} : OccursIn inner element → OccursIn inner (.array element)

/-- A reference is mentioned if a signature that occurs stands for the type that it names. -/
def Mentions (sig : TypeSig) (type : TypeRef) : Prop :=
  ∃ inner : TypeSig, inner.OccursIn sig ∧ inner.typeRef? = some type

variable {type definition : TypeRef} {isValue : Bool} {arguments : List TypeSig} {element sig : TypeSig}

/-- A signature in which nothing else occurs mentions what it stands for itself. -/
theorem mentions_of_atomic (atomic : ∀ inner : TypeSig, inner.OccursIn sig → inner = sig) :
    sig.Mentions type ↔ sig.typeRef? = some type := by
  constructor
  · intro mentions
    obtain ⟨inner, occurs, named⟩ := mentions
    exact atomic inner occurs ▸ named
  · intro named
    exact ⟨sig, .self, named⟩

@[simp] theorem not_mentions_builtin {builtin : Builtin} :
    ¬ (TypeSig.builtin builtin).Mentions type := by
  rw [mentions_of_atomic (by intro _ occurs; cases occurs; rfl)]
  exact (Option.some_ne_none type).symm

@[simp] theorem not_mentions_typeParameter {name : String} :
    ¬ (TypeSig.typeParameter name).Mentions type := by
  rw [mentions_of_atomic (by intro _ occurs; cases occurs; rfl)]
  exact (Option.some_ne_none type).symm

@[simp] theorem not_mentions_methodParameter {name : String} :
    ¬ (TypeSig.methodParameter name).Mentions type := by
  rw [mentions_of_atomic (by intro _ occurs; cases occurs; rfl)]
  exact (Option.some_ne_none type).symm

@[simp] theorem mentions_classType :
    (TypeSig.classType definition).Mentions type ↔ definition = type := by
  rw [mentions_of_atomic (by intro _ occurs; cases occurs; rfl)]
  exact Option.some_inj

@[simp] theorem mentions_valueType :
    (TypeSig.valueType definition).Mentions type ↔ definition = type := by
  rw [mentions_of_atomic (by intro _ occurs; cases occurs; rfl)]
  exact Option.some_inj

@[simp] theorem mentions_instantiated :
    (TypeSig.instantiated definition isValue arguments).Mentions type ↔
      definition = type ∨ ∃ argument ∈ arguments, argument.Mentions type := by
  constructor
  · intro mentions
    obtain ⟨inner, occurs, named⟩ := mentions
    cases occurs with
    | self => exact .inl (Option.some.inj named)
    | argument member occurs => exact .inr ⟨_, member, inner, occurs, named⟩
  · intro mentions
    cases mentions with
    | inl same => exact ⟨_, .self, congrArg some same⟩
    | inr inside =>
        obtain ⟨argument, member, inner, occurs, named⟩ := inside
        exact ⟨inner, .argument member occurs, named⟩

@[simp] theorem mentions_array : (TypeSig.array element).Mentions type ↔ element.Mentions type := by
  constructor
  · intro mentions
    obtain ⟨inner, occurs, named⟩ := mentions
    cases occurs with
    | self => cases named
    | element occurs => exact ⟨inner, occurs, named⟩
  · intro mentions
    obtain ⟨inner, occurs, named⟩ := mentions
    exact ⟨inner, .element occurs, named⟩

/-! ## Qualifying -/

variable {origin : Option String} {module scope : String}

private theorem qualify_qualify (origin : Option String) (sig : TypeSig) :
    (sig.qualify origin).qualify origin = sig.qualify origin := by
  induction sig using nested_induction with
  | instantiated definition isValue arguments hypothesis =>
      simpa [qualify] using hypothesis
  | array element hypothesis => rw [qualify, qualify, hypothesis]
  | _ => simp [qualify]

theorem qualify_none (sig : TypeSig) : sig.qualify none = sig := by
  induction sig using nested_induction with
  | instantiated definition isValue arguments hypothesis =>
      simpa [qualify] using List.map_congr_left hypothesis
  | array element hypothesis => rw [qualify, hypothesis]
  | _ => simp [qualify]

theorem fullName_qualify (origin : Option String) (sig : TypeSig) :
    (sig.qualify origin).fullName = sig.fullName := by
  induction sig using nested_induction with
  | instantiated definition isValue arguments hypothesis =>
      have names : arguments.map (fullName ∘ qualify origin) = arguments.map fullName :=
        List.map_congr_left hypothesis
      simp [qualify, fullName, names]
  | array element hypothesis => rw [qualify, fullName, fullName, hypothesis]
  | _ => rfl

private theorem typeRef?_qualify (origin : Option String) (sig : TypeSig) :
    (sig.qualify origin).typeRef? = sig.typeRef?.map (TypeRef.qualify origin) := by
  cases sig <;> rfl

@[simp] theorem isVoid_qualify (origin : Option String) (sig : TypeSig) :
    (sig.qualify origin).isVoid = sig.isVoid := by
  cases sig <;> rfl

@[simp] theorem isGenericParameter_qualify (origin : Option String) (sig : TypeSig) :
    (sig.qualify origin).isGenericParameter = sig.isGenericParameter := by
  cases sig <;> rfl

private theorem OccursIn.qualify {inner : TypeSig} (occurs : inner.OccursIn sig)
    (origin : Option String) :
    (inner.qualify origin).OccursIn (sig.qualify origin) := by
  induction occurs with
  | self => exact .self
  | argument member _ hypothesis =>
      rw [TypeSig.qualify, qualifyAll_eq_map]
      exact .argument (List.mem_map_of_mem member) hypothesis
  | element _ hypothesis => exact .element hypothesis

/-- A qualified signature mentions the same references, each of them qualified. -/
theorem mentions_qualify :
    (sig.qualify origin).Mentions type ↔
      ∃ before, sig.Mentions before ∧ before.qualify origin = type := by
  induction sig using nested_induction with
  | instantiated definition isValue arguments hypothesis =>
      simp only [qualify, qualifyAll_eq_map, mentions_instantiated, List.mem_map,
        exists_exists_and_eq_and]
      constructor
      · intro mentions
        cases mentions with
        | inl same => exact ⟨definition, .inl rfl, same⟩
        | inr inside =>
            obtain ⟨argument, member, mentions⟩ := inside
            obtain ⟨before, mentions, same⟩ := (hypothesis argument member).mp mentions
            exact ⟨before, .inr ⟨argument, member, mentions⟩, same⟩
      · intro mentions
        obtain ⟨before, here | ⟨argument, member, mentions⟩, same⟩ := mentions
        · exact .inl (here ▸ same)
        · exact .inr ⟨argument, member, (hypothesis argument member).mpr ⟨before, mentions, same⟩⟩
  | array element hypothesis => simpa only [qualify, mentions_array] using hypothesis
  | _ => simp [qualify]

private theorem isSome_scope_of_mentions_qualify
    (mentions : (sig.qualify (some module)).Mentions type) :
    type.scope.isSome = true := by
  obtain ⟨before, -, rfl⟩ := mentions_qualify.mp mentions
  rw [TypeRef.scope_qualify_some, Option.isSome_some]

/-! ## Scopes -/

private theorem mem_scopes :
    scope ∈ sig.scopes ↔ ∃ type, sig.Mentions type ∧ type.scope = some scope := by
  induction sig using nested_induction with
  | instantiated definition isValue arguments hypothesis =>
      simp only [scopes, scopesOfAll_eq_flatMap, List.mem_append, List.mem_flatMap, TypeRef.scopes,
        Option.mem_toList, mentions_instantiated]
      constructor
      · intro named
        cases named with
        | inl here => exact ⟨definition, .inl rfl, here⟩
        | inr inside =>
            obtain ⟨argument, member, named⟩ := inside
            obtain ⟨type, mentions, here⟩ := (hypothesis argument member).mp named
            exact ⟨type, .inr ⟨argument, member, mentions⟩, here⟩
      · intro named
        obtain ⟨type, rfl | ⟨argument, member, mentions⟩, here⟩ := named
        · exact .inl here
        · exact .inr ⟨argument, member, (hypothesis argument member).mpr ⟨type, mentions, here⟩⟩
  | array element hypothesis => simpa only [scopes, mentions_array] using hypothesis
  | _ => simp [scopes, TypeRef.scopes]

/-- Qualifying adds the origin, and that only if a reference lacks its scope. -/
theorem mem_scopes_qualify : scope ∈ (sig.qualify (some module)).scopes ↔
    scope ∈ sig.scopes ∨ scope = module ∧ ∃ type, sig.Mentions type ∧ type.scope = none := by
  simp only [mem_scopes, mentions_qualify]
  constructor
  · intro named
    obtain ⟨_, ⟨before, mentions, rfl⟩, here⟩ := named
    rw [TypeRef.scope_qualify_some, Option.some.injEq] at here
    cases own : before.scope with
    | some other =>
        rw [own, Option.getD_some] at here
        exact .inl ⟨before, mentions, here ▸ own⟩
    | none =>
        rw [own, Option.getD_none] at here
        exact .inr ⟨here.symm, before, mentions, own⟩
  · intro named
    obtain ⟨before, mentions, own⟩ | ⟨rfl, before, mentions, own⟩ := named
    · exact ⟨_, ⟨before, mentions, rfl⟩, by rw [TypeRef.scope_qualify_some, own, Option.getD_some]⟩
    · exact ⟨_, ⟨before, mentions, rfl⟩, by rw [TypeRef.scope_qualify_some, own, Option.getD_none]⟩

private theorem filter_scopes_qualify (module : String) (sig : TypeSig) :
    (sig.qualify (some module)).scopes.filter (· ≠ module) = sig.scopes.filter (· ≠ module) := by
  have reference (type : TypeRef) :
      (type.qualify (some module)).scopes.filter (· ≠ module) = type.scopes.filter (· ≠ module) := by
    rw [TypeRef.scopes, TypeRef.scope_qualify_some, TypeRef.scopes]
    cases type.scope <;> simp
  induction sig using nested_induction with
  | instantiated definition isValue arguments hypothesis =>
      simp only [qualify, scopes, qualifyAll_eq_map, scopesOfAll_eq_flatMap, List.filter_append,
        reference, List.flatMap_map, List.filter_flatMap]
      rw [List.flatMap_congr hypothesis]
  | array element hypothesis => exact hypothesis
  | classType type => exact reference type
  | valueType type => exact reference type
  | _ => rfl

end TypeSig

/-! ## Collecting scopes -/

private theorem mem_extendScopes {known more : List String} {scope : String} :
    scope ∈ extendScopes known more ↔ scope ∈ known ∨ scope ∈ more := by
  induction more generalizing known with
  | nil => simp [extendScopes]
  | cons first more hypothesis =>
      rw [extendScopes, List.foldl_cons, ← extendScopes, hypothesis]
      split <;> grind

private theorem filter_extendScopes (keep : String → Bool) (known more : List String) :
    (extendScopes known more).filter keep = extendScopes (known.filter keep) (more.filter keep) := by
  induction more generalizing known with
  | nil => rfl
  | cons first more hypothesis =>
      rw [extendScopes, List.foldl_cons, ← extendScopes, hypothesis]
      cases kept : keep first with
      | false =>
          rw [List.filter_cons_of_neg (by simp [kept])]
          split
          · rfl
          · rw [List.filter_append, List.filter_cons_of_neg (by simp [kept]), List.filter_nil,
              List.append_nil]
      | true =>
          rw [List.filter_cons_of_pos kept, extendScopes.eq_def _ (first :: _), List.foldl_cons,
            ← extendScopes]
          congr 1
          split
          · next listed => rw [if_pos (List.mem_filter.mpr ⟨listed, kept⟩)]
          · next fresh =>
            rw [if_neg fun listed => fresh ((List.mem_filter.mp listed).1), List.filter_append,
              List.filter_cons_of_pos kept, List.filter_nil]

/-! ## Substituting -/

/-- The same parameters with qualified arguments. -/
def Binding.qualify (origin : Option String) (binding : Binding) : Binding :=
  { binding with arguments := binding.arguments.map (TypeSig.qualify origin) }

private theorem Binding.find?_qualify (origin : Option String) (binding : Binding) (name : String) :
    (binding.qualify origin).find? name = (binding.find? name).map (TypeSig.qualify origin) := by
  simp only [find?, qualify, List.getElem?_map]
  cases binding.parameters.findIdx? (· = name) <;> rfl

namespace TypeSig

/-- Arguments may be qualified before or after they are put in. -/
theorem qualify_substitute (origin : Option String) (types methods : Binding) (sig : TypeSig) :
    (sig.substitute types methods).qualify origin =
      (sig.qualify origin).substitute (types.qualify origin) (methods.qualify origin) := by
  induction sig using nested_induction with
  | instantiated definition isValue arguments hypothesis => simpa [qualify, substitute] using hypothesis
  | array element hypothesis => rw [substitute, qualify, qualify, substitute, hypothesis]
  | typeParameter name =>
      rw [substitute, qualify, substitute, Binding.find?_qualify]
      cases types.find? name <;> rfl
  | methodParameter name =>
      rw [substitute, qualify, substitute, Binding.find?_qualify]
      cases methods.find? name <;> rfl
  | _ => rfl

end TypeSig

/-! ## Resolving -/

/-- A signature that is stored in one module names the type that its qualified form names anywhere. -/
theorem Metadata.resolveSig?_qualify (metadata : Metadata) (origin : Option String) (sig : TypeSig) :
    metadata.resolveSig? none (sig.qualify origin) = metadata.resolveSig? origin sig := by
  rw [resolveSig?, resolveSig?, TypeSig.typeRef?_qualify, TypeSig.isGenericParameter_qualify,
    TypeSig.fullName_qualify]
  cases sig.typeRef? with
  | none => rfl
  | some type =>
      obtain ⟨scope, qualifier, name⟩ := type
      cases scope <;> cases origin <;> rfl

/-- Qualifying twice does no more than qualifying once, full names are kept, and without an origin
nothing changes. Substitution may come before or after. What occurs in a signature occurs qualified in
the qualified one, and stands for the same type there without the origin. A given origin leaves no
reference without a scope; of the scopes that are collected it is the only one that may be new, and it is
new only if a reference has lacked its scope. -/
theorem TypeSig.qualify_laws (metadata : Metadata) (sig : TypeSig) (origin : Option String) :
    (sig.qualify origin).qualify origin = sig.qualify origin ∧
    (sig.qualify origin).fullName = sig.fullName ∧
    sig.qualify none = sig ∧
    (∀ types methods : Binding, (sig.substitute types methods).qualify origin =
      (sig.qualify origin).substitute (types.qualify origin) (methods.qualify origin)) ∧
    (∀ inner : TypeSig, inner.OccursIn sig →
      (inner.qualify origin).OccursIn (sig.qualify origin) ∧
      metadata.resolveSig? origin inner = metadata.resolveSig? none (inner.qualify origin)) ∧
    (∀ module type, (sig.qualify (some module)).Mentions type → type.scope.isSome = true) ∧
    ∀ module known,
      (∀ scope, scope ∈ extendScopes known (sig.qualify (some module)).scopes ↔
        scope ∈ extendScopes known sig.scopes ∨
          scope = module ∧ ∃ type, sig.Mentions type ∧ type.scope = none) ∧
      (extendScopes known (sig.qualify (some module)).scopes).filter (· ≠ module) =
        (extendScopes known sig.scopes).filter (· ≠ module) := by
  refine ⟨qualify_qualify origin sig, fullName_qualify origin sig, qualify_none sig,
    fun types methods => qualify_substitute origin types methods sig, ?_, ?_, ?_⟩
  · intro inner occurs
    exact ⟨occurs.qualify origin, (metadata.resolveSig?_qualify origin inner).symm⟩
  · intro module type mentions
    exact isSome_scope_of_mentions_qualify mentions
  · intro module known
    constructor
    · intro scope
      rw [mem_extendScopes, mem_extendScopes, mem_scopes_qualify, or_assoc]
    · rw [filter_extendScopes, filter_extendScopes, filter_scopes_qualify]

def homonyms : Metadata where
  target := ⟨Module.expectedMagic, Module.expectedVersion, 0, "App", ["Lib"],
    [⟨"Demo", "Item", 0, none, [], [], [], [], []⟩], []⟩
  resolver := Resolver.empty.register ⟨Module.expectedMagic, Module.expectedVersion, 0, "Lib", [],
    [⟨"Demo", "Item", 0, some (.builtin .object), [], [], [], [], []⟩], []⟩
  coreModule := "System.Runtime"

def itemLists : TypeSig :=
  .instantiated ⟨some "System.Runtime", "System", "List"⟩ false
    [.array (.valueType ⟨none, "Demo", "Item"⟩)]

theorem TypeSig.qualify_laws_itemLists :
    (TypeSig.valueType ⟨none, "Demo", "Item"⟩).OccursIn itemLists ∧
    homonyms.resolveSig? none (.valueType ⟨none, "Demo", "Item"⟩) ≠
      homonyms.resolveSig? (some "Lib") (.valueType ⟨none, "Demo", "Item"⟩) ∧
    homonyms.resolveSig? (some "Lib") (.valueType ⟨none, "Demo", "Item"⟩) =
      homonyms.resolveSig? none (.valueType ⟨some "Lib", "Demo", "Item"⟩) ∧
    "Lib" ∉ extendScopes [] itemLists.scopes ∧
    "Lib" ∈ extendScopes [] (itemLists.qualify (some "Lib")).scopes := by
  have occurs : (TypeSig.valueType ⟨none, "Demo", "Item"⟩).OccursIn itemLists :=
    .argument List.mem_cons_self (.element .self)
  obtain ⟨_, _, _, _, places, _, collected⟩ := qualify_laws homonyms itemLists (some "Lib")
  obtain ⟨scopes, _⟩ := collected "Lib" []
  exact ⟨occurs, by decide, (places _ occurs).2, by decide,
    (scopes "Lib").mpr (.inr ⟨rfl, ⟨none, "Demo", "Item"⟩, ⟨_, occurs, rfl⟩, rfl⟩)⟩

end PropertyWeaver
