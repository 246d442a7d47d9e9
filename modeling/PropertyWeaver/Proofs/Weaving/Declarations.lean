import PropertyWeaver.Proofs.Metadata.Related
import PropertyWeaver.Proofs.Weaving.Reach

/-!
# What a query overrides

The declaration that a query overrides may itself have been added to a base by the same pass. It
returns what the declaration above it returns, and it has a receiver if that one has. So it does not
matter how much of the pass has been done: what a type inherits is what it inherits in the original
module.
-/

set_option autoImplicit false

namespace PropertyWeaver

/-- What an override takes over: the return type as the target writes it, and whether there is no
receiver. -/
def LocatedMethod.overridden (method : LocatedMethod) : TypeSig × Bool :=
  (method.definition.returnType.qualify method.owner.scope, method.definition.isStatic)

namespace Metadata

variable {metadata : Metadata}

private theorem chainUpTo_succ (limit : Nat) (type : LocatedType) :
    metadata.chainUpTo (limit + 1) type =
      type :: ((metadata.base? type).map (metadata.chainUpTo limit)).getD [] := by
  rw [chainUpTo]
  cases metadata.base? type <;> rfl

private theorem chainUpTo_prefix {limit longer : Nat} (le : limit ≤ longer) (type : LocatedType) :
    metadata.chainUpTo limit type <+: metadata.chainUpTo longer type := by
  induction limit generalizing longer type with
  | zero =>
      cases longer with
      | zero => exact List.prefix_refl _
      | succ longer => exact chainUpTo_succ longer type ▸ ⟨_, rfl⟩
  | succ limit hypothesis =>
      obtain ⟨longer, rfl⟩ : ∃ rest, longer = rest + 1 := ⟨longer - 1, by omega⟩
      rw [chainUpTo_succ, chainUpTo_succ]
      refine List.cons_prefix_cons.mpr ⟨rfl, ?_⟩
      cases metadata.base? type with
      | none => exact List.prefix_refl _
      | some base => exact hypothesis (Nat.le_of_succ_le_succ le) base

end Metadata

namespace WeavingContext

/-- What an override takes over from a type, if the type declares the query. -/
def overridden? (query : String) (type : LocatedType) : Option (TypeSig × Bool) :=
  (queryDeclaration? query type).map LocatedMethod.overridden

/-- What a query of the type takes over from the nearest base that declares it. -/
def inherited? (context : WeavingContext) (type : LocatedType) : Option (TypeSig × Bool) :=
  (context.metadata.chain type).tail.findSome? (overridden? context.configuration.runtime.typeQuery)

theorem inherited?_eq (context : WeavingContext) (type : LocatedType) :
    context.inherited? type = ((context.metadata.chain type).tail.findSome?
      (queryDeclaration? context.configuration.runtime.typeQuery)).map LocatedMethod.overridden := by
  rw [List.map_findSome?]
  rfl

/-- What a type declares is a matter of the headers of its methods. -/
theorem overridden?_eq (query : String) (type : LocatedType) :
    overridden? query type =
      ((type.definition.methods.map MethodDef.header).find? fun method =>
        method.name = query && method.parameters.isEmpty && method.isVirtual).map fun method =>
          (method.returnType.qualify type.scope, method.isStatic) := by
  have owned : ∀ declaration ∈ queryDeclaration? query type,
      declaration.overridden = (declaration.definition.header.returnType.qualify type.scope,
        declaration.definition.header.isStatic) := by
    intro declaration declares
    obtain ⟨rfl, -⟩ := LocatedType.mem_methods.mp (List.mem_of_find?_eq_some declares)
    rfl
  have headers : type.definition.methods.map MethodDef.header =
      type.methods.map fun method => method.definition.header := by
    apply List.ext_getElem?
    intro index
    simp only [LocatedType.methods, List.getElem?_map, List.getElem?_mapIdx, Option.map_map]
    rfl
  rw [headers, List.find?_map, Option.map_map, overridden?, Option.map_congr owned]
  rfl

end WeavingContext

/-! ## Types with further queries -/

/-- A type with the header of the first one and its methods, up to their code. Methods behind those
take over what the first type inherits, if it inherits anything. -/
structure TypeDef.Overrides (inherited : Option (TypeSig × Bool)) (before after : TypeDef) : Prop where
  header : after.header = before.header
  methods : ∃ added : List MethodDef,
    (∀ method ∈ added, ∀ overridden ∈ inherited, (method.returnType, method.isStatic) = overridden) ∧
      after.methods.map MethodDef.header = (before.methods ++ added).map MethodDef.header

namespace WeavingContext

/-- The same type, or one of the target after some queries have been added. -/
def Agrees (context : WeavingContext) (type type' : LocatedType) : Prop :=
  type' = type ∨ type.scope = none ∧ type'.scope = none ∧
    type.definition.Overrides (context.inherited? type) type'.definition

variable {context after : WeavingContext} {type type' : LocatedType} {query : String}

private theorem Agrees.header
    (agrees : context.Agrees type type') : type'.header = type.header := by
  rcases agrees with rfl | ⟨own, own', overrides⟩
  · rfl
  · rw [LocatedType.header, LocatedType.header, overrides.header, own, own']

private theorem inseparable_agrees
    (context : WeavingContext) : LocatedType.Inseparable context.Agrees where
  refl := fun _ => .inl rfl
  scope := fun {type type'} agrees => by
    have same : type'.header.scope = type.header.scope := congrArg LocatedType.scope agrees.header
    exact same
  fullName := fun agrees => LocatedType.eq_of_header agrees.header LocatedType.fullName fun _ => rfl
  base := fun agrees => LocatedType.eq_of_header agrees.header (·.definition.base) fun _ => rfl

/-- A type declares what it has declared before, or it declares the query now and takes over what it
inherits. -/
theorem Agrees.overridden? (agrees : context.Agrees type type') :
    overridden? query type' = overridden? query type ∨
      WeavingContext.overridden? query type = none ∧
        ∀ overridden ∈ context.inherited? type,
          WeavingContext.overridden? query type' = some overridden := by
  rcases agrees with rfl | ⟨own, own', -, added, takes, headers⟩
  · exact .inl rfl
  rw [overridden?_eq, overridden?_eq, headers, List.map_append, List.find?_append, own, own']
  cases first : (type.definition.methods.map MethodDef.header).find? fun method =>
      method.name = query && method.parameters.isEmpty && method.isVirtual with
  | some declaration => exact .inl rfl
  | none =>
      rw [Option.none_or]
      cases second : (added.map MethodDef.header).find? fun method =>
          method.name = query && method.parameters.isEmpty && method.isVirtual with
      | none => exact .inl rfl
      | some declaration =>
          refine .inr ⟨rfl, fun overridden inherited => ?_⟩
          obtain ⟨method, member, rfl⟩ := List.mem_map.mp (List.mem_of_find?_eq_some second)
          have taken := takes method member overridden inherited
          rw [← taken]
          exact congrArg (fun sig => some (sig, method.isStatic)) method.returnType.qualify_none

private theorem inherited?_of_base {base : LocatedType}
    (above : context.metadata.base? type = some base)
    {limit : Nat} (short : limit + 1 ≤ context.metadata.typeCount) {overridden : TypeSig × Bool}
    (found : (context.metadata.chainUpTo limit base).findSome?
      (overridden? context.configuration.runtime.typeQuery) = some overridden) :
    context.inherited? type = some overridden := by
  obtain ⟨count, longer⟩ : ∃ count, context.metadata.typeCount = count + 1 :=
    ⟨context.metadata.typeCount - 1, by omega⟩
  rw [inherited?, Metadata.chain, longer, Metadata.chainUpTo_succ, above, List.tail_cons]
  exact (Metadata.chainUpTo_prefix (by omega) base).findSome?_eq_some found

private theorem findSome?_chainUpTo
    (related : Metadata.Related context.Agrees context.metadata after.metadata)
    {limit : Nat} (short : limit ≤ context.metadata.typeCount) (agrees : context.Agrees type type')
    {overridden : TypeSig × Bool}
    (found : (context.metadata.chainUpTo limit type).findSome?
      (overridden? context.configuration.runtime.typeQuery) = some overridden) :
    (after.metadata.chainUpTo limit type').findSome?
      (overridden? context.configuration.runtime.typeQuery) = some overridden := by
  induction limit generalizing type type' with
  | zero =>
      simp only [Metadata.chainUpTo, List.findSome?_singleton] at found ⊢
      rcases agrees.overridden? with same | ⟨none, -⟩
      · exact same.trans found
      · cases none.symm.trans found
  | succ limit hypothesis =>
      rw [Metadata.chainUpTo_succ, List.findSome?_cons] at found ⊢
      cases declared : overridden? context.configuration.runtime.typeQuery type with
      | some own =>
          rw [declared] at found
          rcases agrees.overridden? with same | ⟨none, -⟩
          · rw [same, declared]
            exact found
          · cases none.symm.trans declared
      | none =>
          rw [declared] at found
          cases above : context.metadata.base? type with
          | none => rw [above] at found; cases found
          | some base =>
              obtain ⟨base', above', bases⟩ := exists_of_rel (related.base? agrees) above
              rw [above] at found
              have rest := hypothesis (Nat.le_of_succ_le short) bases found
              rcases agrees.overridden? with same | ⟨-, takes⟩
              · rw [same, declared, above']
                exact rest
              · -- what has been added to this type takes over what the chain finds behind it
                rw [takes overridden (inherited?_of_base above short found)]

/-- What a type inherits it inherits at any time of the pass. -/
theorem inherited?_of_agrees (related : Metadata.Related context.Agrees context.metadata after.metadata)
    (same : after.configuration = context.configuration) (agrees : context.Agrees type type')
    {overridden : TypeSig × Bool} (found : context.inherited? type = some overridden) :
    after.inherited? type' = some overridden := by
  unfold inherited? at found ⊢
  rw [Metadata.chain] at found ⊢
  rw [related.typeCount, same]
  cases count : context.metadata.typeCount with
  | zero => rw [count] at found; cases found
  | succ limit =>
      rw [count, Metadata.chainUpTo_succ, List.tail_cons] at found
      rw [Metadata.chainUpTo_succ, List.tail_cons]
      cases above : context.metadata.base? type with
      | none => rw [above] at found; cases found
      | some base =>
          obtain ⟨base', above', bases⟩ := exists_of_rel (related.base? agrees) above
          rw [above] at found
          rw [above']
          exact findSome?_chainUpTo related (count ▸ Nat.le_succ limit) bases found

end WeavingContext

/-! ## The pass -/

private theorem TypeDef.Overrides.change {inherited : Option (TypeSig × Bool)}
    {before after : TypeDef}
    (overrides : before.Overrides inherited after) {edit : Edit} (cursor : Nat → Nat)
    (takes : ∀ method ∈ edit.addedMethods, ∀ overridden ∈ inherited,
      (method.returnType, method.isStatic) = overridden) :
    before.Overrides inherited (edit.change cursor after) := by
  obtain ⟨header, added, given, headers⟩ := overrides
  refine ⟨header, added ++ edit.addedMethods, List.forall_mem_append.mpr ⟨given, takes⟩, ?_⟩
  rw [edit.headers_change_append, List.map_append, headers, ← List.map_append, List.append_assoc]

/-- A module whose types declare the queries of the first one, and further ones that take over what they
would inherit there. -/
structure Module.Overrides (resolver : Resolver) (configuration : Configuration)
    (before after : Module) : Prop where
  extended : before.Extends after
  types : List.Forall₂ (fun type type' => type.Overrides
    ((WeavingContext.ofModule before resolver configuration).inherited? ⟨type, none⟩) type')
    before.types after.types

variable {resolver : Resolver} {configuration : Configuration} {module : Module}

namespace Module.Overrides

theorem refl (module : Module) : module.Overrides resolver configuration module :=
  ⟨.refl module, List.forall₂_same.mpr fun _ _ => ⟨rfl, [], by simp, by simp⟩⟩

variable {after : Module} (overrides : module.Overrides resolver configuration after)

include overrides

private theorem related : Metadata.Related
    (WeavingContext.ofModule module resolver configuration).Agrees
    (WeavingContext.ofModule module resolver configuration).metadata
    (WeavingContext.ofModule after resolver configuration).metadata where
  inseparable := WeavingContext.inseparable_agrees _
  name := overrides.extended.name
  types := overrides.types.imp fun _ _ types => .inr ⟨rfl, rfl, types⟩
  resolver := rfl
  coreModule := rfl

/-- What a type of the module inherits it still inherits. -/
theorem inherited? {index : Nat} {type type' : TypeDef} (found : module.types[index]? = some type)
    (found' : after.types[index]? = some type') {overridden : TypeSig × Bool}
    (inherits : (WeavingContext.ofModule module resolver configuration).inherited? ⟨type, none⟩ =
      some overridden) :
    (WeavingContext.ofModule after resolver configuration).inherited? ⟨type', none⟩ =
      some overridden := by
  obtain ⟨type'', found'', types⟩ := exists_of_rel (rel_getElem? overrides.types index) found
  obtain rfl := Option.some.inj (found'.symm.trans found'')
  exact WeavingContext.inherited?_of_agrees overrides.related rfl (.inr ⟨rfl, rfl, types⟩) inherits

end Module.Overrides

namespace WeavingState

variable {state after : WeavingState} {task : Task} {type : Nat}

private theorem overrides_foldl {edits : List Edit} (plain : ∀ edit ∈ edits, edit.Plain)
    (overrides : module.Overrides resolver configuration state.module)
    (takes : ∀ original, module.types[type]? = some original → ∀ edit ∈ edits,
      ∀ method ∈ edit.addedMethods, ∀ overridden ∈
        (WeavingContext.ofModule module resolver configuration).inherited? ⟨original, none⟩,
      (method.returnType, method.isStatic) = overridden) :
    module.Overrides resolver configuration (edits.foldl (applyEdit type) state).module := by
  induction edits generalizing state with
  | nil => exact overrides
  | cons edit edits hypothesis =>
      obtain ⟨here, rest⟩ := List.forall_mem_cons.mp plain
      refine hypothesis rest ⟨overrides.extended.trans (extends_applyEdit here type state), ?_⟩
        fun original found change member => takes original found change (List.mem_cons_of_mem _ member)
      rw [types_applyEdit]
      refine forall₂_modify_right overrides.types fun original current found types => ?_
      exact types.change _ (takes original found edit List.mem_cons_self)

/-- A task keeps what types inherit. -/
theorem overrides_runTask (overrides : module.Overrides resolver configuration state.module)
    (ran : runTask resolver configuration state task = .ok after) :
    module.Overrides resolver configuration after.module := by
  rcases runTask_eq_ok ran with rfl | ⟨edit, executed, rfl⟩
  · exact overrides
  refine overrides_foldl (Task.plain_of_execute executed) overrides ?_
  intro original found change member method added overridden inherits
  rcases Task.addedMethods_of_execute executed with none | hierarchy
  · rw [none change member] at added
    cases added
  · rw [hierarchy] at executed
    rcases WeavingContext.overrideQuery_eq_ok executed with rfl | ⟨current, identifiers, declaration,
      wrapper, constructor, located, -, declared, -, -, rfl⟩
    · cases member
    obtain rfl := List.mem_singleton.mp member
    obtain rfl := List.mem_singleton.mp added
    obtain ⟨found', own⟩ := WeavingContext.targetType_eq_ok.mp located
    obtain ⟨definition, scope⟩ := current
    obtain rfl : scope = none := own
    have same := overrides.inherited? found found' inherits
    rw [WeavingContext.inherited?_eq, declared] at same
    obtain rfl := Option.some.inj same
    exact congrArg (Prod.mk _) (WeavingContext.isStatic_overrideFlags declaration.definition.flags)

theorem overrides_foldlM {tasks : List Task} {before : WeavingState}
    (overrides : module.Overrides resolver configuration before.module)
    (ran : tasks.foldlM (runTask resolver configuration) before = .ok after) :
    module.Overrides resolver configuration after.module :=
  Outcome.foldlM_invariant (fun _ state => module.Overrides resolver configuration state.module)
    (fun _ _ _ _ overrides executed => overrides_runTask overrides executed) overrides ran

end WeavingState

end PropertyWeaver
