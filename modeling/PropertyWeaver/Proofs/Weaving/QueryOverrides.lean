import PropertyWeaver.Proofs.Weaving.Declarations
import PropertyWeaver.Proofs.Weaving.EmittedReferences
import PropertyWeaver.Proofs.Weaving.PassFrame
import PropertyWeaver.Proofs.Weaving.QuerySemantics

/-!
# Types get their queries

A type with identifiers that does not declare the query gets one override of what it inherits. The
override returns a fresh array with one wrapper for each identifier along the chain of the type.
-/

set_option autoImplicit false

namespace PropertyWeaver

open Execution

variable {resolver : Resolver} {configuration : Configuration}

/-- The method is what a call of the query on an object finds. -/
def MethodDef.isQuery (query : String) (method : MethodDef) : Bool :=
  method.name = query && method.parameters.isEmpty && !method.isStatic

/-- Running the code returns an array that has not been there before. It holds one object for each
string, made from it by the constructor, and nothing else has been done. -/
def MethodBody.Lists (body : MethodBody) (element : TypeSig) (constructor : MethodRef)
    (texts : List String) : Prop :=
  ∀ (World : Type) (runtime : Runtime World) (memory : Memory World) (arguments : List Value),
    runtime.Spares constructor memory.arrays.length →
    ∃ values final, (⟨runtime, body, arguments⟩ : Activation World).Returns memory final ∧
      final.frame.stack = [.array memory.arrays.length] ∧
      final.frame.history.memory.arrays[memory.arrays.length]? = some values ∧
      List.Forall₂ (runtime.Constructs constructor) texts values ∧
      final.frame.history.events = .allocate element texts.length ::
        fillEvents constructor memory.arrays.length 0 texts values

namespace WeavingContext

private theorem isVirtual_overrideFlags (flags : UInt32) :
    hasFlag (overrideFlags flags) MethodFlag.virtual = true := by
  have set : (MethodFlag.virtual ||| MethodFlag.hideBySig) &&& MethodFlag.virtual ≠ 0 := by decide
  rw [hasFlag, overrideFlags_and]
  exact bne_iff_ne.mpr fun none => set (UInt32.or_eq_zero_iff.mp none).2

private theorem hasFlag_overrideFlags {flags flag : UInt32}
    (cleared : ~~~(MethodFlag.newSlot ||| MethodFlag.abstract) &&& flag = 0)
    (other : (MethodFlag.virtual ||| MethodFlag.hideBySig) &&& flag = 0) :
    hasFlag (overrideFlags flags) flag = false := by
  rw [hasFlag, overrideFlags_and, cleared, other, UInt32.and_zero, UInt32.or_zero]
  rfl

/-- The code of a query of the type: it lists the identifiers along the chain. -/
def ListsIdentifiers (context : WeavingContext) (type : LocatedType) (body : MethodBody) : Prop :=
  ∃ identifiers wrapper constructor,
    (context.metadata.chain type).mapM (fun level => context.typeIdentifiers level.definition) =
      .ok identifiers ∧
    context.identifierType = .ok wrapper ∧
    context.metadata.constructor? wrapper ["System.String"] = some constructor ∧
    (wrapper.definition.Constructs ["System.String"] → constructor.owner = wrapper) ∧
    body.Lists wrapper.sig constructor.methodRef identifiers.flatten

variable {before after : WeavingContext} {type type' : LocatedType} {typeIndex : Nat} {edit : TypeEdit}

private theorem identifiers_of_extends (extended : before.metadata.Extends after.metadata)
    (same : after.configuration = before.configuration) (types : type.Extends type') :
    (after.metadata.chain type').mapM (fun level => after.typeIdentifiers level.definition) =
      (before.metadata.chain type).mapM (fun level => before.typeIdentifiers level.definition) := by
  have chains := extended.chain types
  generalize before.metadata.chain type = levels, after.metadata.chain type' = levels' at chains ⊢
  induction chains with
  | nil => rfl
  | @cons level level' _ _ here _ hypothesis =>
      have identified : after.typeIdentifiers level'.definition =
          before.typeIdentifiers level.definition := by
        have header := LocatedType.eq_of_header here.header
          (fun level => before.typeIdentifiers level.definition) fun _ => rfl
        rw [← header, typeIdentifiers, typeIdentifiers, same]
      rw [List.mapM_cons, List.mapM_cons, identified, hypothesis]

private theorem listsIdentifiers_of_extends (extended : before.metadata.Extends after.metadata)
    (same : after.configuration = before.configuration) (types : type.Extends type')
    {identifiers : List (List String)} {wrapper : LocatedType} {constructor : LocatedMethod}
    {body : MethodBody} (few : identifiers.flatten.length < 2 ^ 31)
    (listed : (after.metadata.chain type').mapM
      (fun level => after.typeIdentifiers level.definition) = .ok identifiers)
    (wraps : after.identifierType = .ok wrapper)
    (constructs : after.metadata.constructor? wrapper ["System.String"] = some constructor)
    (room : body.locals.length = 1)
    (code : body.instructions = queryCode wrapper.sig constructor.methodRef identifiers.flatten) :
    before.ListsIdentifiers type body := by
  rw [identifiers_of_extends extended same types] at listed
  rw [identifierType, same] at wraps
  obtain ⟨wrapper', wraps', wrappers⟩ := runtimeType_of_extends extended same wraps
  obtain ⟨constructor', constructs', constructors⟩ :=
    exists_of_rel_right (extended.constructor? wrappers (List.cons_ne_nil _ _)) constructs
  refine ⟨identifiers, wrapper', constructor', listed, wraps', constructs', ?_, ?_⟩
  · rintro ⟨method, declared, makes, takes⟩
    exact Metadata.owner_of_findMethod? constructs' ⟨method, declared, by simp [makes, takes]⟩
  · rw [constructors.methodRef,
      LocatedType.eq_of_header wrappers.header LocatedType.sig fun _ => rfl] at code
    have takes := (Metadata.findMethod?_spec constructs').2.2
    simp only [Bool.and_eq_true, decide_eq_true_eq] at takes
    have count : constructor'.methodRef.parameters.length = 1 := by
      rw [constructor'.length_parameters_methodRef, ← constructor'.definition.length_parameterNames,
        takes.2]
      rfl
    exact fun World runtime memory arguments spares =>
      @Activation.queryCode_returns World ⟨runtime, body, arguments⟩ _ _ _ code room few memory count
        spares

end WeavingContext

private theorem TypeDef.queryTasks_of_attributesNamed {type : TypeDef} {typeIndex : Nat}
    (identifies : type.attributesNamed configuration.annotations.typeIdentifiers ≠ []) :
    type.queryTasks configuration typeIndex = [.typeHierarchy typeIndex] := by
  obtain ⟨attr, member⟩ := List.exists_mem_of_ne_nil _ identifies
  obtain ⟨listed, named⟩ := List.mem_filter.mp member
  have requested : configuration.requests type.attributes .typeIdentifiers = true := by
    refine List.any_eq_true.mpr ⟨attr, listed, ?_⟩
    simp [Configuration.annotationKind?, of_decide_eq_true named]
  rw [queryTasks, requested]
  rfl

/-! ## The task -/

namespace WeavingState

variable {module : Module} {original definition : TypeDef} {type : Nat} {state after : WeavingState}

/-- The task for the query adds it to a type that has identifiers and does not declare the query. -/
theorem runTask_query (overrides : module.Overrides resolver configuration state.module)
    (found : module.types[type]? = some original)
    (here : state.module.types[type]? = some definition)
    (identifies : original.attributesNamed configuration.annotations.typeIdentifiers ≠ [])
    (undeclared : ¬ state.module.DeclaresQuery type configuration.runtime.typeQuery)
    {declaration : LocatedMethod}
    (declares : ((WeavingContext.ofModule module resolver configuration).metadata.chain
      ⟨original, none⟩).tail.findSome?
        (WeavingContext.queryDeclaration? configuration.runtime.typeQuery) = some declaration)
    (few : (WeavingContext.ofModule module resolver configuration).identifierCount
      ⟨original, none⟩ < 2 ^ 31)
    (ran : runTask resolver configuration state (.typeHierarchy type) = .ok after) :
    ∃ query body, after.module.types[type]? =
        some { definition with methods := definition.methods ++ [query] } ∧
      query.name = configuration.runtime.typeQuery ∧ query.parameters = [] ∧
      query.isStatic = declaration.definition.isStatic ∧
      query.returnType = declaration.definition.returnType.qualify declaration.owner.scope ∧
      query.isVirtual = true ∧ query.isNewSlot = false ∧ query.isAbstract = false ∧
      query.body = some body ∧
      (WeavingContext.ofModule module resolver configuration).ListsIdentifiers ⟨original, none⟩
        body := by
  have types : LocatedType.Extends ⟨original, none⟩ ⟨definition, none⟩ := by
    obtain ⟨definition', here', types⟩ := exists_of_rel overrides.extended.types? found
    obtain rfl := Option.some.inj (here.symm.trans here')
    exact ⟨types, rfl⟩
  have extended := overrides.extended.metadata resolver configuration
  have applicable : (Task.typeHierarchy type).canExecute
      (.ofModule state.module resolver configuration) = true :=
    Module.canOverrideQuery_iff.mpr ⟨⟨definition, here⟩, undeclared⟩
  rcases runTask_cases ran with ⟨rfl, quiet⟩ | ⟨edit, -, executed, asks, rfl⟩
  · -- a task that does nothing has found no identifiers
    obtain ⟨edit, executed, nothing⟩ := quiet applicable
    rcases WeavingContext.overrideQuery_cases executed with asks | ⟨located, found', none, -⟩
    · exact absurd nothing asks
    · obtain ⟨here', own⟩ := WeavingContext.targetType_eq_ok.mp found'
      obtain rfl := Option.some.inj (here.symm.trans here')
      have attributes : located.definition.attributes = original.attributes :=
        TypeDef.eq_of_header types.definition.header TypeDef.attributes fun _ => rfl
      have length := WeavingContext.length_typeIdentifiers none
      rw [TypeDef.attributesNamed, attributes] at length
      exact absurd (List.length_eq_zero_iff.mp length.symm) identifies
  · rcases WeavingContext.overrideQuery_eq_ok executed with rfl | ⟨current, identifiers, declaration',
      wrapper, constructor, located, listed, declared, wraps, constructs, rfl⟩
    · exact absurd rfl asks
    obtain ⟨here', own⟩ := WeavingContext.targetType_eq_ok.mp located
    obtain ⟨definition', scope⟩ := current
    obtain rfl : scope = none := own
    obtain rfl := Option.some.inj (here.symm.trans here')
    have inherits := overrides.inherited? found here
      ((WeavingContext.inherited?_eq _ _).trans (congrArg _ declares))
    rw [WeavingContext.inherited?_eq, declared] at inherits
    obtain ⟨returns, receives⟩ := Prod.mk.inj (Option.some.inj inherits)
    have original_ := (WeavingContext.identifiers_of_extends extended rfl types).symm.trans listed
    refine ⟨_, _, types_addMethod here _, rfl, rfl,
      (WeavingContext.isStatic_overrideFlags _).trans receives, returns,
      WeavingContext.isVirtual_overrideFlags _,
      WeavingContext.hasFlag_overrideFlags (by decide) (by decide),
      WeavingContext.hasFlag_overrideFlags (by decide) (by decide), rfl, ?_⟩
    refine WeavingContext.listsIdentifiers_of_extends extended rfl types ?_ listed wraps constructs
      rfl rfl
    rw [WeavingContext.length_flatten_identifiers original_]
    exact few

end WeavingState

/-- A type with identifiers of its own that does not declare the query as an instance method, and
inherits a declaration that is one. -/
structure Module.AwaitsQuery (resolver : Resolver) (configuration : Configuration) (module : Module)
    (typeIndex : Nat) (type : TypeDef) (declaration : LocatedMethod) : Prop where
  found : module.types[typeIndex]? = some type
  identifies : type.attributesNamed configuration.annotations.typeIdentifiers ≠ []
  undeclared : ∀ method ∈ type.methods, method.isQuery configuration.runtime.typeQuery = false
  declares : ((WeavingContext.ofModule module resolver configuration).metadata.chain
    ⟨type, none⟩).tail.findSome?
      (WeavingContext.queryDeclaration? configuration.runtime.typeQuery) = some declaration
  receives : declaration.definition.isStatic = false
  few : (WeavingContext.ofModule module resolver configuration).identifierCount ⟨type, none⟩ < 2 ^ 31

namespace Module

variable {module woven : Module} {report : WeaveReport} {typeIndex : Nat} {type : TypeDef}
  {declaration : LocatedMethod}

/-- A type that awaits its query declares it once when it has been woven. The query overrides what
the type has inherited in the original module, and lists the identifiers along its chain there. -/
theorem weave_overrides_query (fresh : module.isInstrumented = false)
    (weaves : module.weave resolver configuration = .ok (woven, report))
    (awaits : module.AwaitsQuery resolver configuration typeIndex type declaration) :
    ∃ type' query body, woven.types[typeIndex]? = some type' ∧
      type'.methods.filter (MethodDef.isQuery configuration.runtime.typeQuery) = [query] ∧
      query.isVirtual = true ∧ query.isNewSlot = false ∧ query.isAbstract = false ∧
      query.returnType = declaration.definition.returnType.qualify declaration.owner.scope ∧
      query.body = some body ∧
      (WeavingContext.ofModule module resolver configuration).ListsIdentifiers ⟨type, none⟩ body := by
  obtain ⟨before, after, visit, overrides⟩ := exists_visit_of_preserved
    (module.Overrides resolver configuration) (.refl module)
    (fun _ _ _ overrides ran => WeavingState.overrides_runTask overrides ran) fresh weaves awaits.found
  obtain ⟨mapped, notified, removed, routed, injected, first, second, last, injecting⟩ := visit.phases
  obtain ⟨methods, there, headers⟩ := injecting.types
  obtain ⟨methods', there', headers'⟩ := WeavingState.types_notifying there second
  have silent : ∀ method ∈ methods', method.isQuery configuration.runtime.typeQuery = false := by
    intro method member
    obtain ⟨index, listed⟩ := List.mem_iff_getElem?.mp member
    obtain ⟨method', listed', header⟩ :=
      MethodDef.exists_of_headers (headers'.trans headers).symm listed
    rw [← awaits.undeclared method' (List.mem_of_getElem? listed')]
    exact (MethodDef.eq_of_header header (MethodDef.isQuery _) fun _ => rfl).symm
  have undeclared : ¬ notified.module.DeclaresQuery typeIndex configuration.runtime.typeQuery := by
    rintro ⟨definition, found', method, declared, named, plain, ordinary⟩
    obtain rfl := Option.some.inj (there'.symm.trans found')
    have answers := silent method declared
    simp [MethodDef.isQuery, named, plain, ordinary] at answers
  rw [TypeDef.queryTasks_of_attributesNamed awaits.identifies, List.foldlM_cons] at last
  obtain ⟨final, ran, done⟩ := Outcome.bind_eq_ok.mp last
  obtain rfl := Except.ok.inj done
  have kept := WeavingState.overrides_foldlM (WeavingState.overrides_foldlM overrides first) second
  obtain ⟨query, body, changed, named, plain, ordinary, returns, virtual, slot, implemented, has,
    lists⟩ :=
    WeavingState.runTask_query kept awaits.found there' awaits.identifies undeclared awaits.declares
      awaits.few ran
  refine ⟨_, query, body, visit.stays.trans changed, ?_, virtual, slot, implemented, returns, has,
    lists⟩
  have answers : query.isQuery configuration.runtime.typeQuery = true := by
    simp [MethodDef.isQuery, named, plain, ordinary, awaits.receives]
  rw [List.filter_append,
    List.filter_eq_nil_iff.mpr fun method member => by simp [silent method member], List.nil_append,
    List.filter_singleton, answers]
  rfl

/-! A type and its base in one module: the base gets its query first, and the type overrides that
one. -/

def layeredType : TypeDef :=
  { labelledType with
    name := "Special"
    base := some (.classType ⟨none, "Demo", "Counter"⟩)
    attributes := [sampleAttribute "RdfClassAttribute" "urn:special"] }

def layeredModule : Module := sample "App" [labelledType, layeredType]

def sampleQuery : LocatedMethod :=
  ⟨⟨sampleEntityType, some "Semweave.Runtime"⟩, 3, sampleEntityType.methods[3]!⟩

private theorem awaitsQuery_layeredModule :
    layeredModule.AwaitsQuery sampleResolver {} 1 layeredType sampleQuery where
  found := rfl
  identifies := by decide
  undeclared := by decide
  declares := by decide +kernel
  receives := by decide
  few := by decide +kernel

/-- A runtime that numbers the objects that it makes. -/
def numberingCalls : Runtime Nat where
  equal left right := decide (left = right)
  call _ method _ memory :=
    if method.returnType = .builtin .bool then (.int32 0, memory)
    else (.object memory.world, { memory with world := memory.world + 1 })
  box _ value memory := (value, memory)
  equal_int32 := Value.decide_int32_eq
  call_bool kind method arguments memory boolean := ⟨0, by rw [if_pos boolean]⟩

private theorem spares_numberingCalls (constructor : MethodRef) (array : Nat) :
    numberingCalls.Spares constructor array := by
  intro text memory elements found
  simp only [numberingCalls]
  split <;> exact found

theorem weave_overrides_query_layeredModule :
    ∃ woven report type' query body, layeredModule.weave sampleResolver {} = .ok (woven, report) ∧
      woven.types[1]? = some type' ∧ type'.methods.filter (MethodDef.isQuery "GetTypes") = [query] ∧
      query.returnType = .array (.classType ⟨some "Semweave.Runtime", "Semweave", "Class"⟩) ∧
      query.body = some body ∧ ∀ (memory : Memory Nat) (arguments : List Value),
        ∃ constructor values final,
          (⟨numberingCalls, body, arguments⟩ : Activation Nat).Returns memory final ∧
          final.frame.stack = [.array memory.arrays.length] ∧
          final.frame.history.memory.arrays[memory.arrays.length]? = some values ∧
          List.Forall₂ (numberingCalls.Constructs constructor) ["urn:special", "urn:counter"]
            values := by
  have order : layeredModule.baseFirstOrder = [0, 1] := List.mergeSort_of_pairwise (by decide)
  have weaves : (layeredModule.weave sampleResolver {}).isOk = true := by
    rw [weave_of_order (by decide) order]
    decide +kernel
  obtain ⟨⟨woven, report⟩, outcome⟩ := Outcome.exists_of_isOk weaves
  obtain ⟨type', query, body, found, only, -, -, -, returns, has, identifiers, wrapper, constructor,
    listed, -, -, -, lists⟩ := weave_overrides_query (by decide) outcome awaitsQuery_layeredModule
  have computed : ((WeavingContext.ofModule layeredModule sampleResolver {}).metadata.chain
      ⟨layeredType, none⟩).mapM (fun level =>
        (WeavingContext.ofModule layeredModule sampleResolver {}).typeIdentifiers level.definition) =
      .ok [["urn:special"], ["urn:counter"], []] := by decide +kernel
  obtain rfl := Except.ok.inj (listed.symm.trans computed)
  refine ⟨woven, report, type', query, body, outcome, found, only, returns, has, ?_⟩
  intro memory arguments
  obtain ⟨values, final, runs, stack, filled, made, -⟩ :=
    lists Nat numberingCalls memory arguments (spares_numberingCalls _ _)
  exact ⟨constructor.methodRef, values, final, runs, stack, filled, made⟩

/-- A module that has been woven before gets no query. Where only a base of the identifier type has the
constructor, the query makes objects of that base. -/
theorem weave_withholds_wrappers :
    (sampleModule.markInstrumented.AwaitsQuery sampleResolver {} 0 sampleCounter sampleQuery ∧
      sampleQuery.definition.returnsValue = true ∧
      ∃ woven report, sampleModule.markInstrumented.weave sampleResolver {} = .ok (woven, report) ∧
        ∀ type' ∈ woven.types, type'.methods.filter (MethodDef.isQuery "GetTypes") = []) ∧
    labelledModule.AwaitsQuery crookedResolver {} 0 labelledType sampleQuery ∧
      ∃ woven report, labelledModule.weave crookedResolver {} = .ok (woven, report) ∧
        woven.hasCode 0 0 ⟨.newobj, .method crookedLabel⟩ = true ∧
        crookedLabel.declaringType = .classType ⟨some "Semweave.Runtime", "Semweave", "Label"⟩ ∧
        (WeavingContext.ofModule labelledModule crookedResolver {}).identifierType.map
          LocatedType.sig = .ok (.classType ⟨some "Semweave.Runtime", "Semweave", "Class"⟩) := by
  refine ⟨⟨⟨rfl, by decide, by decide, by decide +kernel, by decide, by decide +kernel⟩, by decide,
    sampleModule.markInstrumented, _, rfl, by decide⟩, ⟨rfl, by decide, by decide, by decide +kernel,
    by decide, by decide +kernel⟩, ?_⟩
  have computed : ((labelledModule.weave crookedResolver {}).toOption.map fun result =>
      result.1.hasCode 0 0 ⟨.newobj, .method crookedLabel⟩) = some true := by decide +kernel
  obtain ⟨⟨woven, report⟩, weaves, labels⟩ := Option.map_eq_some_iff.mp computed
  exact ⟨woven, report, Outcome.toOption_eq_some.mp weaves, labels, rfl, rfl⟩

end Module

end PropertyWeaver
