import PropertyWeaver.Proofs.Weaving.Composition

/-!
# References in woven code

After a pass every method that synthesized code refers to exists. A pass that needs a constructor and
finds none fails, and its error names the type that lacks it.
-/

set_option autoImplicit false

namespace PropertyWeaver

/-! ## Missing constructors -/

namespace WeavingContext

/-- A task that finds all that it needs but the constructor of what it creates, and its error. -/
inductive MissesConstructor (context : WeavingContext) : Task → WeaveError → Prop
  | mapping {typeIndex propertyIndex : Nat} {type mapping : LocatedType} {property : PropertyDef}
      {identifier parameter : String} {api : MappingApi} {default : Option (List Instruction)} :
      context.targetType typeIndex = .ok type →
      propertyOf type propertyIndex = .ok property →
      context.persistentIdentifier type.definition property = .ok (some identifier) →
      (∀ getter ∈ property.getter,
        checkAccessor type.definition property .getter getter = .ok ()) →
      (∀ setter ∈ property.setter,
        checkAccessor type.definition property .setter setter = .ok ()) →
      context.mappingType = .ok mapping →
      type.definition.field? (context.configuration.mappingFieldName property.name) = none →
      context.mappingApi type property mapping = .ok api →
      (∀ setter ∈ property.setter, ∃ body, context.setter type property
        (.mapping ⟨type.sig, context.configuration.mappingFieldName property.name,
            .instantiated mapping.typeRef false [property.propertyType]⟩
          (api.getValue.instantiate [property.propertyType])
          (api.setValue.instantiate [property.propertyType])) = .ok body) →
      context.defaultCode type property = .ok default →
      mapping.definition.genericParameters = [parameter] →
      context.metadata.constructor? mapping
        (["System.String", "System.String"] ++ if default.isSome then [parameter] else []) = none →
      MissesConstructor context (.mappedProperty typeIndex propertyIndex)
        (.mappingConstructorNotFound type.fullName mapping.fullName
          (["System.String", "System.String"] ++ if default.isSome then [parameter] else []))
  | identifier {typeIndex : Nat} {type wrapper : LocatedType} {own : List String}
      {identifiers : List (List String)} {declaration : LocatedMethod} :
      context.targetType typeIndex = .ok type →
      context.typeIdentifiers type.definition = .ok own →
      own ≠ [] →
      (context.metadata.chain type).mapM
        (fun level => context.typeIdentifiers level.definition) = .ok identifiers →
      (context.metadata.chain type).tail.findSome?
        (queryDeclaration? context.configuration.runtime.typeQuery) = some declaration →
      context.identifierType = .ok wrapper →
      context.metadata.constructor? wrapper ["System.String"] = none →
      MissesConstructor context (.typeHierarchy typeIndex)
        (.identifierConstructorNotFound type.fullName wrapper.fullName)

private theorem MissesConstructor.execute {context : WeavingContext} {task : Task}
    {error : WeaveError}
    (misses : context.MissesConstructor task error) : task.execute context = .error error := by
  cases misses with
  | @mapping _ _ type mapping property identifier parameter api default located listed annotated
      getters setters mapped absent apis made literal only missing =>
      have changes : ∃ edits : List Edit, property.setter.toList.mapM (fun setter => do
            return Edit.replaceBody setter (← context.setter type property
              (.mapping ⟨type.sig, context.configuration.mappingFieldName property.name,
                  .instantiated mapping.typeRef false [property.propertyType]⟩
                (api.getValue.instantiate [property.propertyType])
                (api.setValue.instantiate [property.propertyType])))) =
            (.ok edits : Except WeaveError (List Edit)) := by
        cases accessor : property.setter with
        | none => exact ⟨[], rfl⟩
        | some setter =>
            obtain ⟨body, made⟩ := made setter accessor
            exact ⟨[.replaceBody setter body], by simp [made]⟩
      obtain ⟨edits, changes⟩ := changes
      change context.mapProperty _ _ = _
      simp only [mapProperty, located, listed, annotated, checkAccessors_eq_ok.mpr getters,
        checkAccessors_eq_ok.mpr setters, mapped,
        absent, Outcome.ok_bind, routeThrough, apis, changes, constructorBlock, literal,
        mappingParameter_eq_ok.mpr only, missing, orError, Outcome.error_bind]
  | identifier located own some_ listed declared wraps missing =>
      change context.overrideQuery _ = _
      simp only [overrideQuery, located, own, Outcome.ok_bind, List.isEmpty_eq_false_iff.mpr some_,
        Bool.false_eq_true, if_false, listed, declared, wraps, missing, orError, Outcome.error_bind]

end WeavingContext

namespace Module

variable {resolver : Resolver} {configuration : Configuration} {module : Module} {task : Task}
  {state : WeavingState} {error : WeaveError}

/-- A pass comes to a task that applies, in a state. -/
def Reaches (resolver : Resolver) (configuration : Configuration) (module : Module) (task : Task)
    (state : WeavingState) : Prop :=
  ∃ done type waiting tasks rest between,
    module.baseFirstOrder = done ++ type :: waiting ∧
    done.foldlM (WeavingState.weaveType resolver configuration) (.initial module) = .ok between ∧
    between.module.plan configuration type = tasks ++ task :: rest ∧
    tasks.foldlM (WeavingState.runTask resolver configuration) { between with touched := [] } =
      .ok state ∧
    task.canExecute (.ofModule state.module resolver configuration) = true

/-- The error of a task that a pass comes to is the error of the pass. -/
theorem weave_error_of_reaches (fresh : module.isInstrumented = false)
    (reaches : module.Reaches resolver configuration task state)
    (fails : task.execute (.ofModule state.module resolver configuration) = .error error) :
    module.weave resolver configuration = .error error := by
  obtain ⟨done, type, waiting, tasks, rest, between, order, before, planned, ran, applies⟩ := reaches
  have failed : WeavingState.runTask resolver configuration state task = .error error := by
    simp only [WeavingState.runTask, applies, if_true, fails, Outcome.error_bind]
  have visit : WeavingState.weaveType resolver configuration between type = .error error := by
    rw [WeavingState.weaveType, planned, List.foldlM_append, ran, Outcome.ok_bind, List.foldlM_cons,
      failed]
    rfl
  rw [weave, fresh, if_neg Bool.false_ne_true, order, List.foldlM_append, before, Outcome.ok_bind,
    List.foldlM_cons, visit]
  rfl

/-- If modules are stored under their own names and the names of the target's types differ, then
synthesized code refers to methods that exist, and a constructor that is missing is reported. -/
theorem weave_links (names : resolver.OwnNames)
    (distinct : (module.types.map TypeDef.fullName).Nodup) :
    (∀ woven report, module.weave resolver configuration = .ok (woven, report) →
      ∀ type index method, woven.methodAt? type index = some method → ∀ body ∈ method.body,
        body.Composed (WeavingContext.ofModule woven resolver configuration).Links
          ((module.methodAt? type index).bind (·.body))) ∧
    (module.isInstrumented = false →
      ∀ task state error, module.Reaches resolver configuration task state →
        (WeavingContext.ofModule state.module resolver configuration).MissesConstructor task error →
        module.weave resolver configuration = .error error) := by
  refine ⟨fun woven report weaves type index method listed body has => ?_,
    fun fresh task state error reaches misses => weave_error_of_reaches fresh reaches misses.execute⟩
  rcases weave_eq_ok weaves with ⟨-, rfl⟩ | ⟨-, state, ran, rfl, rfl⟩
  · rw [listed]
    exact ⟨[], body.instructions, rfl, by simp, .inr ⟨body, has, id,
      (Instruction.map_mapTarget_id _).symm⟩⟩
  · have linked := Outcome.foldlM_invariant
      (fun _ state => WeavingState.Linked resolver configuration module state)
      (fun _ _ _ _ linked visited => linked.weaveType names visited)
      (WeavingState.linked_initial distinct) ran
    have stored : state.methodState? type index = some ⟨method, state.cursors (type, index)⟩ :=
      WeavingState.methodState?_eq_some.mpr ⟨listed, rfl⟩
    obtain ⟨synthesized, kept, split, each, rest⟩ := linked.composed type index _ stored body has
    refine ⟨synthesized, kept, split, fun instruction member => ?_, rest.imp_right And.right⟩
    exact (each instruction member).mono
      ((extends_markInstrumented state.module).metadata resolver configuration) rfl names

/-! A runtime whose identifiers have no constructor. -/

def labelledType : TypeDef := { sampleCounter with methods := [], properties := [] }

def labelledModule : Module := sample "App" [labelledType]

def bareType : TypeDef := sampleRuntimeType "Semweave" "Class" [] []

def bareResolver : Resolver :=
  Resolver.empty.register (sample "Semweave.Runtime" [sampleEntityType, bareType])

theorem weave_links_sampleModule :
    sampleResolver.OwnNames ∧ (sampleModule.types.map TypeDef.fullName).Nodup ∧
      (∃ woven report, sampleModule.weave sampleResolver {} = .ok (woven, report) ∧
        ∀ type index method, woven.methodAt? type index = some method → ∀ body ∈ method.body,
          body.Composed (WeavingContext.ofModule woven sampleResolver {}).Links
            ((sampleModule.methodAt? type index).bind (·.body))) ∧
      labelledModule.weave bareResolver {} =
        .error (.identifierConstructorNotFound "Demo.Counter" "Semweave.Class") := by
  have names : sampleResolver.OwnNames := Resolver.ownNames_empty.register sampleRuntime
  have distinct : (sampleModule.types.map TypeDef.fullName).Nodup := by decide
  have weaves : (sampleModule.weave sampleResolver {}).isOk = true := by decide +kernel
  obtain ⟨⟨woven, report⟩, outcome⟩ := Outcome.exists_of_isOk weaves
  have bare : bareResolver.OwnNames := Resolver.ownNames_empty.register _
  have reaches : labelledModule.Reaches bareResolver {} (.typeHierarchy 0) (.initial labelledModule) :=
    ⟨[], 0, [], [], [], .initial labelledModule, by decide +kernel, rfl, by decide, rfl, by decide⟩
  have misses : (WeavingContext.ofModule labelledModule bareResolver {}).MissesConstructor
      (.typeHierarchy 0) (.identifierConstructorNotFound labelledType.fullName bareType.fullName) :=
    @WeavingContext.MissesConstructor.identifier _ 0 ⟨labelledType, none⟩
      ⟨bareType, some "Semweave.Runtime"⟩ ["urn:counter"] _ _ rfl rfl (List.cons_ne_nil _ _) rfl rfl
      rfl rfl
  exact ⟨names, distinct, ⟨woven, report, outcome, (weave_links names distinct).1 _ _ outcome⟩,
    (weave_links bare (by decide)).2 (by decide) _ _ _ reaches misses⟩

/-! A runtime in which only bases declare the constructors, and types that share a name. -/

def crookedRuntime : Module :=
  sample "Semweave.Runtime"
    [sampleEntityType,
     { sampleMappingType with
        base := some (.classType ⟨none, "Semweave.Mapping", "Mapping"⟩), methods := [] },
     { sampleMappingType with name := "Mapping", genericParameters := [] },
     { sampleRuntimeType "Semweave" "Class" [] [] with
        base := some (.classType ⟨none, "Semweave", "Label"⟩) },
     sampleRuntimeType "Semweave" "Label" []
      [sampleMethod MethodDef.constructorName (.builtin .void) [.builtin .string] none]]

def crookedResolver : Resolver := Resolver.empty.register crookedRuntime

def raising : MethodDef :=
  sampleMethod "RaisePropertyChanged" (.builtin .void) [.builtin .string] none

def crookedModule : Module :=
  sample "App"
    [labelledType,
     { sampleCounter with methods := sampleCounter.methods ++ [raising] }]

def crookedNotify : MethodRef :=
  ⟨.classType ⟨none, "Demo", "Counter"⟩, "RaisePropertyChanged", true, .builtin .void,
   [.builtin .string], []⟩

def crookedMapping : MethodRef :=
  ⟨.instantiated ⟨some "Semweave.Runtime", "Semweave.Mapping", "PropertyMapping`1"⟩ false
    [.builtin .int32], MethodDef.constructorName, true, .builtin .void,
   [.builtin .string, .builtin .string], []⟩

def crookedLabel : MethodRef :=
  ⟨.classType ⟨some "Semweave.Runtime", "Semweave", "Label"⟩, MethodDef.constructorName, true,
   .builtin .void, [.builtin .string], []⟩

def hasCode (module : Module) (type index : Nat) (instruction : Instruction) : Bool :=
  ((module.methodAt? type index).bind (·.body)).any fun body => instruction ∈ body.instructions

def gains (module woven : Module) (type index : Nat) (instruction : Instruction) : Bool :=
  woven.hasCode type index instruction && !module.hasCode type index instruction

/-- The name of the type that a reference leads to, and the names of its methods. -/
def referred (context : WeavingContext) (member : MethodRef) : Option (String × List String) :=
  (context.metadata.resolveSig? none member.declaringType).map fun owner =>
    (owner.fullName, owner.definition.methods.map (·.name))

private theorem not_resolves_of_referred {context : WeavingContext} {member : MethodRef}
    {fullName : String}
    {names : List String} (leads : referred context member = some (fullName, names))
    (absent : member.name ∉ names) : ¬ context.metadata.Resolves member := by
  rintro ⟨owner, found, method, declared, named, -⟩
  simp only [referred, found, Option.map_some, Option.some.injEq, Prod.mk.injEq] at leads
  apply absent
  rw [← leads.2, ← named]
  exact List.mem_map_of_mem declared

/-- The constructor of a mapping object that only a base declares is not one of the type that is made. -/
theorem weave_dangles_mapping :
    ∃ woven report, sampleModule.weave crookedResolver {} = .ok (woven, report) ∧
      crookedResolver.OwnNames ∧ (sampleModule.types.map TypeDef.fullName).Nodup ∧
      sampleModule.gains woven 0 2 ⟨.newobj, .method crookedMapping⟩ = true ∧
      ¬ (WeavingContext.ofModule woven crookedResolver {}).metadata.Resolves crookedMapping := by
  have computed : ((sampleModule.weave crookedResolver {}).toOption.map fun result =>
      (sampleModule.gains result.1 0 2 ⟨.newobj, .method crookedMapping⟩,
       referred (.ofModule result.1 crookedResolver {}) crookedMapping)) =
      some (true, some ("Semweave.Mapping.PropertyMapping`1", [])) := by decide +kernel
  obtain ⟨⟨woven, report⟩, weaves, same⟩ := Option.map_eq_some_iff.mp computed
  obtain ⟨gains, leads⟩ := Prod.mk.inj same
  exact ⟨woven, report, Outcome.toOption_eq_some.mp weaves, Resolver.ownNames_empty.register _,
    by decide, gains, not_resolves_of_referred leads List.not_mem_nil⟩

/-- A type that shares its name hides the method that a setter calls, so names have to differ. -/
theorem weave_dangles_notification :
    ∃ woven report, crookedModule.weave sampleResolver {} = .ok (woven, report) ∧
      sampleResolver.OwnNames ∧
      crookedModule.gains woven 1 1 ⟨.callvirt, .method crookedNotify⟩ = true ∧
      ¬ (WeavingContext.ofModule woven sampleResolver {}).metadata.Resolves crookedNotify := by
  have order : crookedModule.baseFirstOrder = [0, 1] := List.mergeSort_of_pairwise (by decide)
  have computed : ((crookedModule.weave sampleResolver {}).toOption.map fun result =>
      (crookedModule.gains result.1 1 1 ⟨.callvirt, .method crookedNotify⟩,
       referred (.ofModule result.1 sampleResolver {}) crookedNotify)) =
      some (true, some ("Demo.Counter", ["GetTypes"])) := by
    rw [weave_of_order (by decide) order]
    decide +kernel
  obtain ⟨⟨woven, report⟩, weaves, same⟩ := Option.map_eq_some_iff.mp computed
  obtain ⟨gains, leads⟩ := Prod.mk.inj same
  exact ⟨woven, report, Outcome.toOption_eq_some.mp weaves, Resolver.ownNames_empty.register _,
    gains, not_resolves_of_referred leads (by decide)⟩

end Module

end PropertyWeaver
