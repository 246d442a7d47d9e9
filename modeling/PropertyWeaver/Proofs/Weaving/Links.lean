import PropertyWeaver.Proofs.Metadata.References
import PropertyWeaver.Proofs.Weaving.Extension

/-!
# Links of synthesized code

Every method that synthesized code calls has been found by a lookup, and a reference to what a lookup
has found resolves. For a constructor that is so where the configured type declares it itself.
-/

set_option autoImplicit false

namespace PropertyWeaver

/-- The methods that read and write a mapped value exist. -/
def ValueSource.Resolves (metadata : Metadata) : ValueSource → Prop
  | .field _ => True
  | .mapping _ getValue setValue => metadata.Resolves getValue ∧ metadata.Resolves setValue

namespace WeavingContext

/-- A reference to an instance constructor that is found on the chain of a type. If the type declares
it itself, the reference leads to that type. -/
structure ConstructsBy (context : WeavingContext) (host : LocatedType) (member : MethodRef) :
    Prop where
  name : member.name = MethodDef.constructorName
  receiver : member.hasThis = true
  takes : member.parameters ≠ []
  found : ∃ level ∈ context.metadata.chain host,
    level.definition.Constructs (member.parameters.map TypeSig.fullName)
  own : host.definition.Constructs (member.parameters.map TypeSig.fullName) →
    context.metadata.resolveSig? none member.declaringType = some host

/-- A reference that creates a mapping object, or an identifier by a constructor that exists. -/
def Creates (context : WeavingContext) (member : MethodRef) : Prop :=
  (∃ host, context.mappingType = .ok host ∧ context.ConstructsBy host member) ∨
    ∃ host, context.identifierType = .ok host ∧ context.ConstructsBy host member ∧
      context.metadata.Resolves member

/-- The method operand of an instruction, if it has one: what is created is a mapping object or an
identifier, and what is called exists. -/
def Links (context : WeavingContext) (instruction : Instruction) : Prop :=
  ∀ member ∈ instruction.method?,
    if instruction.opcode = .newobj then context.Creates member
    else context.metadata.Resolves member

variable {context before after : WeavingContext} {type : LocatedType} {property : PropertyDef}
  {typeIndex propertyIndex : Nat} {edit : TypeEdit}

private theorem links_of_method? {instruction : Instruction} (plain : instruction.method? = none) :
    context.Links instruction := by
  intro member named
  rw [plain] at named
  cases named

private theorem links_of_resolves {opcode : Opcode} {member : MethodRef}
    (resolves : context.metadata.Resolves member) (calls : opcode ≠ .newobj) :
    context.Links ⟨opcode, .method member⟩ := by
  intro other named
  obtain rfl : member = other := Option.some.inj named
  rw [if_neg calls]
  exact resolves

private theorem links_of_creates {member : MethodRef} (creates : context.Creates member) :
    context.Links ⟨.newobj, .method member⟩ := by
  intro other named
  obtain rfl : member = other := Option.some.inj named
  rw [if_pos rfl]
  exact creates

/-! ## Extension -/

private theorem finds_of_runtimeType (names : context.metadata.resolver.OwnNames)
    {fullName : String}
    (found : context.runtimeType fullName = .ok type) : context.metadata.Finds type :=
  Metadata.finds_of_findType? names (orError_eq_ok.mp found)

private theorem ConstructsBy.mono (extended : before.metadata.Extends after.metadata)
    (names : after.metadata.resolver.OwnNames) {host host' : LocatedType} {member : MethodRef}
    (hosts : host.Extends host') (finds : after.metadata.Finds host')
    (constructs : before.ConstructsBy host member) : after.ConstructsBy host' member := by
  refine ⟨constructs.name, constructs.receiver, constructs.takes, ?_, ?_⟩
  · obtain ⟨level, listed, method, declared, constructor, parameters⟩ := constructs.found
    obtain ⟨index, at_⟩ := List.mem_iff_getElem?.mp listed
    obtain ⟨level', found, levels⟩ := exists_of_rel (rel_getElem? (extended.chain hosts) index) at_
    obtain ⟨method', declared', header⟩ := levels.definition.exists_method declared
    refine ⟨level', List.mem_of_getElem? found, method', declared', ?_, ?_⟩
    · exact (MethodDef.isConstructor_of_header header).trans constructor
    · exact (MethodDef.eq_of_header header MethodDef.parameterNames fun _ => rfl).trans parameters
  · rintro ⟨method, declared, constructor, parameters⟩
    have takes : method.parameters ≠ [] := by
      intro none
      apply constructs.takes
      simpa [MethodDef.parameterNames, MethodDef.parameterTypes, none] using parameters
    obtain ⟨method', declared', header⟩ :=
      hosts.definition.exists_method_of_parameters declared takes
    have own : host.definition.Constructs (member.parameters.map TypeSig.fullName) :=
      ⟨method', declared', (MethodDef.isConstructor_of_header header).trans constructor,
        (MethodDef.eq_of_header header MethodDef.parameterNames fun _ => rfl).trans parameters⟩
    obtain ⟨again, found, types⟩ :=
      exists_of_rel (extended.resolveSig? none _) (constructs.own own)
    -- Both types bear the signature of the host, and a signature finds one type.
    have sigs : again.sig = host'.sig :=
      (LocatedType.eq_of_header types.header LocatedType.sig fun _ => rfl).trans
        (LocatedType.eq_of_header hosts.header LocatedType.sig fun _ => rfl).symm
    have located := Metadata.finds_of_resolveSig? names found
    rw [Metadata.Finds, sigs, finds] at located
    rw [found, ← located]

theorem Links.mono (extended : before.metadata.Extends after.metadata)
    (same : after.configuration = before.configuration)
    (names : after.metadata.resolver.OwnNames) {instruction : Instruction}
    (links : before.Links instruction) : after.Links instruction := by
  intro member named
  have link := links member named
  split at link
  · next creates =>
    rw [if_pos creates]
    rcases link with ⟨host, mapping, constructs⟩ | ⟨host, identifier, constructs, resolves⟩
    · obtain ⟨host', found, hosts⟩ := mappingType_extends extended same mapping
      exact .inl ⟨host', found,
        constructs.mono extended names hosts (finds_of_runtimeType names found)⟩
    · obtain ⟨host', found, hosts⟩ := identifierType_extends extended same identifier
      exact .inr ⟨host', found,
        constructs.mono extended names hosts (finds_of_runtimeType names found),
        resolves.mono extended⟩
  · next calls =>
    rw [if_neg calls]
    exact link.mono extended

/-! ## Templates -/

private theorem mappedGetter_links {field : FieldRef} {getValue : MethodRef}
    (resolves : context.metadata.Resolves getValue) :
    ∀ instruction ∈ (mappedGetter field getValue).instructions, context.Links instruction := by
  simp only [mappedGetter, MethodBody.ofCode, List.forall_mem_cons]
  exact ⟨links_of_method? rfl, links_of_method? rfl, links_of_method? rfl,
    links_of_resolves resolves (by decide), links_of_method? rfl, by simp⟩

private theorem load_links {source : ValueSource} (accessible : source.Resolves context.metadata) :
    ∀ instruction ∈ source.load, context.Links instruction := by
  cases source with
  | field member =>
      simp only [ValueSource.load, List.forall_mem_cons]
      exact ⟨links_of_method? rfl, links_of_method? rfl, by simp⟩
  | mapping member getValue setValue =>
      simp only [ValueSource.load, List.forall_mem_cons]
      exact ⟨links_of_method? rfl, links_of_method? rfl, links_of_method? rfl,
        links_of_resolves accessible.1 (by decide), by simp⟩

private theorem store_links {source : ValueSource} (accessible : source.Resolves context.metadata) :
    ∀ instruction ∈ source.store, context.Links instruction := by
  cases source with
  | field member =>
      simp only [ValueSource.store, List.forall_mem_cons]
      exact ⟨links_of_method? rfl, links_of_method? rfl, links_of_method? rfl, by simp⟩
  | mapping member getValue setValue =>
      simp only [ValueSource.store, List.forall_mem_cons]
      exact ⟨links_of_method? rfl, links_of_method? rfl, links_of_method? rfl, links_of_method? rfl,
        links_of_resolves accessible.2 (by decide), by simp⟩

private theorem pushInt32_method? (value : Int32) : (Instruction.pushInt32 value).method? = none :=
  (Instruction.scalar_pushInt32 value).method?_eq_none

section Templates

variable (names : context.metadata.resolver.OwnNames)

include names

private theorem setter_links (finds : context.metadata.Finds type) {source : ValueSource}
    {body : MethodBody} (made : context.setter type property source = .ok body)
    (accessible : source.Resolves context.metadata) :
    ∀ instruction ∈ body.instructions, context.Links instruction := by
  obtain ⟨equality, notify, compares, notifies, rfl⟩ := setter_eq_ok.mp made
  have compare : context.Links equality.compare := by
    cases equality with
    | primitive => exact links_of_method? rfl
    | method member =>
        exact links_of_resolves (Metadata.resolves_of_equality? names compares) (by decide)
  have raise : context.metadata.Resolves notify.methodRef :=
    Metadata.resolves_of_findMethod? names finds notifies []
  simp only [MethodBody.ofCode, setterCode, List.forall_mem_append, List.forall_mem_cons]
  exact ⟨⟨⟨load_links accessible, links_of_method? rfl, compare,
    links_of_method? (pushInt32_method? 0), links_of_method? rfl, links_of_method? rfl,
    links_of_method? rfl, by simp⟩, store_links accessible⟩, links_of_method? rfl,
    links_of_method? rfl, links_of_resolves raise (by decide),
    links_of_method? rfl, by simp⟩

private theorem mappingApi_links (finds : context.metadata.Finds type) {mapping : LocatedType}
    {api : MappingApi} (found : context.mappingApi type property mapping = .ok api)
    (arguments : List TypeSig) :
    context.metadata.Resolves (api.getValue.instantiate arguments) ∧
      context.metadata.Resolves (api.setValue.instantiate arguments) := by
  obtain ⟨parameter, -, reads, writes⟩ := mappingApi_eq_ok.mp found
  exact ⟨Metadata.resolves_of_findMethod? names finds reads arguments,
    Metadata.resolves_of_findMethod? names finds writes arguments⟩

omit names in
private theorem constructsBy_of_constructor? {host : LocatedType} {parameters : List String}
    {constructor : LocatedMethod} {declaring : TypeSig} (some : parameters ≠ [])
    (found : context.metadata.constructor? host parameters = .some constructor)
    (leads : host.definition.Constructs parameters →
      context.metadata.resolveSig? none declaring = .some host) :
    context.ConstructsBy host (constructor.methodRef.bindTo declaring) := by
  obtain ⟨member, listed, accepted⟩ := Metadata.findMethod?_spec found
  simp only [Bool.and_eq_true, decide_eq_true_eq] at accepted
  obtain ⟨constructs, takes⟩ := accepted
  have parameters' : (constructor.methodRef.bindTo declaring).parameters.map TypeSig.fullName =
      parameters := constructor.fullNames_parameters_methodRef.trans takes
  simp only [MethodDef.isConstructor, Bool.and_eq_true, decide_eq_true_eq] at constructs
  refine ⟨constructs.1, constructs.2, ?_, ?_, ?_⟩
  · intro none
    rw [none] at parameters'
    exact some parameters'.symm
  · rw [parameters']
    refine ⟨constructor.owner, member, constructor.definition, List.mem_of_getElem? listed, ?_, takes⟩
    simpa [MethodDef.isConstructor] using constructs
  · rw [parameters']
    exact leads

private theorem constructorBlock_links {mapping : LocatedType} {identifier fieldName : String}
    {arguments : List TypeSig} {code : List Instruction} {maxStack : UInt16}
    (found : context.mappingType = .ok mapping)
    (built : context.constructorBlock type property mapping identifier
      ⟨type.sig, fieldName, .instantiated mapping.typeRef false arguments⟩ = .ok (code, maxStack)) :
    ∀ instruction ∈ code, context.Links instruction := by
  obtain ⟨default, parameter, constructor, literal, -, constructs, rfl, -⟩ :=
    constructorBlock_eq_ok built
  have finds := finds_of_runtimeType names found
  have created := @constructsBy_of_constructor? context mapping _ constructor
    (.instantiated mapping.typeRef false arguments) (by simp) constructs fun _ => by
      rw [Metadata.resolveSig?_of_typeRef? rfl]
      exact Metadata.finds_iff.mp finds
  have pushed : ∀ instruction ∈ default.getD [], context.Links instruction := by
    cases default with
    | none => simp
    | some code =>
        obtain ⟨constant, pushes⟩ := defaultCode_eq_ok literal code rfl
        exact fun instruction member => links_of_method?
          ((Constant.literalForm_of_push? pushes).scalar instruction member).method?_eq_none
  simp only [List.forall_mem_append, List.forall_mem_cons]
  exact ⟨⟨⟨links_of_method? rfl, links_of_method? rfl, links_of_method? rfl, by simp⟩, pushed⟩,
    links_of_creates (.inl ⟨mapping, found, created⟩), links_of_method? rfl, by simp⟩

private theorem queryCode_links {wrapper : LocatedType} {constructor : LocatedMethod}
    (found : context.identifierType = .ok wrapper)
    (constructs : context.metadata.constructor? wrapper ["System.String"] = some constructor)
    (element : TypeSig) (identifiers : List String) :
    ∀ instruction ∈ queryCode element constructor.methodRef identifiers,
      context.Links instruction := by
  have finds := finds_of_runtimeType names found
  have created := @constructsBy_of_constructor? context wrapper _ constructor constructor.owner.sig
    (by simp) constructs fun ⟨method, declared, constructor, parameters⟩ => by
      rw [Metadata.owner_of_findMethod? constructs
        ⟨method, declared, by simp [constructor, parameters]⟩]
      exact finds
  have resolves := Metadata.resolves_of_findMethod? names finds constructs []
  have one : ∀ index identifier, ∀ instruction ∈
      storeIdentifier constructor.methodRef index identifier, context.Links instruction := by
    intro index identifier
    simp only [storeIdentifier, List.forall_mem_cons]
    exact ⟨links_of_method? rfl, links_of_method? (pushInt32_method? _), links_of_method? rfl,
      links_of_creates (.inr ⟨wrapper, found, created, resolves⟩), links_of_method? rfl, by simp⟩
  have stored : ∀ instruction ∈ (identifiers.mapIdx (storeIdentifier constructor.methodRef)).flatten,
      context.Links instruction := by
    intro instruction member
    obtain ⟨code, listed, member⟩ := List.mem_flatten.mp member
    obtain ⟨index, inside, rfl⟩ := List.mem_mapIdx.mp listed
    exact one index _ instruction member
  simp only [queryCode, List.forall_mem_append, List.forall_mem_cons]
  exact ⟨⟨⟨links_of_method? (pushInt32_method? _), links_of_method? rfl, by simp⟩, stored⟩,
    links_of_method? rfl, links_of_method? rfl, links_of_method? rfl, links_of_method? rfl, by simp⟩

end Templates

end WeavingContext

/-! ## Edits -/

/-- What holds of all instructions that an edit brings in. -/
def Edit.Brings (holds : Instruction → Prop) : Edit → Prop
  | .replaceBody _ body => ∀ instruction ∈ body.instructions, holds instruction
  | .prependToConstructor _ block _ => ∀ instruction ∈ block, holds instruction
  | .addField _ | .removeField _ => True
  | .addMethod method => ∀ body ∈ method.body, ∀ instruction ∈ body.instructions, holds instruction

/-- The code that a task brings in links. -/
theorem Task.links_of_execute {context : WeavingContext} (names : context.metadata.resolver.OwnNames)
    (distinct : (context.metadata.target.types.map TypeDef.fullName).Nodup) {task : Task}
    {edit : TypeEdit} (executed : task.execute context = .ok edit) :
    ∀ change ∈ edit.edits, change.Brings context.Links := by
  have found : ∀ {index : Nat} {type : LocatedType}, context.targetType index = .ok type →
      context.metadata.Finds type :=
    fun located => Metadata.finds_of_targetType? distinct (orError_eq_ok.mp located)
  cases task with
  | mappedProperty typeIndex propertyIndex =>
      rcases WeavingContext.mapProperty_eq_ok executed with rfl | ⟨type, property, identifier,
        mapping, located, -, -, -, -, mapped, -, routed⟩
      · exact fun change member => absurd member List.not_mem_nil
      · obtain ⟨api, code, maxStack, setterEdits, apis, built, setters, -, rfl⟩ :=
          WeavingContext.routeThrough_eq_ok routed
        have accessible := WeavingContext.mappingApi_links names (found located) apis
          [property.propertyType]
        intro change member
        simp only [List.mem_append, List.mem_cons, List.mem_map] at member
        obtain (((rfl | ⟨getter, _, rfl⟩) | member) | ⟨name, _, rfl⟩) | ⟨constructor, _, rfl⟩ := member
        · trivial
        · exact WeavingContext.mappedGetter_links accessible.1
        · obtain ⟨setter, body, _, rfl, made⟩ := setters change member
          exact WeavingContext.setter_links names (found located) made accessible
        · trivial
        · exact WeavingContext.constructorBlock_links names mapped built
  | changeNotification typeIndex propertyIndex =>
      rcases WeavingContext.notifyChanges_eq_ok executed with rfl | ⟨type, property, setter, field,
        body, located, -, -, -, -, made, rfl⟩
      · exact fun change member => absurd member List.not_mem_nil
      · intro change member
        obtain rfl := List.mem_singleton.mp member
        exact WeavingContext.setter_links names (found located) made trivial
  | typeHierarchy typeIndex =>
      rcases WeavingContext.overrideQuery_eq_ok executed with rfl | ⟨type, identifiers, declaration,
        wrapper, constructor, -, -, -, wraps, constructs, rfl⟩
      · exact fun change member => absurd member List.not_mem_nil
      · intro change member
        obtain rfl := List.mem_singleton.mp member
        intro body has
        obtain rfl := Option.some.inj has
        exact WeavingContext.queryCode_links names wraps constructs wrapper.sig identifiers.flatten

end PropertyWeaver
