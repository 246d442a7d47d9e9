import PropertyWeaver.Proofs.Weaving.RoutedProperties

/-!
# Initialised constructors

A pass routes some of the mapped properties of a type: it injects their mapping fields, makes their
accessors work on these, and puts one prelude for each of them in front of every constructor, in the order
of the properties. The accessors of other mapped properties stay as they are, and so do methods that are
neither accessors nor constructors with a body.
-/

set_option autoImplicit false

namespace PropertyWeaver

variable {resolver : Resolver} {configuration : Configuration}

def MethodBody.Mentions (body : MethodBody) (field : FieldRef) : Prop :=
  ∃ instruction ∈ body.instructions, instruction.field? = some field

/-- The mapping field that a prelude initialises, as its type declares it. -/
def Prelude.mappingField (block : Prelude) : FieldDef :=
  ⟨block.field.name, FieldFlag.privateAccess, block.field.fieldType, []⟩

/-- What a pass makes of a type in which no accessor is a constructor. There is one block for each property
that it routes: for each mapping field that it injects, and for each property whose accessors it makes
work on such a field. -/
structure TypeDef.Initialised (context : WeavingContext) (blocks : List Prelude)
    (before after : TypeDef) : Prop where
  order : (blocks.map Prelude.index).Sublist (before.mappedProperties context.configuration)
  initialises : ∀ block ∈ blocks, block.Initialises context ⟨before, none⟩
  fields : ∃ removed, after.fields = before.fieldsWith removed (blocks.map Prelude.mappingField)
  accessors : ∀ block ∈ blocks, ∀ index ∈ block.property.accessors,
    before.ServesOnly index block.index →
    ∃ method body, before.methods[index]? = some method ∧ body.Mentions block.field ∧
      after.methods[index]? = some { method with body := some body }
  constructors : ∃ shift : UInt64 → UInt64,
    (∀ target : UInt64, target.toNat + (blocks.flatMap Prelude.code).length < 2 ^ 64 →
      (shift target).toNat = target.toNat + (blocks.flatMap Prelude.code).length) ∧
    ∀ (index : Nat) (method : MethodDef) (body : MethodBody), before.methods[index]? = some method →
      method.isConstructor = true → method.body = some body →
      after.methods[index]? = some { method with body := some (body.behind blocks shift) }
  others : ∀ (index : Nat) (method : MethodDef), before.methods[index]? = some method →
    (method.isConstructor = true → method.body = none) →
    (∀ written ∈ blocks.map Prelude.index ++ before.notifyingProperties context.configuration,
      ∀ property, before.properties[written]? = some property → index ∉ property.accessors) →
    after.methods[index]? = some method

/-- Of the bodies that replace one another the last one stays. -/
theorem MethodState.exists_body_after {holds : MethodBody → Prop} {slot : MethodState} {index : Nat}
    {edits : List Edit}
    (replaces : ∀ change ∈ edits, change.target? = some index →
      ∃ body, change = .replaceBody index body ∧ holds body)
    (written : ∃ change ∈ edits, change.target? = some index) :
    ∃ body, holds body ∧ (slot.after index edits).method = { slot.method with body := some body } := by
  induction edits using List.reverseRecOn with
  | nil =>
      obtain ⟨change, member, -⟩ := written
      cases member
  | append_singleton edits last hypothesis =>
      obtain ⟨earlier, here⟩ := List.forall_mem_append.mp replaces
      have same : (slot.after index edits).method.header = slot.method.header := header_after edits
      rw [after_append, after_cons, after_nil]
      by_cases target : last.target? = some index
      · obtain ⟨body, rfl, good⟩ := here last List.mem_cons_self target
        refine ⟨body, good, ?_⟩
        rw [Edit.advance, if_pos rfl]
        exact congrArg (fun method : MethodDef => { method with body := some body }) same
      · rw [Edit.advance_of_target? target]
        obtain ⟨change, member, targets⟩ := written
        rcases List.mem_append.mp member with listed | same
        · exact hypothesis earlier ⟨change, listed, targets⟩
        · obtain rfl := List.mem_singleton.mp same
          exact absurd targets target

namespace WeavingContext.Routes

variable {context : WeavingContext} {typeIndex propertyIndex : Nat} {type mapping : LocatedType}
  {property : PropertyDef} {edit : TypeEdit}
  (routes : context.Routes typeIndex propertyIndex type property mapping edit)

include routes

private theorem mentions {change : Edit} {accessor : Nat} (member : change ∈ edit.edits)
    (target : change.target? = some accessor) (ordinary : accessor ∉ type.definition.constructors) :
    ∃ body, change = .replaceBody accessor body ∧
      body.Mentions ⟨type.sig, context.configuration.mappingFieldName property.name,
        .instantiated mapping.typeRef false [property.propertyType]⟩ := by
  obtain ⟨identifier, routed⟩ := routes.routed
  obtain ⟨api, code, maxStack, setterEdits, -, -, setters, -, rfl⟩ := routeThrough_eq_ok routed
  simp only [List.mem_append, List.mem_cons, List.mem_map] at member
  obtain (((rfl | ⟨getter, -, rfl⟩) | member) | ⟨_, _, rfl⟩) | ⟨constructor, constructs, rfl⟩ := member
  · cases target
  · obtain rfl := Option.some.inj target
    exact ⟨_, rfl, ⟨.ldfld, .field _⟩, by simp [mappedGetter, MethodBody.ofCode], rfl⟩
  · obtain ⟨setter, body, -, rfl, made⟩ := setters change member
    obtain rfl := Option.some.inj target
    obtain ⟨equality, notify, -, -, rfl⟩ := setter_eq_ok.mp made
    exact ⟨_, rfl, ⟨.ldfld, .field _⟩, by simp [setterCode, MethodBody.ofCode, ValueSource.load], rfl⟩
  · cases target
  · obtain rfl := Option.some.inj target
    exact absurd constructs ordinary

private theorem exists_replaces {accessor : Nat} (serves : accessor ∈ property.accessors) :
    ∃ change ∈ edit.edits, change.target? = some accessor := by
  obtain ⟨identifier, routed⟩ := routes.routed
  obtain ⟨api, code, maxStack, setterEdits, -, -, setters, count, rfl⟩ := routeThrough_eq_ok routed
  simp only [List.mem_append, List.mem_cons, List.mem_map]
  rcases List.mem_append.mp serves with getter | setter
  · exact ⟨_, .inl (.inl (.inl (.inr ⟨accessor, getter, rfl⟩))), rfl⟩
  · rw [Option.mem_toList.mp setter] at count
    obtain ⟨setterEdit, rfl⟩ := List.length_eq_one_iff.mp count
    obtain ⟨setter', body, same, rfl, -⟩ := setters setterEdit List.mem_cons_self
    obtain rfl := Option.some.inj ((Option.mem_toList.mp setter).symm.trans same)
    exact ⟨_, .inl (.inl (.inr List.mem_cons_self)), rfl⟩

end WeavingContext.Routes

namespace WeavingState

/-- What holds between two tasks for the mapped properties of a type: there is one block for each property
that has been routed, and the blocks are all that has happened to methods that are no accessors. -/
structure Preluding (resolver : Resolver) (configuration : Configuration) (module : Module)
    (original : TypeDef) (type : Nat) (earlier : List WovenMember) (removed : List String)
    (pending : List Nat) (blocks : List Prelude) (state : WeavingState) : Prop
    extends Injecting resolver configuration module original type removed (blocks.map Prelude.index)
      pending (blocks.map Prelude.mappingField) state where
  initialises : ∀ block ∈ blocks,
    block.Initialises (.ofModule module resolver configuration) ⟨original, none⟩
  straight : ∀ block ∈ blocks, ∀ instruction ∈ block.code, instruction.target? = none
  accessors : ∀ block ∈ blocks, ∀ index ∈ block.property.accessors,
    original.ServesOnly index block.index →
    ∃ method body, original.methods[index]? = some method ∧ body.Mentions block.field ∧
      state.module.methodAt? type index = some { method with body := some body }
  methods : ∀ index method, original.methods[index]? = some method →
    (∀ block ∈ blocks, index ∉ block.property.accessors) →
    state.methodState? type index = some (MethodState.after ⟨method, 0⟩ index
      (if method.isConstructor then blocks.map (Prelude.edit index) else []))
  members : state.report.members.filter WovenMember.isRouted =
    earlier ++ blocks.map Prelude.member

variable {module : Module} {original definition : TypeDef} {type index : Nat}
  {earlier : List WovenMember} {removed : List String} {pending : List Nat} {blocks : List Prelude}
  {state : WeavingState} {property : PropertyDef}

private theorem Preluding.skip
    (preluding : Preluding resolver configuration module original type earlier removed
      (index :: pending) blocks state) :
    Preluding resolver configuration module original type earlier removed pending blocks state :=
  { preluding with toInjecting := preluding.toInjecting.skip }

section Apply

variable
  (preluding : Preluding resolver configuration module original type earlier removed
    (index :: pending) blocks state)
  (found : state.module.types[type]? = some definition)
  (listed : original.properties[index]? = some property)
  {mapping : LocatedType} {edit : TypeEdit}
  (routes : (WeavingContext.ofModule state.module resolver configuration).Routes type index
    ⟨definition, none⟩ property mapping edit)

include preluding found listed routes

private theorem Preluding.exists_prelude :
    ∃ block : Prelude, block.index = index ∧ block.property = property ∧
      block.Initialises (.ofModule module resolver configuration) ⟨original, none⟩ ∧
      block.field = ⟨LocatedType.sig ⟨definition, none⟩, configuration.mappingFieldName property.name,
        .instantiated mapping.typeRef false [property.propertyType]⟩ ∧
      (∀ instruction ∈ block.code, instruction.target? = none) ∧
      edit.woven = some block.member ∧
      ∀ method slot, method ∉ property.accessors →
        MethodState.after slot method edit.edits =
          if method ∈ definition.constructors then (block.edit method).advance method slot
          else slot := by
  obtain ⟨header, -⟩ := preluding.types_extend found
  have declared : definition.properties[index]? = some property := by
    rw [TypeDef.eq_of_header header TypeDef.properties fun _ => rfl]
    exact listed
  rcases WeavingContext.mapProperty_eq_ok routes.executed with nothing | ⟨type', property', identifier,
    mapping', located, there, identified, -, -, hosts, -, routed⟩
  · exact absurd (congrArg TypeEdit.edits nothing) routes.edits_ne_nil
  obtain rfl := Except.ok.inj (routes.located.symm.trans located)
  obtain rfl := Option.some.inj (declared.symm.trans (WeavingContext.propertyOf_eq_ok.mp there))
  obtain rfl := Except.ok.inj (routes.hosts.symm.trans hosts)
  obtain ⟨block, same, same', initialises, straight, woven, prepends⟩ :=
    WeavingContext.routeThrough_prelude there identified hosts routed
  obtain ⟨mapping', parameter, hosts', -, field, -⟩ := initialises.mapping
  obtain rfl := Except.ok.inj (hosts.symm.trans hosts')
  rw [same'] at field
  have alike : (WeavingContext.ofModule state.module resolver configuration).metadata.Alike
      (WeavingContext.ofModule module resolver configuration).metadata :=
    ⟨preluding.extended.name, preluding.extended.headers, rfl, rfl⟩
  have renewed : LocatedType.header ⟨definition, none⟩ = LocatedType.header ⟨original, none⟩ :=
    congrArg (LocatedType.mk · none) header
  exact ⟨block, same, same', initialises.of_alike alike rfl renewed, field, straight, woven, prepends⟩

omit listed in
private theorem Preluding.replaces {accessor : Nat} (serves : accessor ∈ property.accessors)
    (ordinary : accessor ∉ original.constructors) :
    ∃ method body, original.methods[accessor]? = some method ∧
      body.Mentions ⟨LocatedType.sig ⟨definition, none⟩, configuration.mappingFieldName property.name,
        .instantiated mapping.typeRef false [property.propertyType]⟩ ∧
      (state.apply edit).module.methodAt? type accessor = some { method with body := some body } := by
  obtain ⟨-, headers⟩ := preluding.types_extend found
  have own : edit.type = type := routes.type_eq
  subst own
  obtain ⟨method, there⟩ : ∃ method, definition.methods[accessor]? = some method := by
    rcases List.mem_append.mp serves with getter | setter
    · obtain ⟨method, there, -⟩ := WeavingContext.checkAccessor_eq_ok.mp
        (routes.getters accessor (Option.mem_toList.mp getter))
      exact ⟨method, there⟩
    · obtain ⟨method, there, -⟩ := WeavingContext.checkAccessor_eq_ok.mp
        (routes.setters accessor (Option.mem_toList.mp setter))
      exact ⟨method, there⟩
  obtain ⟨method', there', same⟩ := MethodDef.exists_of_headers headers.symm there
  rw [← TypeDef.constructors_of_headers headers] at ordinary
  have stored : state.methodState? edit.type accessor =
      some ⟨method, state.cursors (edit.type, accessor)⟩ :=
    methodState?_eq_some.mpr ⟨methodAt?_eq_some.mpr ⟨definition, found, there⟩, rfl⟩
  obtain ⟨body, mentions, replaced⟩ := MethodState.exists_body_after
    (fun change member target => routes.mentions member target ordinary)
    (routes.exists_replaces serves)
  refine ⟨method', body, there', mentions, ?_⟩
  refine (methodState?_eq_some.mp (methodState?_apply stored)).1.trans ?_
  rw [replaced]
  exact congrArg (fun method : MethodDef => some { method with body := some body }) same.symm

private theorem Preluding.apply
    (ordinary : ∀ property ∈ original.properties, ∀ accessor ∈ property.accessors,
      accessor ∉ original.constructors) :
    ∃ names block, Preluding resolver configuration module original type earlier (removed ++ names)
      pending (blocks ++ [block]) (state.apply edit) := by
  obtain ⟨names, injecting⟩ := preluding.toInjecting.apply found listed routes
  obtain ⟨block, rfl, rfl, initialises, field, straight, woven, prepends⟩ :=
    preluding.exists_prelude found listed routes
  have injects : block.mappingField = configuration.mappingField mapping.typeRef block.property := by
    rw [Prelude.mappingField, field]
    rfl
  obtain ⟨-, headers⟩ := preluding.types_extend found
  have own : edit.type = type := routes.type_eq
  refine ⟨names, block, {
    toInjecting := by simpa [injects] using injecting
    initialises := List.forall_mem_append.mpr ⟨preluding.initialises, by simpa using initialises⟩
    straight := List.forall_mem_append.mpr ⟨preluding.straight, by simpa using straight⟩
    accessors := List.forall_mem_append.mpr ⟨fun other member index serves only => ?_, ?_⟩
    methods := fun index method there absent => ?_
    members := ?_ }⟩
  · obtain ⟨method, body, there, mentions, stored⟩ :=
      preluding.accessors other member index serves only
    refine ⟨method, body, there, mentions, preluding.methodAt?_apply found routes stored ?_⟩
    have before := preluding.before_index other.index (List.mem_map_of_mem member)
    refine only.not_writes (ordinary other.property ?_ index serves) fun same => ?_
    · exact List.mem_of_getElem? (preluding.initialises other member).listed
    · exact absurd (Option.some.inj same) (Nat.ne_of_gt before)
  · refine List.forall_mem_singleton.mpr fun index serves _ => ?_
    rw [field]
    exact preluding.replaces found routes serves
      (ordinary block.property (List.mem_of_getElem? listed) index serves)
  · obtain ⟨earlier, here⟩ := List.forall_mem_append.mp absent
    have slot := preluding.methods index method there earlier
    rw [← own] at slot ⊢
    rw [methodState?_apply slot, prepends index _ (here block List.mem_cons_self),
      TypeDef.constructors_of_headers headers]
    congr 1
    by_cases constructs : method.isConstructor = true
    · rw [if_pos (WeavingContext.mem_constructors.mpr ⟨method, there, constructs⟩), if_pos constructs,
        if_pos constructs, List.map_append, MethodState.after_append]
      rfl
    · have ordinary : index ∉ original.constructors := fun member => by
        obtain ⟨method', there', constructs'⟩ := WeavingContext.mem_constructors.mp member
        obtain rfl := Option.some.inj (there.symm.trans there')
        exact constructs constructs'
      rw [if_neg ordinary, if_neg constructs, if_neg constructs]
  · rw [members_apply, List.filter_append, preluding.members, woven, List.map_append, List.append_assoc]
    rfl

end Apply

private theorem members_runTask {task : Task} {after : WeavingState}
    (unrouted : task.routed? = none) (ran : runTask resolver configuration state task = .ok after) :
    after.report.members.filter WovenMember.isRouted =
      state.report.members.filter WovenMember.isRouted := by
  rcases runTask_eq_ok ran with rfl | ⟨edit, executed, rfl⟩
  · rfl
  have others : edit.woven.toList.filter WovenMember.isRouted = [] := by
    cases task with
    | mappedProperty type property => cases unrouted
    | changeNotification type property =>
        rcases WeavingContext.notifyChanges_eq_ok executed with rfl | ⟨_, _, _, _, _, -, -, -, -, -, -,
          rfl⟩
        · rfl
        · rfl
    | typeHierarchy type =>
        rcases WeavingContext.overrideQuery_eq_ok executed with rfl | ⟨_, _, _, _, _, -, -, -, -, -, rfl⟩
        · rfl
        · rfl
  rw [members_apply, List.filter_append, others, List.append_nil]

private theorem members_foldlM {tasks : List Task} {after : WeavingState}
    (unrouted : ∀ task ∈ tasks, task.routed? = none)
    (ran : tasks.foldlM (runTask resolver configuration) state = .ok after) :
    after.report.members.filter WovenMember.isRouted =
      state.report.members.filter WovenMember.isRouted :=
  (Outcome.foldlM_invariant (fun rest next => (∀ task ∈ rest, task.routed? = none) ∧
      next.report.members.filter WovenMember.isRouted =
        state.report.members.filter WovenMember.isRouted)
    (fun task rest next after ⟨unrouted, same⟩ executed => by
      obtain ⟨here, others⟩ := List.forall_mem_cons.mp unrouted
      exact ⟨others, (members_runTask here executed).trans same⟩)
    ⟨unrouted, rfl⟩ ran).2

private theorem members_behind {notified after : WeavingState}
    (second : ((original.notifyingProperties configuration).map (Task.changeNotification type)).foldlM
      (runTask resolver configuration) state = .ok notified)
    (last : (original.queryTasks configuration type).foldlM (runTask resolver configuration) notified =
      .ok after) :
    after.report.members.filter WovenMember.isRouted =
      state.report.members.filter WovenMember.isRouted := by
  have queries := members_foldlM (fun task planned => ?_) last
  have notifications := members_foldlM (fun task planned => ?_) second
  · exact queries.trans notifications
  · obtain ⟨_, -, rfl⟩ := List.mem_map.mp planned
    rfl
  · rw [TypeDef.mem_queryTasks planned]
    rfl

end WeavingState

namespace Visit

variable {module woven : Module} {type : Nat} {original : TypeDef} {before after : WeavingState}
  (visit : Visit resolver configuration module woven type original before after)
  (ordinary : ∀ property ∈ original.properties, ∀ accessor ∈ property.accessors,
    accessor ∉ original.constructors)

include visit ordinary

private theorem preluding : ∃ removed blocks, ∃ mapped notified : WeavingState,
    WeavingState.Preluding resolver configuration module original type
      (before.report.members.filter WovenMember.isRouted) removed [] blocks mapped ∧
    ((original.notifyingProperties configuration).map (Task.changeNotification type)).foldlM
      (WeavingState.runTask resolver configuration) mapped = .ok notified ∧
    (original.queryTasks configuration type).foldlM (WeavingState.runTask resolver configuration)
      notified = .ok after := by
  obtain ⟨mapped, notified, first, second, last⟩ := WeavingState.phases_of_tasks visit.ran
  have start : WeavingState.Preluding resolver configuration module original type
      (before.report.members.filter WovenMember.isRouted) []
      (original.mappedProperties configuration) [] before :=
    { visit.injecting with
      initialises := by simp
      straight := by simp
      accessors := by simp
      methods := fun index method listed _ => by simpa using visit.methodState? listed
      members := by simp }
  obtain ⟨removed, blocks, preluding⟩ := WeavingState.foldlM_mappedProperties
    (fun pending state => ∃ removed blocks, WeavingState.Preluding resolver configuration module original
      type (before.report.members.filter WovenMember.isRouted) removed pending blocks state)
    (fun _ _ ⟨_, _, preluding⟩ => preluding.there)
    (fun _ _ _ _ _ ⟨_, _, preluding⟩ _ _ _ => ⟨_, _, preluding.skip⟩)
    (fun _ _ _ _ _ _ _ ⟨_, _, preluding⟩ found listed routes => by
      obtain ⟨names, block, applied⟩ := preluding.apply found listed routes ordinary
      exact ⟨_, _, applied⟩)
    ⟨[], [], start⟩ first
  exact ⟨removed, blocks, mapped, notified, preluding, second, last⟩

/-- What a visit makes of a type, and what it reports of it. -/
theorem initialised : ∃ blocks definition, woven.types[type]? = some definition ∧
    original.Initialised (.ofModule module resolver configuration) blocks definition ∧
    after.report.members.filter WovenMember.isRouted =
      before.report.members.filter WovenMember.isRouted ++ blocks.map Prelude.member := by
  obtain ⟨removed, blocks, mapped, notified, preluding, second, last⟩ := visit.preluding ordinary
  obtain ⟨methods, found, headers⟩ := preluding.types
  obtain ⟨methods', found', headers'⟩ := WeavingState.types_notifying found second
  obtain ⟨added, found'', -⟩ := WeavingState.types_queryTasks found' last
  have order := preluding.order
  rw [List.append_nil] at order
  have kept : ∀ {index : Nat} {method : MethodDef},
      (∀ planned ∈ original.notifyingProperties configuration, ∀ property,
        original.properties[planned]? = some property → index ∉ property.accessors) →
      mapped.module.methodAt? type index = some method →
      (methods' ++ added)[index]? = some method := by
    intro index method spared stored
    have there := preluding.methodAt?_of_notifying spared stored second last
    rw [Module.methodAt?, found'', Option.bind_some] at there
    exact there
  have untouched : ∀ {index : Nat} {method : MethodDef}, original.methods[index]? = some method →
      (∀ block ∈ blocks, index ∉ block.property.accessors) →
      mapped.module.methodAt? type index = some (MethodState.after ⟨method, 0⟩ index
        (if method.isConstructor then blocks.map (Prelude.edit index) else [])).method :=
    fun listed absent => (WeavingState.methodState?_eq_some.mp (preluding.methods _ _ listed absent)).1
  refine ⟨blocks, _, visit.stays.trans found'', {
    order := order
    initialises := preluding.initialises
    fields := ⟨removed, rfl⟩
    accessors := fun block member index serves only => ?_
    constructors := ⟨Prelude.shiftBehind 0 blocks,
      fun target fits => Prelude.toNat_shiftBehind (Nat.zero_le _) fits,
      fun index method body listed constructs has => ?_⟩
    others := fun index method listed bodiless absent => ?_ }, ?_⟩
  · obtain ⟨method, body, there, mentions, stored⟩ :=
      preluding.accessors block member index serves only
    refine ⟨method, body, there, mentions, kept (fun planned notifies property listed serves' => ?_) stored⟩
    obtain rfl := only planned property listed serves'
    obtain ⟨property', listed', maps⟩ :=
      TypeDef.mem_mappedProperties.mp (order.subset (List.mem_map_of_mem member))
    rw [TypeDef.not_maps_of_notifies notifies listed'] at maps
    cases maps
  · have constructor := WeavingContext.mem_constructors.mpr ⟨method, listed, constructs⟩
    have absent : ∀ property ∈ original.properties, index ∉ property.accessors :=
      fun property declared serves => ordinary property declared index serves constructor
    have stored := untouched listed fun block member =>
      absent block.property (List.mem_of_getElem? (preluding.initialises block member).listed)
    rw [if_pos constructs, MethodState.after_preludes_of_body has preluding.straight] at stored
    exact kept (fun _ _ property there => absent property (List.mem_of_getElem? there)) stored
  · obtain ⟨routed, notifying⟩ := List.forall_mem_append.mp absent
    have stored := untouched listed fun block member => routed block.index (List.mem_map_of_mem member)
      block.property (preluding.initialises block member).listed
    refine kept notifying (stored.trans ?_)
    split
    · next constructs =>
      refine congrArg (some ∘ MethodState.method) (MethodState.after_eq_self fun change member => ?_)
      obtain ⟨block, -, rfl⟩ := List.mem_map.mp member
      simp [Prelude.edit, Edit.advance, bodiless constructs]
    · rfl
  · rw [WeavingState.members_behind second last, preluding.members]

end Visit

namespace WeavingState

variable {module : Module} {state after : WeavingState}

/-- Visits to types that have waited, one after the other. -/
theorem Waiting.initialised {waiting : List Nat} (waits : Waiting module waiting state)
    (extended : module.Extends state.module)
    (inside : ∀ type ∈ waiting, type < module.types.length)
    (ordinary : ∀ original ∈ module.types, ∀ property ∈ original.properties,
      ∀ accessor ∈ property.accessors, accessor ∉ original.constructors)
    (ran : waiting.foldlM (WeavingState.weaveType resolver configuration) state = .ok after) :
    ∃ preludes : Nat → List Prelude,
      after.report.members.filter WovenMember.isRouted =
        state.report.members.filter WovenMember.isRouted ++
          waiting.flatMap (fun type => (preludes type).map Prelude.member) ∧
      ∀ type ∈ waiting, ∀ original, module.types[type]? = some original →
        ∃ definition, after.module.types[type]? = some definition ∧
          original.Initialised (.ofModule module resolver configuration) (preludes type) definition := by
  induction waiting generalizing state with
  | nil =>
      obtain rfl := Except.ok.inj ran
      exact ⟨fun _ => [], by simp, by simp⟩
  | cons type waiting hypothesis =>
      rw [List.foldlM_cons] at ran
      obtain ⟨between, visited, rest⟩ := Outcome.bind_eq_ok.mp ran
      obtain ⟨here, others⟩ := List.forall_mem_cons.mp inside
      obtain ⟨fresh, -⟩ := List.nodup_cons.mp waits.distinct
      have found := List.getElem?_eq_getElem here
      have visit := waits.visit extended found visited
      obtain ⟨blocks, definition, woven, initialised, reported⟩ :=
        visit.initialised (ordinary _ (List.getElem_mem here))
      obtain ⟨preludes, members, initialises⟩ :=
        hypothesis (waits.weaveType visited) (extended.trans visit.extended) others rest
      have elsewhere : ∀ other ∈ waiting,
          Function.update preludes type blocks other = preludes other := by
        intro other member
        have different : other ≠ type := fun same => fresh (same ▸ member)
        exact Function.update_of_ne different ..
      refine ⟨Function.update preludes type blocks, ?_, List.forall_mem_cons.mpr ⟨?_, ?_⟩⟩
      · rw [members, reported, List.flatMap_cons, Function.update_self, List.append_assoc]
        congr 2
        refine List.flatMap_congr fun other member => ?_
        rw [elsewhere other member]
      · intro original found'
        obtain rfl := Option.some.inj (found.symm.trans found')
        rw [Function.update_self]
        exact ⟨definition, (types_of_visits rest fresh).trans woven, initialised⟩
      · intro other member
        rw [elsewhere other member]
        exact initialises other member

end WeavingState

namespace Module

variable {module woven : Module} {report : WeaveReport}

/-- Weaving puts the preludes of the properties that it routes in front of every constructor, in the
order of the properties. A target moves by the length of the preludes, as far as the sum is a 64-bit
word. Exactly the properties with a prelude get a mapping field and other accessors. -/
theorem weave_initialises (fresh : module.isInstrumented = false)
    (accessors : ∀ type ∈ module.types, ∀ property ∈ type.properties,
      ∀ index ∈ property.accessors, ∀ method, type.methods[index]? = some method →
        method.isConstructor = false)
    (weaves : module.weave resolver configuration = .ok (woven, report)) :
    ∃ preludes : Nat → List Prelude,
      report.members.filter WovenMember.isRouted =
        module.baseFirstOrder.flatMap (fun typeIndex => (preludes typeIndex).map Prelude.member) ∧
      ∀ (typeIndex : Nat) (type : TypeDef), module.types[typeIndex]? = some type →
        ∃ type', woven.types[typeIndex]? = some type' ∧
          type.Initialised (.ofModule module resolver configuration) (preludes typeIndex) type' := by
  rcases weave_eq_ok weaves with ⟨instrumented, -⟩ | ⟨-, state, ran, rfl, rfl⟩
  · rw [fresh] at instrumented
    cases instrumented
  have ordinary : ∀ type ∈ module.types, ∀ property ∈ type.properties,
      ∀ accessor ∈ property.accessors, accessor ∉ type.constructors := by
    intro type member property declared accessor serves constructs
    obtain ⟨method, listed, constructs⟩ := WeavingContext.mem_constructors.mp constructs
    rw [accessors type member property declared accessor serves method listed] at constructs
    cases constructs
  obtain ⟨preludes, members, initialised⟩ := (WeavingState.waiting_initial module).initialised
    (.refl module) (fun _ member => mem_baseFirstOrder.mp member) ordinary ran
  refine ⟨preludes, members, fun typeIndex type found => ?_⟩
  exact initialised typeIndex
    (mem_baseFirstOrder.mpr (List.getElem?_eq_some_iff.mp found).1) type found

/-- The constructor of the sample with its prelude. Its branch is to its first own instruction. -/
def initialisedBody : MethodBody :=
  let mapping : TypeSig := .instantiated
    ⟨some "Semweave.Runtime", "Semweave.Mapping", "PropertyMapping`1"⟩ false [.builtin .int32]
  .ofCode 3
    [Opcode.ldarg0.plain, .pushString "Count", .pushString "urn:count",
     ⟨.newobj, .method ⟨mapping, ".ctor", true, .builtin .void, [.builtin .string, .builtin .string], []⟩⟩,
     ⟨.stfld, .field ⟨.classType ⟨none, "Demo", "Counter"⟩, "CountMapping", mapping⟩⟩,
     Opcode.ldarg1.plain, ⟨.brtrue, .branch 5⟩, Opcode.ret.plain]

theorem weave_initialises_sampleModule :
    ∃ woven report, ∃ preludes : Nat → List Prelude, ∃ type', sampleModule.weave sampleResolver {} = .ok (woven, report) ∧
      report.members.filter WovenMember.isRouted =
        sampleModule.baseFirstOrder.flatMap (fun index => (preludes index).map Prelude.member) ∧
      woven.types[0]? = some type' ∧
      sampleCounter.Initialised (.ofModule sampleModule sampleResolver {}) (preludes 0) type' ∧
      type'.methods[2]?.bind (·.body) = some initialisedBody := by
  have computed : ((sampleModule.weave sampleResolver {}).toOption.bind fun result =>
      (result.1.types[0]?.bind (·.methods[2]?)).bind (·.body)) = some initialisedBody := by decide +kernel
  obtain ⟨⟨woven, report⟩, weaves, body⟩ := Option.bind_eq_some_iff.mp computed
  have outcome := Outcome.toOption_eq_some.mp weaves
  obtain ⟨preludes, members, initialised⟩ :=
    weave_initialises (by decide) weavable_sampleModule.accessors outcome
  obtain ⟨type', found, initialised⟩ := initialised 0 sampleCounter rfl
  rw [found] at body
  exact ⟨woven, report, preludes, type', outcome, members, found, initialised, body⟩

/-! Two preludes around the last 64-bit word: the first one wraps the target to an index inside
itself, and the second one is put in behind that index. -/

def wrappingCode : List Instruction :=
  [Opcode.ret.plain, ⟨.br, .branch 18446744073709551615⟩]

def wrappingModule : Module :=
  sample "App" [{ sampleCounter with
    methods :=
      [{ sampleMethod "get_Count" (.builtin .int32) [] none with
          flags := MethodFlag.compilerControlled },
       { sampleMethod "get_Size" (.builtin .int32) [] none with
          flags := MethodFlag.compilerControlled },
       sampleMethod MethodDef.constructorName (.builtin .void) [] (some (.ofCode 1 wrappingCode))]
    properties := [{ sampleCount with setter := none }, sampleSize] }]

/-- A target near the last word does not move by the length of all preludes. -/
theorem weave_loses_wrapping_target :
    ∃ woven report method body, wrappingModule.weave sampleResolver {} = .ok (woven, report) ∧
      wrappingModule.isInstrumented = false ∧
      (∀ type ∈ wrappingModule.types, ∀ property ∈ type.properties, ∀ index ∈ property.accessors,
        ∀ method ∈ type.methods[index]?, method.isConstructor = false) ∧
      woven.methodAt? 0 2 = some method ∧ method.body = some body ∧
      ∀ front : List Instruction, body.instructions ≠
        front ++ wrappingCode.map (Instruction.mapTarget (· + UInt64.ofNat front.length)) := by
  have computed : (((wrappingModule.weave sampleResolver {}).toOption.bind fun result =>
      (result.1.methodAt? 0 2).bind (·.body)).map fun body =>
        (body.instructions.length, body.instructions.getLast?)) =
      some (12, some ⟨.br, .branch 4⟩) := by decide +kernel
  obtain ⟨body, found, same⟩ := Option.map_eq_some_iff.mp computed
  obtain ⟨⟨woven, report⟩, weaves, stored⟩ := Option.bind_eq_some_iff.mp found
  obtain ⟨method, listed, has⟩ := Option.bind_eq_some_iff.mp stored
  obtain ⟨length, last⟩ := Prod.mk.inj same
  refine ⟨woven, report, method, body, Outcome.toOption_eq_some.mp weaves, by decide, by decide,
    listed, has, ?_⟩
  intro front split
  have size : front.length = 10 := by
    rw [split, List.length_append] at length
    simpa [wrappingCode] using length
  rw [split, size] at last
  simp [wrappingCode, Instruction.mapTarget] at last

end Module

end PropertyWeaver
