import PropertyWeaver.Proofs.Weaving.Planning
import PropertyWeaver.Proofs.Weaving.Queries
import PropertyWeaver.Proofs.Weaving.Replay
import PropertyWeaver.Proofs.Weaving.VerifiedBodies

/-!
# Settled types

A type that has been visited is settled: its tasks, planned for the original type, would write the
setters that are there and do nothing else. It stays settled while other types are visited.
-/

set_option autoImplicit false

namespace PropertyWeaver

variable {resolver : Resolver} {configuration : Configuration}

/-- The task for the query of a type, if it is planned. -/
def TypeDef.queryTasks (configuration : Configuration) (definition : TypeDef) (type : Nat) :
    List Task :=
  if configuration.requests definition.attributes .typeIdentifiers ||
      !(definition.mappedProperties configuration).isEmpty then
    [.typeHierarchy type]
  else []

/-- The tasks for a type, in the order in which they run. -/
def TypeDef.tasks (configuration : Configuration) (definition : TypeDef) (type : Nat) : List Task :=
  (definition.mappedProperties configuration).map (Task.mappedProperty type) ++
    (definition.notifyingProperties configuration).map (Task.changeNotification type) ++
    definition.queryTasks configuration type

theorem TypeDef.mem_queryTasks {definition : TypeDef} {type : Nat} {task : Task}
    (planned : task ∈ definition.queryTasks configuration type) : task = .typeHierarchy type := by
  unfold queryTasks at planned
  split at planned
  · exact List.mem_singleton.mp planned
  · cases planned

namespace Module

theorem plan_eq {module : Module} {type : Nat} {definition : TypeDef}
    (found : module.types[type]? = some definition) :
    module.plan configuration type = definition.tasks configuration type := by
  rw [plan, found]
  rfl

/-- A type of a module whose tasks, as planned for the original type, change nothing but setters, and
those to what they are. -/
structure Settled (resolver : Resolver) (configuration : Configuration) (original : TypeDef)
    (type : Nat) (module : Module) : Prop where
  mapped : ∀ index ∈ original.mappedProperties configuration,
    (Task.mappedProperty type index).Quiet resolver configuration module
  query : original.queryTasks configuration type ≠ [] →
    (Task.typeHierarchy type).Quiet resolver configuration module
  notifying : ∃ writes, module.Stable type writes ∧
    (configuration.verify = true → ∀ write ∈ writes, ∀ method,
      module.methodAt? type write.1 = some method → method.verify = .ok ()) ∧
    module.Replays resolver configuration
      ((original.notifyingProperties configuration).map (Task.changeNotification type)) type writes

variable {module before after : Module} {type : Nat} {original : TypeDef}

theorem methodAt?_congr (same : after.types[type]? = before.types[type]?) (index : Nat) :
    after.methodAt? type index = before.methodAt? type index := by
  rw [methodAt?, methodAt?, same]

/-- A settled type stays settled while the module around it is extended. -/
theorem Settled.extends (settled : before.Settled resolver configuration original type)
    (extended : before.Extends after) (same : after.types[type]? = before.types[type]?) :
    after.Settled resolver configuration original type := by
  have resembles : before.Resembles type after := by
    refine ⟨extended, fun index field stores => ?_⟩
    obtain ⟨method, body, found, rest⟩ := stores
    exact ⟨method, body, (methodAt?_congr same index).trans found, rest⟩
  obtain ⟨writes, stable, verified, replays⟩ := settled.notifying
  refine ⟨fun index member => ?_, fun planned => (settled.query planned).typeHierarchy extended,
    writes, ?_, fun verify write member method found => ?_, replays.of_resembles resembles⟩
  · refine (settled.mapped index member).mappedProperty extended ?_
    intro definition definition' property field found found' _ there
    obtain rfl := Option.some.inj (found.symm.trans (same.symm.trans found'))
    exact there
  · exact stable.extends extended fun index method found =>
      .inl ((methodAt?_congr same index).symm.trans found)
  · exact verified verify write member method ((methodAt?_congr same write.1).symm.trans found)

end Module

namespace WeavingState

variable {module : Module} {type : Nat} {waiting : List Nat} {original definition : TypeDef}
  {state notified after : WeavingState}

private theorem runQuery
    (runtime : ∀ name other, resolver.find? name = some other → other.Dispatched)
    (dispatched : state.module.Dispatched) (found : state.module.types[type]? = some definition)
    (ran : (original.queryTasks configuration type).foldlM (runTask resolver configuration) state =
      .ok after) :
    (∃ added, after.module.types[type]? =
        some { definition with methods := definition.methods ++ added }) ∧
      (original.queryTasks configuration type ≠ [] →
        (Task.typeHierarchy type).Quiet resolver configuration after.module) := by
  unfold TypeDef.queryTasks at ran ⊢
  split at ran
  · next planned =>
    rw [List.foldlM_cons] at ran
    obtain ⟨next, executed, done⟩ := Outcome.bind_eq_ok.mp ran
    obtain rfl := Except.ok.inj done
    obtain ⟨adds, quiet⟩ := runTask_typeHierarchy runtime dispatched found executed
    exact ⟨adds, fun _ => quiet⟩
  · next unplanned =>
    obtain rfl := Except.ok.inj ran
    exact ⟨⟨[], by rw [found, List.append_nil]⟩, fun planned => absurd (if_neg unplanned) planned⟩

private theorem methodAt?_of_added {before after : Module} {added : List MethodDef}
    (found : before.types[type]? = some definition)
    (found' : after.types[type]? = some { definition with methods := definition.methods ++ added })
    {index : Nat} {method : MethodDef} :
    (before.methodAt? type index = some method → after.methodAt? type index = some method) ∧
      (after.methodAt? type index = some method →
        before.methodAt? type index = some method ∨ before.methodAt? type index = none) := by
  have there : before.methodAt? type index = definition.methods[index]? := by
    rw [Module.methodAt?, found, Option.bind_some]
  have there' : after.methodAt? type index = (definition.methods ++ added)[index]? := by
    rw [Module.methodAt?, found', Option.bind_some]
  rw [there, there', List.getElem?_append]
  split
  · exact ⟨id, .inl⟩
  · next outside =>
    rw [List.getElem?_eq_none (Nat.not_lt.mp outside)]
    refine ⟨fun beyond => ?_, fun _ => .inr rfl⟩
    cases beyond

/-- The tasks of a type run in three phases. -/
theorem phases_of_tasks
    (ran : (original.tasks configuration type).foldlM (runTask resolver configuration) state =
      .ok after) :
    ∃ mapped notified,
      ((original.mappedProperties configuration).map (Task.mappedProperty type)).foldlM
          (runTask resolver configuration) state = .ok mapped ∧
        ((original.notifyingProperties configuration).map (Task.changeNotification type)).foldlM
          (runTask resolver configuration) mapped = .ok notified ∧
        (original.queryTasks configuration type).foldlM (runTask resolver configuration) notified =
          .ok after := by
  rw [TypeDef.tasks, List.foldlM_append, List.foldlM_append] at ran
  obtain ⟨notified, first, last⟩ := Outcome.bind_eq_ok.mp ran
  obtain ⟨mapped, first, second⟩ := Outcome.bind_eq_ok.mp first
  exact ⟨mapped, notified, first, second, last⟩

/-- A type whose tasks have run, and whose touched methods verify, is settled. -/
theorem settled_of_tasks (found : state.module.types[type]? = some original)
    (unclaimed : ∀ property ∈ original.properties,
      TypeDef.mapsProperty configuration property = true →
      original.field? (configuration.mappingFieldName property.name) = none)
    (dispatched : state.module.Dispatched)
    (runtime : ∀ name other, resolver.find? name = some other → other.Dispatched)
    (ran : (original.tasks configuration type).foldlM (runTask resolver configuration) state =
      .ok after)
    (checked : configuration.verify = true → after.verifyTouched type = .ok ()) :
    after.module.Settled resolver configuration original type := by
  obtain ⟨mapped, notified, first, second, last⟩ := phases_of_tasks ran
  have quiet := quiet_of_mapped (fun definition found' => by
    obtain rfl := Option.some.inj (found.symm.trans found')
    exact unclaimed) found first
  obtain ⟨definition, there, -⟩ := exists_of_rel (extends_foldlM first).types? found
  obtain ⟨writes, replayed⟩ := replayed_foldlM (List.forall_mem_map.mpr fun index _ => ⟨index, rfl⟩)
    second
  have rewritten := replayed.types there
  have ready := dispatched_foldlM runtime (dispatched_foldlM runtime dispatched first) second
  obtain ⟨⟨added, behind⟩, query⟩ := runQuery runtime ready rewritten last
  have extended := extends_foldlM last
  have touched := (untouched_foldlM (fun _ planned => by rw [TypeDef.mem_queryTasks planned])
    last).touched
  have resembles : notified.module.Resembles type after.module := by
    refine ⟨extended, ?_⟩
    rintro index field ⟨method, body, stored, rest⟩
    exact ⟨method, body, (methodAt?_of_added rewritten behind).1 stored, rest⟩
  refine ⟨fun index member => ?_, query, writes, ?_, fun verify write member method found => ?_,
    replayed.replays.of_resembles resembles⟩
  · refine (quiet index member).mappedProperty (replayed.resembles.extended.trans extended) ?_
    intro before after property field stored stored' _ first
    obtain rfl := Option.some.inj (there.symm.trans stored)
    obtain rfl := Option.some.inj (behind.symm.trans stored')
    exact first
  · have stable := Module.stable_rewriteAll type writes mapped.module
    rw [← replayed.result] at stable
    -- the methods that are added behind are none of those that have been written
    refine stable.extends extended fun index method found => ?_
    refine ((methodAt?_of_added rewritten behind).2 found).imp_right fun none write member same => ?_
    obtain ⟨-, old, listed⟩ := replayed.places write member
    rw [← same, none] at listed
    cases listed
  · exact verify_of_verifyTouched (checked verify) (touched (replayed.places write member).1) found

/-- A visit settles its type. -/
theorem Waiting.settled (waits : Waiting module (type :: waiting) state)
    (found : module.types[type]? = some original)
    (unclaimed : ∀ property ∈ original.properties,
      TypeDef.mapsProperty configuration property = true →
      original.field? (configuration.mappingFieldName property.name) = none)
    (dispatched : state.module.Dispatched)
    (runtime : ∀ name other, resolver.find? name = some other → other.Dispatched)
    (visited : WeavingState.weaveType resolver configuration state type = .ok after) :
    after.module.Settled resolver configuration original type := by
  have ran := waits.runPlan visited
  rw [WeavingState.runPlan, Module.plan_eq found] at ran
  have here : ({ state with touched := [] } : WeavingState).module.types[type]? = some original :=
    (waits.waits type List.mem_cons_self).1.trans found
  exact settled_of_tasks here unclaimed dispatched runtime ran (weaveType_eq_ok.mp visited).2

end WeavingState

end PropertyWeaver
