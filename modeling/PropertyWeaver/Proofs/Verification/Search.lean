import PropertyWeaver.Proofs.Outcome
import PropertyWeaver.Proofs.Verification.Machine

/-!
# The search for depths

The search keeps three promises at every visit: a recorded depth is reached by the machine, an index
that is recorded and no longer pending is legal and has all its successors recorded, and the
greatest depth met is a recorded one. The number of pending and of unrecorded indices together falls
by one with every visit, so the budget is never used up before the pending indices are.
-/

set_option autoImplicit false

namespace PropertyWeaver.Verification

variable {body : MethodBody} {shape : BodyShape}

/-! ## One instruction -/

/-- The checks of an instruction one behind the other: the operand, the argument, the local, the
balance of a return, and the values on the stack. -/
theorem depthAfter_eq (offset depth : Nat) (instruction : Instruction) :
    depthAfter body shape offset depth instruction =
      if instruction.wellFormed = false then .error (.operandMismatch instruction.opcode offset)
      else
        match instruction.argument?.filter (shape.argumentCount ≤ ·) with
        | some index => .error (.invalidArgument index shape.argumentCount offset)
        | none =>
          match instruction.local?.filter (body.locals.length ≤ ·) with
          | some index => .error (.invalidLocal index body.locals.length offset)
          | none =>
            if instruction.opcode = .ret ∧ depth ≠ (instruction.effect shape).pops then
              .error (.unbalancedReturn offset depth)
            else if depth < (instruction.effect shape).pops then .error (.stackUnderflow offset)
            else
              .ok (depth - (instruction.effect shape).pops +
                (instruction.effect shape).pushes) := by
  unfold depthAfter
  cases instruction.wellFormed with
  | false => rfl
  | true =>
      cases instruction.argument? with
      | none =>
          cases instruction.local? with
          | none => rfl
          | some slot => by_cases outside : body.locals.length ≤ slot <;> simp [outside, Option.filter]
      | some argument =>
          by_cases outside : shape.argumentCount ≤ argument
          · simp [outside, Option.filter]
          · cases instruction.local? with
            | none => simp [outside, Option.filter]
            | some slot =>
                by_cases outside' : body.locals.length ≤ slot <;> simp [outside, outside', Option.filter]

private theorem depthAfter_spec {point : Point} {instruction : Instruction}
    (reached : Reachable body shape point)
    (found : body.instructions[point.index]? = some instruction) :
    (∃ error, depthAfter body shape point.index point.depth instruction = .error error ∧
      Defect body shape error) ∨
    (depthAfter body shape point.index point.depth instruction =
        .ok (point.depthBehind shape instruction) ∧
      instruction.wellFormed = true ∧
      ((∀ next, instruction.Leads point.index next → next < body.instructions.length) →
        Legal body shape point instruction)) := by
  rw [depthAfter_eq]
  split
  · next mismatch => exact .inl ⟨_, rfl, .operandMismatch reached found mismatch⟩
  next wellFormed =>
  split
  · next index outside =>
    obtain ⟨names, outside⟩ := Option.filter_eq_some_iff.mp outside
    exact .inl ⟨_, rfl, .invalidArgument reached found names (of_decide_eq_true outside)⟩
  next arguments =>
  split
  · next index outside =>
    obtain ⟨names, outside⟩ := Option.filter_eq_some_iff.mp outside
    exact .inl ⟨_, rfl, .invalidLocal reached found names (of_decide_eq_true outside)⟩
  next slots =>
  split
  · next unbalanced =>
    exact .inl ⟨_, rfl, .unbalancedReturn reached found unbalanced.1 unbalanced.2⟩
  next balanced =>
  split
  · next few => exact .inl ⟨_, rfl, .stackUnderflow reached found few⟩
  next enough =>
  have fits : instruction.wellFormed = true := by simpa using wellFormed
  refine .inr ⟨rfl, fits, fun inside => ?_⟩
  exact {
    operand := fits
    argument := by simpa [Option.filter_eq_none_iff] using arguments
    slot := by simpa [Option.filter_eq_none_iff] using slots
    enough := Nat.le_of_not_lt enough
    balanced := fun returns => Decidable.not_not.mp fun differs => balanced ⟨returns, differs⟩
    inside := inside }

/-- The target of a branch is checked first, the next index after it. -/
theorem successors_eq (size offset : Nat) (instruction : Instruction) :
    successors size offset instruction =
      match instruction.target?.filter (size ≤ ·) with
      | some target => .error (.invalidTarget target offset)
      | none =>
          if instruction.fallsThrough = true ∧ size ≤ offset + 1 then .error (.fallsOffEnd offset)
          else
            .ok (instruction.target?.toList ++
              if instruction.fallsThrough then [offset + 1] else []) := by
  unfold successors
  cases instruction.target? with
  | none => cases instruction.fallsThrough <;> by_cases end_ : size ≤ offset + 1 <;> simp [end_]
  | some target =>
      by_cases outside : size ≤ target
      · simp [outside, Option.filter]
      · cases instruction.fallsThrough <;> by_cases end_ : size ≤ offset + 1 <;>
          simp [outside, end_, Option.filter]

theorem fallsThrough_iff {instruction : Instruction} :
    instruction.fallsThrough = true ↔ instruction.opcode ≠ .br ∧ instruction.opcode ≠ .ret := by
  obtain ⟨opcode, operand⟩ := instruction
  cases opcode <;> simp [Instruction.fallsThrough, Opcode.isTerminator]

theorem branch_of_target? {instruction : Instruction} {target : Nat}
    (wellFormed : instruction.wellFormed = true) (names : instruction.target? = some target) :
    instruction.opcode.isBranch = true ∧
      ∃ word, instruction.operand = .branch word ∧ word.toNat = target := by
  obtain ⟨opcode, operand⟩ := instruction
  cases operand with
  | branch word =>
      refine ⟨?_, word, rfl, Option.some.inj names⟩
      cases opcode <;> first | rfl | cases wellFormed
  | _ => cases names

theorem leads_iff {instruction : Instruction} (wellFormed : instruction.wellFormed = true)
    {index next : Nat} :
    instruction.Leads index next ↔
      instruction.target? = some next ∨ (instruction.fallsThrough = true ∧ next = index + 1) := by
  constructor
  · intro leads
    cases leads with
    | branch _ target => exact .inl (by simp [Instruction.target?, target])
    | next jumps returns => exact .inr ⟨fallsThrough_iff.mpr ⟨jumps, returns⟩, rfl⟩
  · rintro (names | ⟨continues, rfl⟩)
    · obtain ⟨branches, word, target, rfl⟩ := branch_of_target? wellFormed names
      exact .branch branches target
    · obtain ⟨jumps, returns⟩ := fallsThrough_iff.mp continues
      exact .next jumps returns

private theorem successors_spec {point : Point} {instruction : Instruction}
    (reached : Reachable body shape point)
    (found : body.instructions[point.index]? = some instruction)
    (wellFormed : instruction.wellFormed = true) :
    (∃ error, successors body.instructions.length point.index instruction = .error error ∧
      Defect body shape error) ∨
    (∃ following, successors body.instructions.length point.index instruction = .ok following ∧
      (∀ next, next ∈ following ↔ instruction.Leads point.index next) ∧
      ∀ next ∈ following, next < body.instructions.length) := by
  rw [successors_eq]
  split
  · next target outside =>
    obtain ⟨names, outside⟩ := Option.filter_eq_some_iff.mp outside
    obtain ⟨branches, word, operand, rfl⟩ := branch_of_target? wellFormed names
    exact .inl ⟨_, rfl,
      .invalidTarget reached found branches operand (of_decide_eq_true outside)⟩
  next targets =>
  split
  · next outside =>
    obtain ⟨jumps, returns⟩ := fallsThrough_iff.mp outside.1
    exact .inl ⟨_, rfl, .fallsOffEnd reached found jumps returns outside.2⟩
  next inside =>
  have goes : ∀ next, (next ∈ instruction.target?.toList ++
      if instruction.fallsThrough then [point.index + 1] else []) ↔
        instruction.Leads point.index next := by
    intro next
    rw [leads_iff wellFormed]
    cases instruction.fallsThrough <;> simp
  refine .inr ⟨_, rfl, goes, ?_⟩
  intro next member
  rcases (leads_iff wellFormed).mp ((goes next).mp member) with names | ⟨continues, rfl⟩
  · have within := Option.filter_eq_none_iff.mp targets next names
    simpa using within
  · simpa [continues] using inside

private theorem leads_or_returns {instruction : Instruction}
    (wellFormed : instruction.wellFormed = true)
    (index : Nat) : instruction.opcode = .ret ∨ ∃ next, instruction.Leads index next := by
  by_cases jumps : instruction.opcode = .br
  · obtain ⟨opcode, operand⟩ := instruction
    obtain rfl : opcode = .br := jumps
    cases operand with
    | branch word => exact .inr ⟨_, .branch rfl rfl⟩
    | _ => cases wellFormed
  · by_cases returns : instruction.opcode = .ret
    · exact .inl returns
    · exact .inr ⟨_, .next jumps returns⟩

private theorem depthBehind_of_ret {point : Point} {instruction : Instruction}
    (legal : Legal body shape point instruction) (returns : instruction.opcode = .ret) :
    point.depthBehind shape instruction = 0 := by
  have balanced := legal.balanced returns
  simp only [Instruction.effect, returns] at balanced
  simp [Point.depthBehind, Instruction.effect, returns, balanced]

/-! ## Recording depths -/

def Search.recorded (search : Search) (index : Nat) : Option Nat :=
  (search.depths[index]?).join

/-- Number of visits that can still follow: each index is pending at most once. -/
def Search.work (search : Search) : Nat :=
  search.pending.length + search.depths.count none

/-- What recording one depth at some of the `following` indices changes: nothing recorded before is
lost, and whatever is new has that depth and is pending. -/
structure Grown (depth : Nat) (following : Nat → Prop) (before after : Search) : Prop where
  size : after.depths.length = before.depths.length
  deepest : after.deepest = before.deepest
  work : after.work = before.work
  kept : ∀ index known, before.recorded index = some known → after.recorded index = some known
  fresh : ∀ index known, after.recorded index = some known →
    before.recorded index = some known ∨ known = depth ∧ following index ∧ index ∈ after.pending
  stays : ∀ index ∈ before.pending, index ∈ after.pending
  added : ∀ index ∈ after.pending, index ∈ before.pending ∨ after.recorded index = some depth

private theorem Grown.refl (depth : Nat) (following : Nat → Prop) (search : Search) :
    Grown depth following search search where
  size := rfl
  deepest := rfl
  work := rfl
  kept _ _ known := known
  fresh _ _ known := .inl known
  stays _ member := member
  added _ member := .inl member

private theorem Grown.trans {depth : Nat} {following : Nat → Prop} {before between after : Search}
    (first : Grown depth following before between) (second : Grown depth following between after) :
    Grown depth following before after where
  size := second.size.trans first.size
  deepest := second.deepest.trans first.deepest
  work := second.work.trans first.work
  kept index known recorded := second.kept index known (first.kept index known recorded)
  fresh index known recorded := by
    rcases second.fresh index known recorded with old | new
    · rcases first.fresh index known old with older | ⟨same, follows, member⟩
      · exact .inl older
      · exact .inr ⟨same, follows, second.stays index member⟩
    · exact .inr new
  stays index member := second.stays index (first.stays index member)
  added index member := by
    rcases second.added index member with old | new
    · rcases first.added index old with older | recorded
      · exact .inl older
      · exact .inr (second.kept index depth recorded)
    · exact .inr new

private theorem reach_of_none {search : Search} {depth offset : Nat}
    (recorded : search.recorded offset = none) :
    search.reach depth offset =
      .ok { search with
        depths := search.depths.set offset (some depth)
        pending := offset :: search.pending } := by
  unfold Search.recorded at recorded
  rw [Search.reach, recorded]

private theorem reach_of_some {search : Search} {depth offset first : Nat}
    (recorded : search.recorded offset = some first) :
    search.reach depth offset =
      if first = depth then .ok search else .error (.stackMismatch offset first depth) := by
  unfold Search.recorded at recorded
  rw [Search.reach, recorded]

/-- A new record moves one unit of work from the unrecorded to the pending indices. -/
theorem grown_set {following : Nat → Prop} {search : Search} {offset : Nat} (depth : Nat)
    (follows : following offset) (inside : offset < search.depths.length)
    (recorded : search.recorded offset = none) :
    Grown depth following search { search with
      depths := search.depths.set offset (some depth)
      pending := offset :: search.pending } := by
  have absent : search.depths[offset] = none := by
    simpa [Search.recorded, List.getElem?_eq_getElem inside] using recorded
  have counted : 0 < search.depths.count none :=
    List.count_pos_iff.mpr (absent ▸ List.getElem_mem inside)
  have elsewhere : ∀ index, index ≠ offset →
      ((search.depths.set offset (some depth))[index]?).join = search.recorded index := by
    intro index other
    rw [List.getElem?_set_ne (Ne.symm other)]
    rfl
  have here : ((search.depths.set offset (some depth))[offset]?).join = some depth := by
    simp [inside]
  exact {
    size := List.length_set
    deepest := rfl
    work := by
      simp only [Search.work, List.length_cons, List.count_set inside, absent]
      simp
      omega
    kept := by
      intro index known old
      by_cases same : index = offset
      · subst same
        rw [recorded] at old
        cases old
      · exact (elsewhere index same).trans old
    fresh := by
      intro index known new
      by_cases same : index = offset
      · subst same
        exact .inr ⟨Option.some.inj (new.symm.trans here), follows, List.mem_cons_self⟩
      · exact .inl ((elsewhere index same).symm.trans new)
    stays := fun index member => List.mem_cons_of_mem _ member
    added := by
      intro index member
      rcases List.mem_cons.mp member with rfl | old
      · exact .inr here
      · exact .inl old }

private theorem reach_spec {following : Nat → Prop} {search : Search} {offset : Nat} (depth : Nat)
    (follows : following offset) (inside : offset < search.depths.length) :
    (∃ after, search.reach depth offset = .ok after ∧ Grown depth following search after ∧
      after.recorded offset = some depth) ∨
    (∃ first, search.recorded offset = some first ∧ first ≠ depth ∧
      search.reach depth offset = .error (.stackMismatch offset first depth)) := by
  cases recorded : search.recorded offset with
  | none =>
      exact .inl ⟨_, reach_of_none recorded, grown_set depth follows inside recorded,
        by simp [Search.recorded, inside]⟩
  | some first =>
      rw [reach_of_some recorded]
      by_cases same : first = depth
      · exact .inl ⟨search, if_pos same, .refl depth following search, by rw [recorded, same]⟩
      · exact .inr ⟨first, rfl, same, if_neg same⟩

private theorem reachAll_spec {following : Nat → Prop} (depth : Nat) (search : Search)
    {indices : List Nat} (follow : ∀ index ∈ indices, following index)
    (inside : ∀ index ∈ indices, index < search.depths.length) :
    (∃ after, indices.foldlM (fun search successor => search.reach depth successor) search =
        .ok after ∧ Grown depth following search after ∧
      ∀ index ∈ indices, after.recorded index = some depth) ∨
    (∃ index ∈ indices, ∃ first, search.recorded index = some first ∧ first ≠ depth ∧
      indices.foldlM (fun search successor => search.reach depth successor) search =
        .error (.stackMismatch index first depth)) := by
  induction indices generalizing search with
  | nil => exact .inl ⟨search, rfl, .refl depth following search, by simp⟩
  | cons offset indices hypothesis =>
      simp only [List.foldlM_cons, List.forall_mem_cons] at follow inside ⊢
      rcases reach_spec depth follow.1 inside.1 with
        ⟨between, reached, grown, recorded⟩ | ⟨first, recorded, differs, fails⟩
      · rw [reached, Outcome.ok_bind]
        have inside' : ∀ index ∈ indices, index < between.depths.length :=
          fun index member => grown.size ▸ inside.2 index member
        rcases hypothesis between follow.2 inside' with
          ⟨after, runs, grown', recorded'⟩ | ⟨index, member, first, recorded', differs, fails⟩
        · exact .inl ⟨after, runs, grown.trans grown',
            grown'.kept offset depth recorded, recorded'⟩
        · refine .inr ⟨index, List.mem_cons_of_mem _ member, first, ?_, differs, fails⟩
          rcases grown.fresh index first recorded' with old | ⟨same, _⟩
          · exact old
          · exact absurd same differs
      · exact .inr ⟨offset, List.mem_cons_self, first, recorded, differs, by
          rw [fails, Outcome.error_bind]⟩

/-! ## Visits -/

/-- What holds of a search between two visits. -/
structure Valid (body : MethodBody) (shape : BodyShape) (search : Search) : Prop where
  size : search.depths.length = body.instructions.length
  entry : search.recorded 0 = some 0
  reached : ∀ index depth, search.recorded index = some depth → Reachable body shape ⟨index, depth⟩
  pending : ∀ index ∈ search.pending, ∃ depth, search.recorded index = some depth
  visited : ∀ index depth, search.recorded index = some depth → index ∉ search.pending →
    ∃ instruction, body.instructions[index]? = some instruction ∧
      Legal body shape ⟨index, depth⟩ instruction ∧
      ∀ next, instruction.Leads index next →
        search.recorded next = some (Point.depthBehind ⟨index, depth⟩ shape instruction)
  bounded : ∀ index depth, search.recorded index = some depth → depth ≤ search.deepest
  attained : ∃ index, search.recorded index = some search.deepest

theorem Search.recorded_lt {search : Search} {index depth : Nat}
    (recorded : search.recorded index = some depth) : index < search.depths.length := by
  unfold Search.recorded at recorded
  obtain ⟨inside, _⟩ := List.getElem?_eq_some_iff.mp (Option.join_eq_some_iff.mp recorded)
  exact inside

theorem valid_initial (nonempty : body.instructions ≠ []) :
    Valid body shape (Search.initial body.instructions.length) := by
  have positive := List.length_pos_iff.mpr nonempty
  have entry : (Search.initial body.instructions.length).recorded 0 = some 0 := by
    simp [Search.recorded, Search.initial, positive]
  have only : ∀ index depth,
      (Search.initial body.instructions.length).recorded index = some depth →
        index = 0 ∧ depth = 0 := by
    intro index depth recorded
    by_cases zero : index = 0
    · subst zero
      exact ⟨rfl, Option.some.inj (recorded.symm.trans entry)⟩
    · have inside := Search.recorded_lt recorded
      simp only [Search.initial, List.length_set, List.length_replicate] at inside
      rw [Search.recorded, Search.initial, List.getElem?_set_ne (Ne.symm zero),
        List.getElem?_replicate_of_lt inside] at recorded
      cases recorded
  exact {
    size := by simp [Search.initial]
    entry := entry
    reached := by
      intro index depth recorded
      obtain ⟨rfl, rfl⟩ := only index depth recorded
      exact .start
    pending := by
      intro index member
      obtain rfl := List.mem_singleton.mp member
      exact ⟨0, entry⟩
    visited := by
      intro index depth recorded waits
      obtain ⟨rfl, rfl⟩ := only index depth recorded
      exact absurd List.mem_cons_self waits
    bounded := by
      intro index depth recorded
      obtain ⟨rfl, rfl⟩ := only index depth recorded
      exact Nat.le_refl 0
    attained := ⟨0, entry⟩ }

theorem work_initial {size : Nat} (positive : 0 < size) :
    (Search.initial size).work = size := by
  simp [Search.work, Search.initial, List.count_set, positive]
  omega

private theorem visit_eq {search : Search} {offset depth : Nat} {pending : List Nat}
    {instruction : Instruction} (recorded : search.recorded offset = some depth) :
    Search.visit body shape { search with pending := pending } offset instruction = (do
      let next ← depthAfter body shape offset depth instruction
      let following ← successors body.instructions.length offset instruction
      following.foldlM (fun search successor => search.reach next successor)
        { search with pending := pending, deepest := max search.deepest next }) := by
  unfold Search.recorded at recorded
  rw [Search.visit, recorded]
  rfl

/-- Once the successors of a legal index are recorded, that index is done with. -/
theorem Valid.visit {search after : Search} {offset depth : Nat} {pending : List Nat}
    {instruction : Instruction} (valid : Valid body shape search)
    (first : search.pending = offset :: pending) (recorded : search.recorded offset = some depth)
    (found : body.instructions[offset]? = some instruction)
    (legal : Legal body shape ⟨offset, depth⟩ instruction)
    (grown : Grown (Point.depthBehind ⟨offset, depth⟩ shape instruction)
      (instruction.Leads offset)
      { search with
        pending := pending
        deepest := max search.deepest (Point.depthBehind ⟨offset, depth⟩ shape instruction) } after)
    (leads : ∀ next, instruction.Leads offset next →
      after.recorded next = some (Point.depthBehind ⟨offset, depth⟩ shape instruction)) :
    Valid body shape after := by
  have deepest := grown.deepest
  exact {
    size := grown.size.trans valid.size
    entry := grown.kept 0 0 valid.entry
    reached := by
      intro index known now
      rcases grown.fresh index known now with before | ⟨rfl, follows, _⟩
      · exact valid.reached index known before
      · exact (valid.reached offset depth recorded).step (.mk found legal.enough follows)
    pending := by
      intro index waits
      rcases grown.added index waits with before | now
      · obtain ⟨known, old⟩ := valid.pending index (first ▸ List.mem_cons_of_mem _ before)
        exact ⟨known, grown.kept index known old⟩
      · exact ⟨_, now⟩
    visited := by
      intro index known now done
      rcases grown.fresh index known now with before | ⟨_, _, waits⟩
      · by_cases same : index = offset
        · subst same
          obtain rfl := Option.some.inj (recorded.symm.trans before)
          exact ⟨instruction, found, legal, leads⟩
        · have done' : index ∉ search.pending := by
            rw [first, List.mem_cons, not_or]
            exact ⟨same, fun waits => done (grown.stays index waits)⟩
          obtain ⟨other, found', legal', leads'⟩ := valid.visited index known before done'
          exact ⟨other, found', legal', fun next goes => grown.kept next _ (leads' next goes)⟩
      · exact absurd waits done
    bounded := by
      intro index known now
      rw [deepest]
      rcases grown.fresh index known now with before | ⟨rfl, _, _⟩
      · exact Nat.le_trans (valid.bounded index known before) (Nat.le_max_left ..)
      · exact Nat.le_max_right ..
    attained := by
      rw [deepest]
      by_cases deeper : Point.depthBehind ⟨offset, depth⟩ shape instruction ≤ search.deepest
      · obtain ⟨index, before⟩ := valid.attained
        exact ⟨index, by rw [Nat.max_eq_left deeper]; exact grown.kept index _ before⟩
      · -- a return leaves nothing behind, so the new depth is in front of a successor
        rcases leads_or_returns legal.operand offset with returns | ⟨next, goes⟩
        · exact absurd (depthBehind_of_ret legal returns ▸ Nat.zero_le _) deeper
        · exact ⟨next, by
            rw [Nat.max_eq_right (Nat.le_of_not_le deeper)]
            exact leads next goes⟩ }

/-- A visit keeps the promises and uses up one unit of work, or it finds a defect. -/
theorem visit_spec {search : Search} {offset : Nat} {pending : List Nat}
    {instruction : Instruction} (valid : Valid body shape search)
    (first : search.pending = offset :: pending)
    (found : body.instructions[offset]? = some instruction) :
    (∃ after, Search.visit body shape { search with pending := pending } offset instruction =
        .ok after ∧ Valid body shape after ∧ after.work + 1 = search.work) ∨
    (∃ error, Search.visit body shape { search with pending := pending } offset instruction =
        .error error ∧ Defect body shape error) := by
  obtain ⟨depth, recorded⟩ := valid.pending offset (first ▸ List.mem_cons_self)
  have reached := valid.reached offset depth recorded
  rw [visit_eq recorded]
  rcases depthAfter_spec reached found with ⟨error, fails, defect⟩ | ⟨after, fits, legal⟩
  · exact .inr ⟨error, by rw [fails, Outcome.error_bind], defect⟩
  rw [after, Outcome.ok_bind]
  rcases successors_spec reached found fits with
    ⟨error, fails, defect⟩ | ⟨following, goes, leads, inside⟩
  · exact .inr ⟨error, by rw [fails, Outcome.error_bind], defect⟩
  rw [goes, Outcome.ok_bind]
  have legal := legal fun next follows => inside next ((leads next).mpr follows)
  rcases reachAll_spec (Point.depthBehind ⟨offset, depth⟩ shape instruction)
      { search with
        pending := pending
        deepest := max search.deepest (Point.depthBehind ⟨offset, depth⟩ shape instruction) }
      (fun next member => (leads next).mp member)
      (fun next member => valid.size.symm ▸ inside next member) with
    ⟨search', runs, grown, all⟩ | ⟨next, member, other, before, differs, fails⟩
  · refine .inl ⟨search', runs, ?_, ?_⟩
    · exact valid.visit first recorded found legal grown
        fun next follows => all next ((leads next).mpr follows)
    · rw [grown.work]
      simp only [Search.work, first, List.length_cons]
      omega
  · refine .inr ⟨_, fails, ?_⟩
    have step : Step body shape ⟨offset, depth⟩ _ :=
      .mk found legal.enough ((leads next).mp member)
    have reached' := valid.reached next other before
    exact Defect.stackMismatch reached' (reached.step step) rfl differs

/-- The whole search ends with nothing pending, or it finds a defect. -/
theorem run_spec {budget : Nat} {search : Search} (valid : Valid body shape search)
    (enough : search.work ≤ budget) :
    (∃ final, Search.run body shape budget search = .ok final.deepest ∧
      Valid body shape final ∧ final.pending = []) ∨
    (∃ error, Search.run body shape budget search = .error error ∧ Defect body shape error) := by
  induction budget generalizing search with
  | zero =>
      have idle : search.pending.length = 0 := by
        unfold Search.work at enough
        omega
      exact .inl ⟨search, rfl, valid, List.eq_nil_of_length_eq_zero idle⟩
  | succ budget hypothesis =>
      rw [Search.run]
      cases waits : search.pending with
      | nil => exact .inl ⟨search, rfl, valid, waits⟩
      | cons offset pending =>
          obtain ⟨depth, recorded⟩ := valid.pending offset (waits ▸ List.mem_cons_self)
          have inside : offset < body.instructions.length :=
            valid.size ▸ Search.recorded_lt recorded
          simp only [List.getElem?_eq_getElem inside]
          rcases visit_spec valid waits (List.getElem?_eq_getElem inside) with
            ⟨after, visits, valid', work⟩ | ⟨error, fails, defect⟩
          · rw [visits, Outcome.ok_bind]
            exact hypothesis valid' (by omega)
          · exact .inr ⟨error, by rw [fails, Outcome.error_bind], defect⟩

end PropertyWeaver.Verification
