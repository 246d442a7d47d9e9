import Mathlib.Data.List.Forall2

/-!
# Computations that may fail

Laws of `Except` that take a computation apart at its steps.
-/

set_option autoImplicit false

namespace PropertyWeaver.Outcome

variable {ε ε' α β : Type}

@[simp] theorem pure_eq (value : α) : (pure value : Except ε α) = .ok value := rfl

@[simp] theorem throw_eq (error : ε) : (throw error : Except ε α) = .error error := rfl

@[simp] theorem ok_bind (value : α) (next : α → Except ε β) :
    (Except.ok value >>= next) = next value := rfl

@[simp] theorem error_bind (error : ε) (next : α → Except ε β) :
    (Except.error error >>= next) = .error error := rfl

theorem toOption_eq_some {computation : Except ε α} {value : α} :
    computation.toOption = some value ↔ computation = .ok value := by
  cases computation <;> simp [Except.toOption]

theorem exists_of_isOk {computation : Except ε α} (succeeds : computation.isOk = true) :
    ∃ value, computation = .ok value := by
  cases computation with
  | error error => cases succeeds
  | ok value => exact ⟨value, rfl⟩

theorem bind_eq_ok {first : Except ε α} {next : α → Except ε β} {result : β} :
    (first >>= next) = .ok result ↔ ∃ value, first = .ok value ∧ next value = .ok result := by
  cases first <;> simp

@[simp] theorem mapError_ok (change : ε → ε') (value : α) :
    (Except.ok value).mapError change = .ok value := rfl

@[simp] theorem mapError_error (change : ε → ε') (error : ε) :
    (Except.error error : Except ε α).mapError change = .error (change error) := rfl

/-- Changing the error of a computation does not change when it succeeds. -/
@[simp] theorem mapError_eq_ok {change : ε → ε'} {computation : Except ε α} {value : α} :
    computation.mapError change = .ok value ↔ computation = .ok value := by
  cases computation <;> simp

theorem mapError_eq_error {change : ε → ε'} {computation : Except ε α} {error : ε'} :
    computation.mapError change = .error error ↔
      ∃ cause, computation = .error cause ∧ error = change cause := by
  cases computation with
  | error cause => simp [eq_comm]
  | ok value => simp

theorem forM_eq_ok {items : List α} {check : α → Except ε Unit} :
    items.forM check = .ok () ↔ ∀ item ∈ items, check item = .ok () := by
  induction items with
  | nil => simp
  | cons item items hypothesis =>
      change (check item >>= fun _ => items.forM check) = .ok () ↔ _
      rw [List.forall_mem_cons, ← hypothesis, bind_eq_ok]
      exact ⟨fun ⟨_, here, rest⟩ => ⟨here, rest⟩, fun ⟨here, rest⟩ => ⟨(), here, rest⟩⟩

theorem exists_of_forM_eq_error {items : List α} {check : α → Except ε Unit} {error : ε}
    (fails : items.forM check = .error error) : ∃ item ∈ items, check item = .error error := by
  induction items with
  | nil => cases fails
  | cons item items hypothesis =>
      change (check item >>= fun _ => items.forM check) = .error error at fails
      cases here : check item with
      | error first =>
          rw [here] at fails
          exact ⟨item, List.mem_cons_self, here.trans fails⟩
      | ok _ =>
          rw [here] at fails
          obtain ⟨other, member, there⟩ := hypothesis fails
          exact ⟨other, List.mem_cons_of_mem item member, there⟩

theorem mapM_cons_eq_ok {item : α} {items : List α} {f : α → Except ε β} {results : List β} :
    (item :: items).mapM f = .ok results ↔
      ∃ first rest, f item = .ok first ∧ items.mapM f = .ok rest ∧ results = first :: rest := by
  simp only [List.mapM_cons, bind_eq_ok, pure_eq, Except.ok.injEq]
  constructor
  · rintro ⟨first, here, rest, there, rfl⟩
    exact ⟨first, rest, here, there, rfl⟩
  · rintro ⟨first, rest, here, there, rfl⟩
    exact ⟨first, here, rest, there, rfl⟩

theorem mapM_eq_ok {items : List α} {f : α → Except ε β} {results : List β} :
    items.mapM f = .ok results ↔
      List.Forall₂ (fun item result => f item = .ok result) items results := by
  induction items generalizing results with
  | nil =>
      rw [List.forall₂_nil_left_iff]
      exact ⟨fun same => (Except.ok.inj same).symm, congrArg Except.ok ∘ Eq.symm⟩
  | cons item items hypothesis =>
      rw [mapM_cons_eq_ok, List.forall₂_cons_left_iff]
      simp only [hypothesis]

private theorem mapM_cons_eq_error {item : α} {items : List α} {f : α → Except ε β} {error : ε} :
    (item :: items).mapM f = .error error ↔
      f item = .error error ∨ (∃ result, f item = .ok result) ∧ items.mapM f = .error error := by
  rw [List.mapM_cons]
  cases f item with
  | error cause => simp
  | ok result => cases items.mapM f <;> simp

theorem exists_mapM_eq_ok {items : List α} {f : α → Except ε β} :
    (∃ results, items.mapM f = .ok results) ↔ ∀ item ∈ items, ∃ result, f item = .ok result := by
  induction items with
  | nil => exact iff_of_true ⟨[], rfl⟩ (List.forall_mem_nil _)
  | cons item items hypothesis =>
      rw [List.forall_mem_cons, ← hypothesis]
      constructor
      · intro handled
        obtain ⟨_, accepted⟩ := handled
        obtain ⟨first, rest, here, there, -⟩ := mapM_cons_eq_ok.mp accepted
        exact ⟨⟨first, here⟩, rest, there⟩
      · intro handled
        obtain ⟨⟨first, here⟩, rest, there⟩ := handled
        exact ⟨first :: rest, mapM_cons_eq_ok.mpr ⟨first, rest, here, there, rfl⟩⟩

theorem mapM_eq_error {items : List α} {f : α → Except ε β} {error : ε} :
    items.mapM f = .error error ↔
      ∃ before item after, items = before ++ item :: after ∧
        (∀ other ∈ before, ∃ result, f other = .ok result) ∧ f item = .error error := by
  constructor
  · intro fails
    induction items with
    | nil => cases fails
    | cons first items hypothesis =>
        cases mapM_cons_eq_error.mp fails with
        | inl here => exact ⟨[], first, items, rfl, List.forall_mem_nil _, here⟩
        | inr later =>
            obtain ⟨before, item, after, rfl, handled, there⟩ := hypothesis later.2
            exact ⟨first :: before, item, after, rfl, List.forall_mem_cons.mpr ⟨later.1, handled⟩, there⟩
  · intro split
    obtain ⟨before, item, after, rfl, handled, here⟩ := split
    induction before with
    | nil => exact mapM_cons_eq_error.mpr (.inl here)
    | cons first before hypothesis =>
        obtain ⟨early, others⟩ := List.forall_mem_cons.mp handled
        exact mapM_cons_eq_error.mpr (.inr ⟨early, hypothesis others⟩)

/-- An invariant of the items that are left and the value so far holds at the end of a run. -/
theorem foldlM_invariant {items : List α} {step : β → α → Except ε β} {before after : β}
    (invariant : List α → β → Prop)
    (preserved : ∀ item rest value next, invariant (item :: rest) value →
      step value item = .ok next → invariant rest next)
    (start : invariant items before) (ran : items.foldlM step before = .ok after) :
    invariant [] after := by
  induction items generalizing before with
  | nil =>
      obtain rfl := Except.ok.inj ran
      exact start
  | cons item items hypothesis =>
      rw [List.foldlM_cons] at ran
      obtain ⟨between, first, rest⟩ := bind_eq_ok.mp ran
      exact hypothesis (preserved item items before between start first) rest

/-- Computations that are the same but for their errors stay so one after the other. -/
theorem bind_follows {first : Except ε α} {first' : Except ε' α} {next : α → Except ε β}
    {next' : α → Except ε' β} {change : ε → ε'} (here : first' = first.mapError change)
    (rest : ∀ value, first = .ok value → next' value = (next value).mapError change) :
    (first' >>= next') = (first >>= next).mapError change := by
  subst here
  cases first with
  | error error => rfl
  | ok value => exact rest value rfl

/-! ## Errors that cannot occur -/

/-- If the computation fails, it is not by an error of the excluded kind. -/
def Avoids (excluded : ε → Prop) (computation : Except ε α) : Prop :=
  ∀ error, computation = .error error → ¬ excluded error

namespace Avoids

variable {excluded : ε → Prop}

theorem ok (value : α) : Avoids excluded (.ok value) := by
  intro error fails
  cases fails

theorem error {error : ε} (other : ¬ excluded error) :
    Avoids excluded (.error error : Except ε α) := by
  intro _ fails
  obtain rfl := Except.error.inj fails
  exact other

theorem bind {first : Except ε α} {next : α → Except ε β} (start : Avoids excluded first)
    (rest : ∀ value, Avoids excluded (next value)) : Avoids excluded (first >>= next) := by
  cases first with
  | error error => exact fun _ fails => start _ (congrArg _ (Except.error.inj fails))
  | ok value => exact rest value

theorem mapM {items : List α} {f : α → Except ε β} (each : ∀ item ∈ items, Avoids excluded (f item)) :
    Avoids excluded (items.mapM f) := by
  induction items with
  | nil => exact ok []
  | cons item items hypothesis =>
      obtain ⟨here, rest⟩ := List.forall_mem_cons.mp each
      rw [List.mapM_cons]
      exact here.bind fun _ => (hypothesis rest).bind fun _ => ok _

theorem forM {items : List α} {check : α → Except ε Unit}
    (each : ∀ item ∈ items, Avoids excluded (check item)) : Avoids excluded (items.forM check) := by
  induction items with
  | nil => exact ok ()
  | cons item items hypothesis =>
      obtain ⟨here, rest⟩ := List.forall_mem_cons.mp each
      exact here.bind fun _ => hypothesis rest

theorem foldlM {items : List α} {step : β → α → Except ε β} {start : β}
    (each : ∀ item ∈ items, ∀ value, Avoids excluded (step value item)) :
    Avoids excluded (items.foldlM step start) := by
  induction items generalizing start with
  | nil => exact ok start
  | cons item items hypothesis =>
      obtain ⟨here, rest⟩ := List.forall_mem_cons.mp each
      rw [List.foldlM_cons]
      exact (here start).bind fun _ => hypothesis rest

theorem mapError {computation : Except ε' α} {change : ε' → ε}
    (other : ∀ error, ¬ excluded (change error)) :
    Avoids excluded (computation.mapError change) := by
  cases computation with
  | error cause => exact error (other cause)
  | ok value => exact ok value

end Avoids

end PropertyWeaver.Outcome
