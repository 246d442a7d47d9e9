import PropertyWeaver.Proofs.Outcome
import PropertyWeaver.Storage.Resolver

/-!
# Modules at hand

A resolver answers under a name with what was put there last. Loading puts at most one module there,
and a preload is a series of loads.
-/

set_option autoImplicit false

namespace PropertyWeaver

theorem mem_of_lookup {α β : Type} [BEq α] [LawfulBEq α] {entries : List (α × β)} {key : α}
    {value : β} (found : entries.lookup key = some value) : (key, value) ∈ entries := by
  obtain ⟨before, after, rfl, -⟩ := List.lookup_eq_some_iff.mp found
  exact List.mem_append_right before List.mem_cons_self

theorem lookup_filter_ne {α β : Type} [BEq α] [LawfulBEq α] [DecidableEq α] (entries : List (α × β))
    {key other : α} (different : other ≠ key) :
    (entries.filter fun entry => entry.1 ≠ key).lookup other = entries.lookup other := by
  induction entries with
  | nil => rfl
  | cons entry entries hypothesis =>
      obtain ⟨known, stored⟩ := entry
      by_cases same : known = key
      · have miss : (other == known) = false := beq_eq_false_iff_ne.mpr (same ▸ different)
        rw [List.filter_cons_of_neg (by simpa using same), hypothesis, List.lookup_cons, miss]
      · rw [List.filter_cons_of_pos (by simpa using same), List.lookup_cons, List.lookup_cons,
          hypothesis]

namespace Resolver

variable {resolver after : Resolver} {files : FileSystem} {name other : String} {module : Module}

theorem find?_insert (resolver : Resolver) (name : String) (module : Module) (other : String) :
    (resolver.insert name module).find? other =
      if other = name then some module else resolver.find? other := by
  change ((name, module) :: resolver.modules.filter fun entry => entry.1 ≠ name).lookup other = _
  rw [List.lookup_cons]
  by_cases same : other = name
  · rw [if_pos same, beq_iff_eq.mpr same]
  · rw [if_neg same, beq_eq_false_iff_ne.mpr same]
    exact lookup_filter_ne resolver.modules same

@[simp] theorem searchPaths_insert (resolver : Resolver) (name : String) (module : Module) :
    (resolver.insert name module).searchPaths = resolver.searchPaths := rfl

/-! ## Loading -/

/-- A module that is loaded has been at hand or comes from one of its files. -/
theorem load_eq_ok :
    resolver.load files name = .ok (module, after) ↔
      resolver.find? name = some module ∧ after = resolver ∨
      resolver.find? name = none ∧ ∃ path, resolver.locate files name = .ok path ∧
        files.readModule path = .ok module ∧ after = resolver.insert name module := by
  unfold load
  cases here : resolver.find? name with
  | some stored =>
      simp only [Except.ok.injEq, Prod.mk.injEq, Option.some.injEq, reduceCtorEq, false_and, or_false]
      exact and_congr_right' eq_comm
  | none =>
      simp only [Outcome.bind_eq_ok, Outcome.pure_eq, Except.ok.injEq, Prod.mk.injEq, reduceCtorEq,
        false_and, false_or, true_and]
      constructor
      · rintro ⟨path, located, _, read, rfl, rfl⟩
        exact ⟨path, located, read, rfl⟩
      · rintro ⟨path, located, read, rfl⟩
        exact ⟨path, located, module, read, rfl, rfl⟩

theorem mem_candidates_of_locate {path : String} (located : resolver.locate files name = .ok path) :
    path ∈ resolver.candidates name := by
  unfold locate at located
  split at located
  · next found =>
    obtain rfl := Except.ok.inj located
    exact List.mem_of_find?_eq_some found
  · cases located

theorem find?_of_load (loaded : resolver.load files name = .ok (module, after)) :
    after.find? name = some module := by
  rcases load_eq_ok.mp loaded with ⟨here, rfl⟩ | ⟨-, _, -, -, rfl⟩
  · exact here
  · rw [find?_insert, if_pos rfl]

theorem find?_load_of_some (loaded : resolver.load files name = .ok (module, after)) {stored : Module}
    (here : resolver.find? other = some stored) : after.find? other = some stored := by
  rcases load_eq_ok.mp loaded with ⟨-, rfl⟩ | ⟨absent, _, -, -, rfl⟩
  · exact here
  · rw [find?_insert, if_neg, here]
    rintro rfl
    rw [absent] at here
    cases here

theorem eq_of_load_of_nil (bare : resolver.searchPaths = [])
    (loaded : resolver.load files name = .ok (module, after)) : after = resolver := by
  rcases load_eq_ok.mp loaded with ⟨-, rfl⟩ | ⟨-, path, located, -, -⟩
  · rfl
  · have candidate := mem_candidates_of_locate located
    rw [candidates, bare] at candidate
    cases candidate

/-- What a load preserves a preload preserves. -/
theorem loadAll_preserves {holds : Resolver → Prop}
    (preserved : ∀ {resolver name module after}, holds resolver →
      resolver.load files name = .ok (module, after) → holds after)
    (target : String) (budget : Nat) (pending seen : List String) (start : holds resolver) :
    holds (resolver.loadAll files target budget pending seen).2 := by
  induction budget generalizing pending seen resolver with
  | zero => exact start
  | succ budget hypothesis =>
      cases pending with
      | nil => exact start
      | cons name pending =>
          unfold loadAll
          simp only
          split
          · exact hypothesis pending seen start
          · split
            · exact start
            · next loaded => exact hypothesis _ _ (preserved start loaded)

end Resolver

end PropertyWeaver
