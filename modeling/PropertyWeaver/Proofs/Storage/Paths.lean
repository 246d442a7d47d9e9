import Mathlib.Data.List.Basic
import Mathlib.Data.List.Induction
import Mathlib.Data.List.TakeWhile
import PropertyWeaver.Storage.FileSystem

/-!
# Components of a path

A text is its components with slashes between them. The file next to a file has the same components but
for the last one, and for dots and empty components that lead nowhere.
-/

set_option autoImplicit false

namespace PropertyWeaver.Path

private theorem splitSlashes_ne_nil (text : List Char) : splitSlashes text ≠ [] := by
  cases text with
  | nil => simp [splitSlashes]
  | cons c rest =>
      unfold splitSlashes
      split
      · simp
      · split <;> simp

private theorem splitSlashes_cons (c : Char) (rest : List Char) :
    ∃ first others, splitSlashes rest = first :: others ∧
      splitSlashes (c :: rest) =
        if c = '/' then [] :: first :: others else (c :: first) :: others := by
  cases split : splitSlashes rest with
  | nil => exact absurd split (splitSlashes_ne_nil rest)
  | cons first others => exact ⟨first, others, rfl, by simp [splitSlashes, split]⟩

private theorem not_mem_of_mem_splitSlashes {text part : List Char}
    (member : part ∈ splitSlashes text) :
    '/' ∉ part := by
  induction text generalizing part with
  | nil =>
      obtain rfl := List.mem_singleton.mp member
      exact List.not_mem_nil
  | cons c rest hypothesis =>
      obtain ⟨first, others, split, whole⟩ := splitSlashes_cons c rest
      rw [whole] at member
      rw [split] at hypothesis
      split at member
      · rcases List.mem_cons.mp member with rfl | member
        · exact List.not_mem_nil
        · exact hypothesis member
      · next other =>
        rcases List.mem_cons.mp member with rfl | member
        · rw [List.mem_cons, not_or]
          exact ⟨Ne.symm other, hypothesis List.mem_cons_self⟩
        · exact hypothesis (List.mem_cons_of_mem _ member)

private theorem splitSlashes_of_not_mem {text : List Char} (plain : '/' ∉ text) :
    splitSlashes text = [text] := by
  induction text with
  | nil => rfl
  | cons c rest hypothesis =>
      obtain ⟨other, plain⟩ := not_or.mp (mt List.mem_cons.mpr plain)
      simp [splitSlashes, hypothesis plain, Ne.symm other]

private theorem splitSlashes_append (front back : List Char) :
    splitSlashes (front ++ '/' :: back) = splitSlashes front ++ splitSlashes back := by
  induction front with
  | nil =>
      obtain ⟨first, others, split, whole⟩ := splitSlashes_cons '/' back
      rw [List.nil_append, whole, split]
      rfl
  | cons c front hypothesis =>
      obtain ⟨first, others, split, whole⟩ := splitSlashes_cons c front
      obtain ⟨first', others', split', whole'⟩ := splitSlashes_cons c (front ++ '/' :: back)
      rw [hypothesis, split, List.cons_append] at split'
      obtain ⟨rfl, rfl⟩ := List.cons.inj split'
      rw [List.cons_append, whole, whole']
      split <;> rfl

private theorem startsWith_iff {text : String} (nonempty : text ≠ "") :
    text.startsWith "/" = true ↔ (splitSlashes text.toList).head? = some [] := by
  rw [String.startsWith_string_iff]
  cases spelled : text.toList with
  | nil => exact absurd (String.toList_eq_nil_iff.mp spelled) nonempty
  | cons c rest =>
      obtain ⟨first, others, -, whole⟩ := splitSlashes_cons c rest
      rw [whole]
      change ['/'] <+: c :: rest ↔ _
      rw [List.cons_prefix_cons]
      by_cases slash : c = '/'
      · simp [slash]
      · simp [slash, Ne.symm slash]

/-! ## Joining -/

def joined (parts : List (List Char)) : String :=
  "/".intercalate (parts.map String.ofList)

private theorem joined_concat {parts : List (List Char)} (nonempty : parts ≠ [])
    (name : List Char) :
    joined (parts ++ [name]) = joined parts ++ "/" ++ String.ofList name := by
  rw [joined, List.map_append, List.map_singleton,
    String.intercalate_append_of_ne_nil (by simpa using nonempty) (by simp),
    String.intercalate_singleton]
  rfl

private theorem splitSlashes_joined {parts : List (List Char)} (nonempty : parts ≠ [])
    (plain : ∀ part ∈ parts, '/' ∉ part) : splitSlashes (joined parts).toList = parts := by
  induction parts using List.reverseRecOn with
  | nil => exact absurd rfl nonempty
  | append_singleton front name hypothesis =>
      obtain ⟨before, last⟩ := List.forall_mem_append.mp plain
      have name' := splitSlashes_of_not_mem (last name (List.mem_singleton_self name))
      cases front with
      | nil => simpa [joined] using name'
      | cons part parts =>
          have separated : (joined (part :: parts ++ [name])).toList =
              (joined (part :: parts)).toList ++ '/' :: name := by
            rw [joined_concat (List.cons_ne_nil _ _)]
            simp
          rw [separated, splitSlashes_append, hypothesis (List.cons_ne_nil _ _) before, name']

private theorem getLast?_joined {parts : List (List Char)} {name : List Char}
    (nonempty : name ≠ []) :
    (joined (parts ++ [name])).toList.getLast? = name.getLast? := by
  cases parts with
  | nil => simp [joined]
  | cons part parts =>
      have last : (joined (part :: parts ++ [name])).toList =
          (joined (part :: parts)).toList ++ ['/'] ++ name := by
        rw [joined_concat (List.cons_ne_nil _ _)]
        simp
      rw [last, List.getLast?_append_of_ne_nil _ nonempty]

/-- A name in a directory is a further component, provided that the text of the directory does not end
in a slash. -/
theorem join_joined {parts : List (List Char)} {name : String} (plain : '/' ∉ name.toList)
    (last : ∀ part ∈ parts.getLast?, part ≠ [] ∧ '/' ∉ part) :
    join (joined parts) name = joined (parts ++ [name.toList]) := by
  have relative : name.startsWith "/" = false := by
    rw [← Bool.not_eq_true, String.startsWith_string_iff]
    rintro ⟨rest, same⟩
    exact plain (same ▸ by simp)
  rcases List.eq_nil_or_concat' parts with rfl | ⟨before, part, rfl⟩
  · simp [join, joined]
  · obtain ⟨nonempty, plain'⟩ := last part List.getLast?_concat
    have final : (joined (before ++ [part])).toList.getLast? = part.getLast? := getLast?_joined nonempty
    have present : (joined (before ++ [part])).isEmpty = false := by
      rw [← Bool.not_eq_true, String.isEmpty_iff]
      intro empty
      rw [empty] at final
      exact nonempty (List.getLast?_eq_none_iff.mp final.symm)
    have open_ : (joined (before ++ [part])).endsWith "/" = false := by
      rw [← Bool.not_eq_true, ← String.endsWith_toSlice, String.Slice.endsWith_string_iff]
      rintro ⟨front, same⟩
      have whole : front ++ ['/'] = (joined (before ++ [part])).toList := by simpa using same
      rw [← whole, List.getLast?_concat] at final
      exact plain' (List.mem_of_getLast? final.symm)
    have further : before ++ [part] ≠ [] := by simp
    rw [joined_concat further name.toList, String.ofList_toList, join, relative, present, open_]
    rfl

/-! ## The file next to a file -/

def Idle (part : List Char) : Prop :=
  part = [] ∨ part = ['.']

private theorem exists_dropped (parts : List (List Char)) :
    ∃ front dropped, parts = front ++ dropped ∧ (∀ part ∈ dropped, Idle part) ∧
      (∀ part ∈ front.getLast?, ¬ Idle part) ∧
      front = (parts.reverse.dropWhile fun part => part = [] || part = ['.']).reverse := by
  refine ⟨_, (parts.reverse.takeWhile fun part => part = [] || part = ['.']).reverse, ?_, ?_, ?_, rfl⟩
  · rw [← List.reverse_append, List.takeWhile_append_dropWhile, List.reverse_reverse]
  · intro part member
    simpa [Idle] using List.mem_takeWhile_imp (List.mem_reverse.mp member)
  · intro part last
    have first := List.head?_dropWhile_not (fun part => part = [] || part = ['.']) parts.reverse
    rw [List.getLast?_reverse] at last
    rw [Option.mem_def.mp last] at first
    simpa [Idle] using first

/-- The file next to a file has the components of the file but for idle ones before the last one, and a
suffix behind that. -/
theorem splitSlashes_sibling (text : String) {suffix : String} (plain : '/' ∉ suffix.toList) :
    ∃ front dropped leading name, splitSlashes text.toList = front ++ dropped ++ [name] ∧
      (∀ part ∈ dropped, Idle part) ∧ (leading = front ∨ front = [] ∧ leading = [['.']]) ∧
      splitSlashes (sibling text suffix).toList = leading ++ [name ++ suffix.toList] := by
  obtain ⟨parts, name, split⟩ :=
    (List.eq_nil_or_concat' _).resolve_left (splitSlashes_ne_nil text.toList)
  obtain ⟨front, dropped, whole, idle, last, kept⟩ := exists_dropped parts
  have simple : ∀ part ∈ front ++ dropped ++ [name], '/' ∉ part := by
    rw [← whole, ← split]
    exact fun part => not_mem_of_mem_splitSlashes
  have suffixed : '/' ∉ (String.ofList name ++ suffix).toList := by
    simpa using ⟨simple name (by simp), plain⟩
  have named : (String.ofList name ++ suffix).toList = name ++ suffix.toList := by simp
  have spelled : ∀ leading : List (List Char),
      (∀ part ∈ leading, '/' ∉ part) → (∀ part ∈ leading.getLast?, part ≠ []) →
      splitSlashes (join (joined leading) (String.ofList name ++ suffix)).toList =
        leading ++ [name ++ suffix.toList] := by
    intro leading apart proper
    rw [join_joined suffixed fun part ends => ⟨proper part ends, apart part (List.mem_of_getLast? ends)⟩,
      named, splitSlashes_joined (by simp)]
    rw [named] at suffixed
    exact List.forall_mem_append.mpr ⟨apart, List.forall_mem_singleton.mpr suffixed⟩
  have made : sibling text suffix =
      join (joined (if front.isEmpty && parts.reverse.getLast? = some ['.'] then [['.']] else front))
        (String.ofList name ++ suffix) := by
    simp only [sibling, splitName, split, List.reverse_append, List.reverse_singleton,
      List.singleton_append, kept]
    rfl
  refine ⟨front, dropped, _, name, by rw [split, whole], idle, ?_, made ▸ spelled _ ?_ ?_⟩
  · split
    · next only =>
      rw [Bool.and_eq_true, List.isEmpty_iff] at only
      exact .inr ⟨only.1, rfl⟩
    · exact .inl rfl
  · split
    · simp
    · exact fun part member => simple part (by simp [member])
  · split
    · simp
    · exact fun part ends empty => last part ends (.inl empty)

private theorem relative_of_leading {front dropped leading : List (List Char)}
    {name suffix : List Char}
    (leads : leading = front ∨ front = [] ∧ leading = [['.']]) (suffixed : suffix ≠ [])
    (relative : (front ++ dropped ++ [name]).head? ≠ some []) :
    (leading ++ [name ++ suffix]).head? ≠ some [] := by
  rcases leads with rfl | ⟨rfl, rfl⟩
  · cases leading with
    | nil => simp [suffixed]
    | cons part parts => simpa using relative
  · simp

/-- The file next to one that is named from the working directory is so, too. -/
theorem relative_sibling {text suffix : String} (plain : '/' ∉ suffix.toList) (suffixed : suffix ≠ "")
    (nonempty : text ≠ "") (relative : ¬ text.startsWith "/" = true) :
    sibling text suffix ≠ "" ∧ ¬ (sibling text suffix).startsWith "/" = true := by
  obtain ⟨front, dropped, leading, name, split, -, leads, spelled⟩ := splitSlashes_sibling text plain
  have long : suffix.toList ≠ [] := by simpa using suffixed
  have present : sibling text suffix ≠ "" := by
    intro empty
    rw [empty] at spelled
    have last := congrArg List.getLast? spelled
    simp [splitSlashes, suffixed] at last
  refine ⟨present, ?_⟩
  rw [startsWith_iff present, spelled]
  rw [startsWith_iff nonempty, split] at relative
  exact relative_of_leading leads long relative

end PropertyWeaver.Path
