import PropertyWeaver.Proofs.Storage.Loading
import PropertyWeaver.Proofs.Storage.Paths

/-!
# Saving over a file

A text is followed component by component, and each step starts from a directory. So what a text names
does not change as long as no directory goes away. A module is saved by a write next to its file and a
move over it: the file has its old content or the whole new one.
-/

set_option autoImplicit false

namespace PropertyWeaver

def Place.above : Place → Place
  | .enclosing => .enclosing
  | .within path => if path = [] then .enclosing else .within path.dropLast

/-- A component that is the name of an entry. -/
def Path.Names (component : String) : Prop :=
  component ≠ "" ∧ component ≠ "." ∧ component ≠ ".."

namespace FileSystem

variable {files after : FileSystem} {place next : Place} {component : String}
  {components : List String} {path other : Path} {entry : FileEntry}

@[simp] theorem entry?_nil (files : FileSystem) : files.entry? [] = some .directory := rfl

private theorem entry?_put (nonempty : path ≠ []) (other : Path) :
    FileSystem.entry? (files.put path entry) other =
      if other = path then some entry else files.entry? other := by
  by_cases root : other = []
  · subst root
    rw [if_neg (Ne.symm nonempty)]
    rfl
  · simp only [ entry?, if_neg root, put]
    rw [List.lookup_cons]
    by_cases same : other = path
    · rw [if_pos same, beq_iff_eq.mpr same]
    · rw [if_neg same, beq_eq_false_iff_ne.mpr same]
      exact @lookup_filter_ne Path FileEntry _ _ _ files.entries path other same

private theorem entry?_remove (different : other ≠ path) :
    FileSystem.entry? (files.remove path) other = files.entry? other := by
  unfold entry?
  split
  · rfl
  · exact @lookup_filter_ne Path FileEntry _ _ _ files.entries path other different

/-! ## Following components -/

/-- Where a component leads: it is idle, it goes up, or it names an entry below the place. -/
theorem follow_one :
    files.follow place [component] = .ok next ↔ files.entryAt? place = some .directory ∧
      ((component = "" ∨ component = ".") ∧ place = next ∨
        component = ".." ∧ place.above = next ∨
        Path.Names component ∧ ∃ path, place = .within path ∧ .within (path ++ [component]) = next) := by
  unfold follow
  split
  · next absent => simp [absent]
  · next file => simp [file]
  · next directory =>
    rw [directory]
    by_cases idle : component = "" ∨ component = "."
    · have named : ¬ Path.Names component := fun names => idle.elim names.1 names.2.1
      have upward : component ≠ ".." := by rcases idle with rfl | rfl <;> decide
      simp [idle, named, upward, follow]
    · obtain ⟨nonempty, plain⟩ := not_or.mp idle
      rw [if_neg idle]
      cases place with
      | enclosing =>
          by_cases upward : component = ".."
          · simp [upward, follow, Place.above, Path.Names]
          · simp [upward, idle]
      | within path =>
          by_cases upward : component = ".."
          · by_cases root : path = []
            · simp [upward, root, follow, Place.above, Path.Names]
            · simp [upward, root, follow, Place.above, Path.Names]
          · simp [upward, follow, Path.Names, nonempty, plain]

private theorem follow_cons (files : FileSystem) (place : Place) (component : String)
    (components : List String) :
    files.follow place (component :: components) =
      files.follow place [component] >>= fun next => files.follow next components := by
  simp only [follow]
  split
  · rfl
  · rfl
  · split
    · rfl
    · split
      · split <;> rfl
      · split
        · rfl
        · split <;> rfl

private theorem follow_append (files : FileSystem) (place : Place) (front back : List String) :
    files.follow place (front ++ back) =
      files.follow place front >>= fun next => files.follow next back := by
  induction front generalizing place with
  | nil => rfl
  | cons component front hypothesis =>
      rw [List.cons_append, follow_cons, follow_cons files place component front, bind_assoc]
      exact bind_congr fun next => hypothesis next

private theorem follow_induction {holds : Place → Prop} (start : holds place)
    (step : ∀ place component next, files.follow place [component] = .ok next → holds place →
      holds next)
    (leads : files.follow place components = .ok next) : holds next := by
  induction components generalizing place with
  | nil =>
      obtain rfl := Except.ok.inj leads
      exact start
  | cons component components hypothesis =>
      rw [follow_cons] at leads
      obtain ⟨between, first, rest⟩ := Outcome.bind_eq_ok.mp leads
      exact hypothesis (step place component between first start) rest

private theorem follow_enclosing (leads : files.follow .enclosing components = .ok next) :
    next = .enclosing := by
  have kept : ∀ place component next, files.follow place [component] = .ok next →
      place = .enclosing → next = .enclosing := by
    rintro place component next step rfl
    obtain ⟨-, ⟨-, rfl⟩ | ⟨-, rfl⟩ | ⟨-, path, within, -⟩⟩ := follow_one.mp step
    · rfl
    · rfl
    · cases within
  exact @follow_induction files .enclosing next components (· = .enclosing) rfl kept leads

/-- All that is above the place is a directory. -/
def Grounded (files : FileSystem) (place : Place) : Prop :=
  ∀ path, place = .within path → ∀ front back, path = front ++ back → back ≠ [] →
    files.entry? front = some .directory

private theorem grounded_of_follow (grounded : files.Grounded place)
    (leads : files.follow place components = .ok next) : files.Grounded next := by
  refine follow_induction grounded (fun place component next step grounded => ?_) leads
  obtain ⟨directory, ⟨-, rfl⟩ | ⟨-, rfl⟩ | ⟨-, path, rfl, rfl⟩⟩ := follow_one.mp step
  · exact grounded
  · intro path within front back whole nonempty
    cases place with
    | enclosing => cases within
    | within below =>
        simp only [Place.above] at within
        split at within
        · cases within
        · next deep =>
          cases within
          have whole' : below = front ++ (back ++ [below.getLast deep]) := by
            rw [← List.append_assoc, ← whole, List.dropLast_append_getLast]
          exact grounded below rfl front _ whole' (by simp)
  · intro longer within front back whole nonempty
    cases within
    rcases List.eq_nil_or_concat' back with rfl | ⟨back, last, rfl⟩
    · exact absurd rfl nonempty
    · rw [← List.append_assoc] at whole
      obtain ⟨rfl, -⟩ := List.append_inj' whole rfl
      by_cases here : back = []
      · subst here
        rw [List.append_nil] at directory
        exact directory
      · exact grounded _ rfl front back rfl here

def Keeps (files after : FileSystem) : Prop :=
  ∀ path, files.entry? path = some .directory → after.entry? path = some .directory

private theorem Keeps.trans {between : FileSystem} (first : files.Keeps between)
    (second : between.Keeps after) :
    files.Keeps after :=
  fun path directory => second path (first path directory)

private theorem Keeps.follow (keeps : files.Keeps after)
    (leads : files.follow place components = .ok next) :
    after.follow place components = .ok next := by
  induction components generalizing place with
  | nil => exact leads
  | cons component components hypothesis =>
      rw [follow_cons] at leads ⊢
      obtain ⟨between, first, rest⟩ := Outcome.bind_eq_ok.mp leads
      obtain ⟨directory, move⟩ := follow_one.mp first
      have directory' : after.entryAt? place = some .directory := by
        cases place with
        | enclosing => rfl
        | within path => exact keeps path directory
      rw [follow_one.mpr ⟨directory', move⟩]
      exact hypothesis rest

private theorem Keeps.locate (keeps : files.Keeps after) {text : String}
    (located : files.locate text = .ok place) : after.locate text = .ok place := by
  unfold FileSystem.locate at located ⊢
  split at located
  · cases located
  · next present =>
    rw [if_neg present]
    exact keeps.follow located

private theorem keeps_put (other : files.entry? path ≠ some .directory) (entry : FileEntry) :
    files.Keeps (files.put path entry) := by
  intro directory found
  have nonempty : path ≠ [] := by
    rintro rfl
    exact other rfl
  rw [entry?_put nonempty, if_neg, found]
  rintro rfl
  exact other found

private theorem keeps_remove (other : files.entry? path ≠ some .directory) :
    files.Keeps (files.remove path) := by
  intro directory found
  rw [entry?_remove, found]
  rintro rfl
  exact other found

/-! ## Reading -/

theorem read_eq_ok {text : String} {content : Bytes} :
    files.read text = .ok content ↔
      ∃ path, files.locate text = .ok (.within path) ∧ files.entry? path = some (.file content) := by
  simp only [read, Outcome.bind_eq_ok]
  constructor
  · rintro ⟨place, located, rest⟩
    split at rest
    · next found =>
      obtain rfl := Except.ok.inj rest
      cases place with
      | enclosing => cases found
      | within path => exact ⟨path, located, found⟩
    · cases rest
    · cases rest
  · rintro ⟨path, located, found⟩
    refine ⟨.within path, located, ?_⟩
    rw [show files.entryAt? (.within path) = some (.file content) from found]
    rfl

/-! ## The file next to a file -/

private theorem follow_idle {parts : List (List Char)} (idle : ∀ part ∈ parts, Path.Idle part)
    (leads : files.follow place (parts.map String.ofList) = .ok next) : next = place := by
  induction parts generalizing place with
  | nil => exact (Except.ok.inj leads).symm
  | cons part parts hypothesis =>
      obtain ⟨here, others⟩ := List.forall_mem_cons.mp idle
      rw [List.map_cons, follow_cons] at leads
      obtain ⟨between, first, rest⟩ := Outcome.bind_eq_ok.mp leads
      have stays : files.follow place [String.ofList part] = .ok between → between = place := by
        intro step
        rcases here with rfl | rfl
        · obtain ⟨-, ⟨-, same⟩ | ⟨upward, -⟩ | ⟨names, -⟩⟩ := follow_one.mp step
          · exact same.symm
          · exact absurd upward (by decide)
          · exact absurd names (by simp [Path.Names])
        · obtain ⟨-, ⟨-, same⟩ | ⟨upward, -⟩ | ⟨names, -⟩⟩ := follow_one.mp step
          · exact same.symm
          · exact absurd upward (by decide)
          · exact absurd names (by simp [Path.Names])
      rw [hypothesis others rest, stays first]

/-- Directories above a file are directories, so the last component names the file. -/
theorem parent_of_follow {name : String} {content : Bytes} (grounded : files.Grounded place)
    (leads : files.follow place [name] = .ok (.within path))
    (stored : files.entry? path = some (.file content)) :
    Path.Names name ∧ ∃ directory, place = .within directory ∧ path = directory ++ [name] ∧
      files.entry? directory = some .directory := by
  obtain ⟨directory, ⟨-, rfl⟩ | ⟨-, above⟩ | ⟨names, below, rfl, same⟩⟩ := follow_one.mp leads
  · rw [show files.entryAt? (.within path) = some (.file content) from stored] at directory
    cases directory
  · cases place with
    | enclosing => cases above
    | within below =>
        simp only [Place.above] at above
        split at above
        · cases above
        · next deep =>
          cases above
          have whole := (List.dropLast_append_getLast deep).symm
          rw [grounded below rfl _ _ whole (List.cons_ne_nil _ _)] at stored
          cases stored
  · cases same
    exact ⟨names, below, rfl, rfl, directory⟩

private theorem names_append (name : List Char) : Path.Names
    (String.ofList (name ++ ".tmp".toList)) := by
  have long : 2 < (String.ofList (name ++ ".tmp".toList)).toList.length := by simp
  refine ⟨?_, ?_, ?_⟩ <;> intro short <;> rw [short] at long <;> exact absurd long (by decide)

private theorem grounded_root (files : FileSystem) : files.Grounded (.within []) := by
  intro path within front back same nonempty
  cases within
  exact absurd (List.append_eq_nil_iff.mp same.symm).2 nonempty

private theorem locate_eq_within {text : String} :
    files.locate text = .ok (.within path) ↔ text ≠ "" ∧ ¬ text.startsWith "/" = true ∧
      files.follow (.within []) (Path.components text) = .ok (.within path) := by
  unfold locate
  by_cases empty : text = ""
  · subst empty
    simp
  rw [if_neg (mt String.isEmpty_iff.mp empty)]
  by_cases rooted : text.startsWith "/" = true
  · rw [if_pos rooted]
    constructor
    · intro leads
      cases follow_enclosing leads
    · exact fun outside => absurd rooted outside.2.1
  · rw [if_neg rooted]
    exact ⟨fun leads => ⟨empty, rooted, leads⟩, fun inside => inside.2.2⟩

private theorem exists_draft {text : String} {content : Bytes}
    (readable : files.read text = .ok content) :
    ∃ directory name, files.locate text = .ok (.within (directory ++ [name])) ∧
      files.entry? (directory ++ [name]) = some (.file content) ∧
      files.locate (Path.sibling text ".tmp") = .ok (.within (directory ++ [name ++ ".tmp"])) := by
  obtain ⟨path, located, stored⟩ := read_eq_ok.mp readable
  have plain : '/' ∉ ".tmp".toList := by decide
  obtain ⟨front, dropped, leading, name, split, idle, leads, sibling⟩ :=
    Path.splitSlashes_sibling text plain
  obtain ⟨nonempty, relative, whole⟩ := locate_eq_within.mp located
  rw [Path.components, split, List.map_append, follow_append] at whole
  obtain ⟨between, walked, last⟩ := Outcome.bind_eq_ok.mp whole
  obtain ⟨names, directory, rfl, rfl, here⟩ :=
    parent_of_follow (grounded_of_follow files.grounded_root walked) last stored
  refine ⟨directory, String.ofList name, located, stored, ?_⟩
  -- The draft is named without the idle components, which lead nowhere.
  rw [List.map_append, follow_append] at walked
  obtain ⟨between, walked, rest⟩ := Outcome.bind_eq_ok.mp walked
  obtain rfl := follow_idle idle rest
  have reached : files.follow (.within []) (leading.map String.ofList) = .ok (.within directory) := by
    rcases leads with rfl | ⟨rfl, rfl⟩
    · exact walked
    · obtain rfl : [] = directory := Place.within.inj (Except.ok.inj walked)
      exact follow_one.mpr ⟨rfl, .inl ⟨.inr rfl, rfl⟩⟩
  obtain ⟨nonempty', relative'⟩ := Path.relative_sibling plain (by decide) nonempty relative
  refine locate_eq_within.mpr ⟨nonempty', relative', ?_⟩
  rw [Path.components, sibling, List.map_append, follow_append, reached]
  exact follow_one.mpr ⟨here, .inr (.inr ⟨names_append name, directory, rfl, by simp⟩)⟩

theorem readModule_eq_ok {text : String} {module : Module} :
    files.readModule text = .ok module ↔
      ∃ image, files.read text = .ok image ∧ Module.decode image = .ok module := by
  unfold readModule
  cases files.read text with
  | error fault => simp
  | ok image => simp

/-! ## Saving -/

private theorem write_cases {text : String} (located : files.locate text = .ok (.within path))
    (content : Bytes) :
    (∃ fault, files.write text content = (.error fault, files)) ∨
      files.entry? path ≠ some .directory ∧
        ((∃ fault part, files.write text content = (.error fault, files.put path (.file part))) ∨
          files.write text content = (.ok (), files.put path (.file content))) := by
  unfold write
  rw [located]
  simp only
  split
  · exact .inl ⟨_, rfl⟩
  · next other =>
    refine .inr ⟨other, ?_⟩
    split
    · exact .inl ⟨_, _, rfl⟩
    · exact .inr rfl

private theorem rename_cases {source target : String} {content : Bytes}
    (drafted : files.locate source = .ok (.within path))
    (located : files.locate target = .ok (.within other))
    (stored : files.entry? path = some (.file content)) :
    (∃ fault, files.rename source target = (.error fault, files)) ∨
      files.rename source target = (.ok (), (files.remove path).put other (.file content)) := by
  unfold rename
  rw [drafted, located]
  simp only [stored]
  split
  · exact .inl ⟨_, rfl⟩
  · split
    · exact .inl ⟨_, rfl⟩
    · exact .inr rfl

/-- Saving fails with at most a draft, or the draft has taken the place of the file. -/
theorem saveModule_cases {text : String} {draft target : Path} (module : Module)
    (drafted : files.locate (Path.sibling text ".tmp") = .ok (.within draft))
    (located : files.locate text = .ok (.within target)) :
    (∃ error, files.saveModule text module = (.error error, files)) ∨
      files.entry? draft ≠ some .directory ∧
        ((∃ error part, files.saveModule text module = (.error error, files.put draft (.file part))) ∨
          files.saveModule text module =
            (.ok (), ((files.put draft (.file module.encode)).remove draft).put target
              (.file module.encode))) := by
  unfold saveModule
  rcases write_cases drafted module.encode with ⟨fault, failed⟩ | ⟨other, written⟩
  · exact .inl ⟨.file (Path.sibling text ".tmp") fault, by simp only [failed]⟩
  refine .inr ⟨other, ?_⟩
  rcases written with ⟨fault, part, failed⟩ | written
  · exact .inl ⟨.file (Path.sibling text ".tmp") fault, part, by simp only [failed]⟩
  have nonempty : draft ≠ [] := by
    rintro rfl
    exact other rfl
  have keeps := keeps_put other (.file module.encode)
  have stored : FileSystem.entry? (files.put draft (.file module.encode)) draft =
      some (.file module.encode) := by
    rw [entry?_put nonempty, if_pos rfl]
  rcases rename_cases (keeps.locate drafted) (keeps.locate located) stored with
    ⟨fault, failed⟩ | moved
  · exact .inl ⟨.file text fault, module.encode, by simp only [written, failed]⟩
  · exact .inr (by simp only [written, moved])

section Replacement

variable {text : String} {draft target : Path} {content : Bytes}
  (located : files.locate text = .ok (.within target))
  (stored : files.entry? target = some (.file content)) (apart : target ≠ draft)
  (vacant : files.entry? draft ≠ some .directory)

include located stored apart vacant

private theorem read_put_draft (nonempty : draft ≠ []) (part : Bytes) :
    (files.put draft (.file part)).read text = .ok content := by
  have keeps := keeps_put vacant (.file part)
  refine read_eq_ok.mpr ⟨target, keeps.locate located, ?_⟩
  rw [entry?_put nonempty, if_neg apart, stored]

private theorem read_replaced (nonempty : draft ≠ []) (nonempty' : target ≠ []) (image : Bytes) :
    (((files.put draft (.file image)).remove draft).put target (.file image)).read text =
      .ok image := by
  have written := keeps_put vacant (.file image)
  have regular : FileSystem.entry? (files.put draft (.file image)) draft ≠ some .directory := by
    rw [entry?_put nonempty, if_pos rfl]
    simp
  have present : FileSystem.entry? ((files.put draft (.file image)).remove draft) target =
      some (.file content) := by
    rw [entry?_remove apart, entry?_put nonempty, if_neg apart, stored]
  have replaced := keeps_put (by rw [present]; simp) (.file image)
  have keeps := (written.trans (keeps_remove regular)).trans replaced
  refine read_eq_ok.mpr ⟨target, keeps.locate located, ?_⟩
  rw [entry?_put nonempty', if_pos rfl]

end Replacement

/-- A module that is saved over a file that can be read replaces the whole content of the file, or none
of it. No other entry changes but that of the draft. -/
theorem saveModule_spec {text : String} {content : Bytes} (readable : files.read text = .ok content)
    (module : Module) :
    (∀ error, (files.saveModule text module).1 = .error error →
      (files.saveModule text module).2.read text = .ok content) ∧
    ((files.saveModule text module).1 = .ok () →
      (files.saveModule text module).2.read text = .ok module.encode) ∧
    ∀ path, files.locate text ≠ .ok (.within path) →
      files.locate (Path.sibling text ".tmp") ≠ .ok (.within path) →
      FileSystem.entry? (files.saveModule text module).2 path = files.entry? path := by
  obtain ⟨directory, name, located, stored, drafted⟩ := exists_draft readable
  have nonempty : directory ++ [name] ≠ [] := by simp
  have nonempty' : directory ++ [name ++ ".tmp"] ≠ [] := by simp
  -- Both are in one directory, so what keeps the draft from being the file is the length of its name.
  have apart : directory ++ [name] ≠ directory ++ [name ++ ".tmp"] := by
    intro same
    have names : name = name ++ ".tmp" := by simpa using same
    have lengths := congrArg String.length names
    simp at lengths
  generalize directory ++ [name] = target at *
  generalize directory ++ [name ++ ".tmp"] = draft at *
  rcases saveModule_cases module drafted located with ⟨error, failed⟩ | ⟨other, saved⟩
  · rw [failed]
    refine ⟨fun _ _ => readable, fun succeeds => ?_, fun _ _ _ => rfl⟩
    cases succeeds
  rcases saved with ⟨error, part, failed⟩ | saved
  · rw [failed]
    refine ⟨fun _ _ => read_put_draft located stored apart other nonempty' part, fun succeeds => ?_,
      fun path _ elsewhere => ?_⟩
    · cases succeeds
    · have different : path ≠ draft := fun same => elsewhere (same ▸ drafted)
      rw [entry?_put nonempty', if_neg different]
  · rw [saved]
    refine ⟨fun error fails => ?_, fun _ =>
      read_replaced located stored apart other nonempty' nonempty module.encode,
      fun path elsewhere elsewhere' => ?_⟩
    · cases fails
    · have different : path ≠ target := fun same => elsewhere (same ▸ located)
      have different' : path ≠ draft := fun same => elsewhere' (same ▸ drafted)
      rw [entry?_put nonempty, if_neg different, entry?_remove different', entry?_put nonempty',
        if_neg different']

end FileSystem

end PropertyWeaver
