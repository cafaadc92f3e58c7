import SessionDirectory.Files.Tree
import SessionDirectory.Proofs.Text

/-!
# Reading files in memory

A file that is put into a tree is read at its path, whatever the working directory is, as long as
no other file is on the way to it. What is at a place on the way was there before or is a directory.

## Main definitions

* `FileTree.IsName`: the names that a path leads to as they stand
* `FileTree.pathTo`: the path to a place

## Main results

* `FileTree.at_put_on_way`: what is on the way to an entry
* `FileTree.walk_of_names`: names that lead through directories lead to the place of these names
* `FileTree.files_put`, `FileTree.files_put_empty`: a file is read at its path
-/

set_option autoImplicit false

namespace SessionDirectory.FileTree

variable {t : FileTree} {place before after : List String} {entry : FileEntry} {text : String}

/-- A path leads to a name as it stands: it is no dot segment, and nothing ends it. -/
structure IsName (name : String) : Prop where
  nonempty : name ≠ ""
  notDot : name ≠ "."
  notDots : name ≠ ".."
  slash : '/' ∉ name.toList
  null : '\x00' ∉ name.toList

/-- The path from the root to a place. -/
def pathTo (place : List String) : String :=
  String.ofList (['/'].intercalate ([] :: place.map String.toList))

theorem at_put_self (t : FileTree) (place : List String) (entry : FileEntry) :
    FileTree.entry? (t.put place entry) place = some entry := by
  simp [put, entry?]

/-- On the way to an entry there is what was there before, or else a directory. -/
theorem at_put_on_way (ne : before ≠ place) (way : before <+: place) :
    FileTree.entry? (t.put place entry) before = some ((t.entry? before).getD .directory) := by
  have other : ¬ place = before := fun same => ne same.symm
  simp only [put, entry?, List.reverse_append, List.reverse_singleton, List.singleton_append,
    List.find?_cons, other, decide_false]
  cases t.entries.reverse.find? fun e => e.1 = before with
  | some e => rfl
  | none =>
    have new : before.isPrefixOf place = true := List.isPrefixOf_iff_prefix.mpr way
    simp only [List.any_append, List.any_cons, new, Bool.true_or, Bool.or_true, if_true]
    split <;> rfl

/-- Where no file is on the way to an entry, there are directories. -/
theorem directory_of_way {front : List String} (start : front <+: place) (ne : front ≠ place)
    (way : ∀ content, t.entry? front ≠ some (.file content)) :
    FileTree.entry? (t.put place entry) front = some .directory := by
  rw [at_put_on_way ne start]
  cases before : t.entry? front with
  | none => rfl
  | some entry =>
    cases entry with
    | directory => rfl
    | file content => exact absurd before (way content)

theorem read_of_file (found : t.entry? place = some (.file text.toUTF8)) :
    t.read place = .ok text := by
  have own : String.fromUTF8? text.toUTF8 = some text := dif_pos text.isValidUTF8
  simp only [FileTree.read, found, own]

/-- **Names that lead through directories lead to the place of these names.** -/
theorem walk_of_names (names : ∀ name ∈ after, IsName name)
    (way : ∀ front, before <+: front → front <+: before ++ after → front ≠ before ++ after →
      t.entry? front = some .directory) :
    t.walk before after = .ok (before ++ after) := by
  induction after generalizing before with
  | nil => rw [walk, List.append_nil]
  | cons name rest ih =>
    obtain ⟨isName, names⟩ := List.forall_mem_cons.mp names
    have here := way before (List.prefix_refl _) (List.prefix_append _ _) (by simp)
    have stays : ¬ (name = "" ∨ name = ".") := not_or.mpr ⟨isName.nonempty, isName.notDot⟩
    rw [List.append_cons] at way ⊢
    rw [walk, here]
    show (if _ then _ else if _ then _ else _) = _
    rw [if_neg stays, if_neg isName.notDots]
    exact ih names fun front start => way front ((List.prefix_append _ _).trans start)

theorem toList_pathTo (nonempty : place ≠ []) :
    (pathTo place).toList = '/' :: ['/'].intercalate (place.map String.toList) := by
  obtain ⟨name, rest, rfl⟩ := List.exists_cons_of_ne_nil nonempty
  rw [pathTo, String.toList_ofList, List.map_cons, List.intercalate_cons_cons]
  rfl

theorem parts_pathTo (names : ∀ name ∈ place, IsName name) :
    parts (pathTo place) = "" :: place := by
  have plain : ∀ part ∈ [] :: place.map String.toList, '/' ∉ part := by
    rw [List.forall_mem_cons, List.forall_mem_map]
    exact ⟨List.not_mem_nil, fun name mem => (names name mem).slash⟩
  rw [parts, pathTo, String.toList_ofList, Text.split_intercalate plain (List.cons_ne_nil _ _)]
  simp

theorem null_not_mem_pathTo (names : ∀ name ∈ place, IsName name) :
    '\x00' ∉ (pathTo place).toList := by
  rw [pathTo, String.toList_ofList]
  intro mem
  rcases Text.mem_intercalate mem with slash | ⟨part, inPath, mem⟩
  · exact absurd slash (by decide)
  · rcases List.mem_cons.mp inPath with rfl | inPlace
    · cases mem
    · obtain ⟨name, named, rfl⟩ := List.mem_map.mp inPlace
      exact (names name named).null mem

/-- **A file is read at its path**, if no other file is on the way to it. -/
theorem files_put (nonempty : place ≠ []) (names : ∀ name ∈ place, IsName name)
    (way : ∀ front, front <+: place → front ≠ place →
      ∀ content, t.entry? front ≠ some (.file content))
    (workingDirectory : List String) :
    (t.put place (.file text.toUTF8)).files workingDirectory (pathTo place) = .ok text := by
  have directories : ∀ front, front <+: place → front ≠ place →
      FileTree.entry? (t.put place (.file text.toUTF8)) front = some .directory :=
    fun front start ne => directory_of_way start ne (way front start ne)
  have walked : (t.put place (.file text.toUTF8)).walk [] ("" :: place) = .ok place := by
    rw [walk, directories [] List.nil_prefix nonempty.symm]
    exact walk_of_names names fun front _ => directories front
  have start := toList_pathTo nonempty
  have path : ¬ (pathTo place).isEmpty = true := by
    rw [String.isEmpty_iff, ← String.toList_eq_nil_iff, start]
    exact List.cons_ne_nil _ _
  have clean : ¬ (pathTo place).toList.contains '\x00' = true := by
    simpa using null_not_mem_pathTo names
  rw [files, if_neg path, if_neg clean, parts_pathTo names, start]
  -- The path starts with a slash, so it is walked from the root.
  simp only [List.head?_cons, if_true, walked]
  exact read_of_file (at_put_self t place _)

/-- A file that is alone in its tree is read at its path. -/
theorem files_put_empty (nonempty : place ≠ []) (names : ∀ name ∈ place, IsName name)
    (workingDirectory : List String) :
    (empty.put place (.file text.toUTF8)).files workingDirectory (pathTo place) = .ok text := by
  refine files_put nonempty names (fun front _ _ content => ?_) workingDirectory
  show (if _ then some FileEntry.directory else none) ≠ some (.file content)
  split <;> exact nofun

end SessionDirectory.FileTree
