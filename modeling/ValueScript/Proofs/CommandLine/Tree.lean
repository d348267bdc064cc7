import ValueScript.CommandLine.Tree
import ValueScript.Proofs.Attempt
import ValueScript.Proofs.CommandLine.Files

namespace ValueScript.Tree

variable {tree after : Tree} {place : FilePlace} {node : FileNode}

theorem find?_insert_self (named : place.isSuffixOf tree.base = false) :
    (tree.insert place node).find? place = some node := by
  simp [find?, insert, named]

theorem find?_insert_of_ne {other : FilePlace} (apart : other ≠ place) :
    (tree.insert place node).find? other = tree.find? other := by
  have front : (place == other) = false := by simpa using apart.symm
  have kept : (tree.nodes.filter fun old => old.1 != place).find? (fun old => old.1 == other) =
      tree.nodes.find? fun old => old.1 == other := by
    rw [List.find?_filter]
    congr 1
    funext old
    by_cases here : old.1 = other
    · simp [here, apart]
    · simp [here]
  simp only [find?, insert, List.find?_cons, front, kept]

/-- A path that leads through directories leads the same way when something is put where no
directory was. -/
theorem enter_insert {start reached : FilePlace} {names : List String}
    (noDirectory : tree.find? place ≠ some .directory) (entered : tree.enter start names = .ok reached) :
    (tree.insert place node).enter start names = .ok reached := by
  fun_induction tree.enter start names with
  | case1 => exact entered
  | case2 start rest ih => rw [enter]; exact ih entered
  | case3 start rest ih => rw [enter]; exact ih entered
  | case4 => cases entered
  | case5 => cases entered
  | case6 start name rest notHere notParent found ih =>
    have apart : name :: start ≠ place := fun same => noDirectory (same ▸ found)
    rw [enter, find?_insert_of_ne apart, found]
    · exact ih entered
    · exact notHere
    · exact notParent

theorem target_insert {path : String} {goal : FilePlace × Bool}
    (noDirectory : tree.find? place ≠ some .directory) (found : tree.target path = .ok goal) :
    (tree.insert place node).target path = .ok goal := by
  unfold target at found ⊢
  split at found
  next => exact found
  next =>
    obtain ⟨reached, entered, rest⟩ := bind_eq_ok found
    have again : (tree.insert place node).enter ((tree.insert place node).start path) _ = .ok reached :=
      enter_insert noDirectory entered
    rw [again]
    exact rest

theorem write_eq_ok {path content : String} (written : tree.write path content = .ok after) :
    ∃ place, tree.target path = .ok (place, false) ∧ tree.find? place ≠ some .directory ∧
      after = tree.insert place (.file content.toUTF8) := by
  obtain ⟨⟨place, directory⟩, found, rest⟩ := bind_eq_ok written
  dsimp only at rest
  split at rest
  · cases rest
  · rename_i free
    split at rest
    · cases rest
    · rename_i plain
      cases rest
      exact ⟨place, by simpa [plain] using found, free, rfl⟩

theorem encloses_of_free (free : tree.find? place ≠ some .directory) :
    place.isSuffixOf tree.base = false := by
  rw [Bool.eq_false_iff]
  intro encloses
  exact free (by rw [find?, if_pos encloses])

/-- What a tree has at its places. A path that can only mean a directory has no file. -/
def view : FileView Tree FilePlace where
  node? := find?
  place? tree path :=
    match tree.target path with
    | .ok (place, false) => some place
    | _ => none

theorem place?_eq_some_iff {path : String} :
    view.place? tree path = some place ↔ tree.target path = .ok (place, false) := by
  unfold view
  dsimp only
  cases tree.target path with
  | error cause => simp
  | ok goal =>
    obtain ⟨reached, directory⟩ := goal
    cases directory <;> simp

theorem read_eq_ok_iff {path : String} {content : ByteArray} :
    tree.read path = .ok content ↔
      ∃ place, view.place? tree path = some place ∧ tree.find? place = some (.file content) := by
  constructor
  · intro found
    obtain ⟨⟨place, directory⟩, leads, rest⟩ := bind_eq_ok found
    dsimp only at rest
    split at rest
    next => cases rest
    next => cases rest
    next stored =>
      split at rest
      next => cases rest
      next plain =>
        cases rest
        exact ⟨place, place?_eq_some_iff.mpr (by simpa [plain] using leads), stored⟩
  · rintro ⟨place, leads, stored⟩
    rw [read, place?_eq_some_iff.mp leads]
    dsimp only [bind, Except.bind]
    rw [stored]
    rfl

theorem run_write (tree : Tree) (path content : String) :
    (access.write path content).run tree =
      match tree.write path content with
      | .ok after => (.ok (), after)
      | .error cause => (.error cause, tree) := by
  cases written : tree.write path content with
  | ok after =>
    simp [access, written]
    rfl
  | error cause =>
    simp [access, written]
    rfl

/-- Trees behave as files do. A write to them that fails changes nothing at all. -/
theorem lawful : access.Lawful view where
  read_still _ _ := rfl
  read_ok_iff := read_eq_ok_iff
  write_ok {path content before after} wrote := by
    rw [run_write] at wrote
    split at wrote
    next written =>
      cases wrote
      obtain ⟨place, leads, free, rfl⟩ := write_eq_ok written
      have still := @target_insert before place (.file content.toUTF8) path _ free leads
      exact ⟨place, place?_eq_some_iff.mpr leads, place?_eq_some_iff.mpr still,
        find?_insert_self (encloses_of_free free)⟩
    next => cases wrote
  write_elsewhere {path content before after outcome} wrote place apart := by
    rw [run_write] at wrote
    split at wrote
    next written =>
      cases wrote
      obtain ⟨place, leads, free, rfl⟩ := write_eq_ok written
      exact find?_insert_of_ne fun same => apart (same ▸ place?_eq_some_iff.mpr leads)
    next =>
      cases wrote
      rfl

end ValueScript.Tree
