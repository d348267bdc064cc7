import ValueScript.CommandLine.Files

namespace ValueScript

variable {σ Place : Type}

/-- Files as a state keeps them: what there is at a place, and the place where a path has its file. -/
structure FileView (σ Place : Type) where
  node? : σ → Place → Option FileNode
  place? : σ → String → Option Place

namespace FileAccess

/-- Reads give what is there and leave it so. A write that succeeds makes the file of its path or
replaces what it holds; a write that fails may leave anything in that file, but in no other. -/
structure Lawful (access : FileAccess (StateM σ)) (view : FileView σ Place) : Prop where
  read_still (path : String) (state : σ) : ((access.read path).run state).2 = state
  read_ok_iff {path : String} {state : σ} {content : ByteArray} :
    ((access.read path).run state).1 = .ok content ↔
      ∃ place, view.place? state path = some place ∧ view.node? state place = some (.file content)
  write_ok {path content : String} {before after : σ} :
    (access.write path content).run before = (.ok (), after) →
      ∃ place, view.place? before path = some place ∧ view.place? after path = some place ∧
        view.node? after place = some (.file content.toUTF8)
  write_elsewhere {path content : String} {before after : σ} {outcome : Except FileError Unit} :
    (access.write path content).run before = (outcome, after) →
      ∀ place, view.place? before path ≠ some place →
        view.node? after place = view.node? before place

/-- Whether a path leads to a file of this content, and every other place is as it was before. -/
structure Holds (access : FileAccess (StateM σ)) (view : FileView σ Place) (before after : σ)
    (path : String) (content : ByteArray) : Prop where
  reads : ((access.read path).run after).1 = .ok content
  others : ∃ place, view.place? before path = some place ∧
    ∀ other, other ≠ place → view.node? after other = view.node? before other

variable {access : FileAccess (StateM σ)} {view : FileView σ Place} {before after : σ}

theorem Lawful.holds_of_write (lawful : access.Lawful view) {path content : String}
    (written : (access.write path content).run before = (.ok (), after)) :
    access.Holds view before after path content.toUTF8 := by
  obtain ⟨place, leads, still, found⟩ := lawful.write_ok written
  refine ⟨lawful.read_ok_iff.mpr ⟨place, still, found⟩, place, leads, fun other apart => ?_⟩
  exact lawful.write_elsewhere written other fun same => apart (Option.some.inj (same.symm.trans leads))

end FileAccess

end ValueScript
