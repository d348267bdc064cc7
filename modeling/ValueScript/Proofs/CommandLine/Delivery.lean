import ValueScript.CommandLine.Run
import ValueScript.Proofs.CommandLine.Report
import ValueScript.Proofs.CommandLine.Tree
import ValueScript.Proofs.Machine.Steps

/-! What a run that emits a script leaves behind. It fails before it delivers anything, or it
delivers the script to one place: a file, a report, or what is printed. -/

namespace ValueScript

section Ends

variable {σ ε δ α β : Type}

/-- Whether steps over a state come to an outcome and leave a state behind. -/
def Ends (steps : ExceptT ε (StateM σ) α) (before : σ) (outcome : Except ε α) (after : σ) : Prop :=
  steps.run.run before = (outcome, after)

variable {before middle after : σ}

theorem ends_pure (result : α) :
    Ends (pure result : ExceptT ε (StateM σ) α) before (.ok result) before :=
  rfl

theorem ends_known (outcome : Except δ α) (wrap : δ → ε) :
    Ends (ExceptT.adapt wrap (ExceptT.mk (pure outcome)) : ExceptT ε (StateM σ) α) before
      (outcome.mapError wrap) before := by
  cases outcome <;> rfl

theorem ends_adapt {steps : StateM σ (Except δ α)} {outcome : Except δ α} (wrap : δ → ε)
    (run : steps.run before = (outcome, after)) :
    Ends (ExceptT.adapt wrap (ExceptT.mk steps)) before (outcome.mapError wrap) after := by
  unfold Ends ExceptT.adapt
  rw [ExceptT.run_mk, StateT.run_map, ExceptT.mk, run]
  rfl

theorem Ends.bind {steps : ExceptT ε (StateM σ) α} {next : α → ExceptT ε (StateM σ) β} {result : α}
    {outcome : Except ε β} (first : Ends steps before (.ok result) middle)
    (rest : Ends (next result) middle outcome after) :
    Ends (steps >>= next) before outcome after := by
  unfold Ends at first rest ⊢
  rw [ExceptT.run_bind, StateT.run_bind, first]
  exact rest

theorem Ends.bind_error {steps : ExceptT ε (StateM σ) α} {error : ε}
    (failed : Ends steps before (.error error) after) (next : α → ExceptT ε (StateM σ) β) :
    Ends (steps >>= next) before (.error error) after := by
  unfold Ends at failed ⊢
  rw [ExceptT.run_bind, StateT.run_bind, failed]
  rfl

/-- Steps that all leave the state as it is come to the outcomes that follow from each other. -/
theorem Ends.bind_still {steps : ExceptT ε (StateM σ) α} {next : α → ExceptT ε (StateM σ) β}
    {outcome : Except ε α} {part : α → Except ε β} (first : Ends steps before outcome before)
    (rest : ∀ result, Ends (next result) before (part result) before) :
    Ends (steps >>= next) before (outcome >>= part) before := by
  cases outcome with
  | error error => exact first.bind_error next
  | ok result => exact first.bind (rest result)

end Ends

namespace Command

/-- The document of what was read. -/
def loaded (stored : Except FileError ByteArray) : Except RunError Document := do
  let stored ← stored.mapError .file
  (Document.ofBytes stored).mapError .load

/-- What a run needs before it delivers anything: the document of what was read, and its script. -/
def prepared (stored : Except FileError ByteArray) (root : String) (limit : Nat) :
    Except RunError (Document × Script) := do
  let document ← loaded stored
  let script ← (document.value.script limit root).mapError .fault
  return (document, script)

section steps

variable {σ Place : Type} (access : FileAccess (StateM σ)) (file root : String) (limit : Nat)

/-- The steps of a run up to where it has its script. -/
def prepare : ExceptT RunError (StateM σ) (Document × Script) := do
  let document ← load access file
  let script ← ExceptT.adapt .fault (ExceptT.mk (pure (document.value.script limit root)))
  return (document, script)

/-- What a run that emits a script prints when all has succeeded. -/
def printed (out : Option String) (json : Bool) (document : Document) (script : Script) : String :=
  if json then (Report.ofScript file root document.compression out script).pretty 0 ++ "\n"
  else if out.isSome then "" else script.text

/-- The steps of a run after it has its script. -/
def deliver (out : Option String) (json : Bool) (document : Document) (script : Script) :
    ExceptT RunError (StateM σ) String := do
  if let some path := out then
    ExceptT.adapt .file (ExceptT.mk (access.write path script.text))
  return printed file root out json document script

/-- A run that emits a script has it before it delivers anything. -/
theorem run_emit_eq (name out : Option String) (limit : Option Nat) (json : Bool) :
    (emit file name out limit json).run access =
      (do
        let root := name.getD (Path.rootName file)
        let (document, script) ← prepare access file root (limit.getD defaultDepthLimit)
        deliver access file root out json document script) := by
  unfold run prepare deliver printed
  simp only [bind_assoc, pure_bind]
  congr
  funext document
  congr
  funext script
  cases out <;> cases json <;> rfl

variable {access} {view : FileView σ Place} {before after : σ}

theorem ends_load (lawful : access.Lawful view) :
    Ends (load access file) before (loaded ((access.read file).run before).1) before := by
  have read : Ends (ExceptT.adapt RunError.file (ExceptT.mk (access.read file))) before
      (((access.read file).run before).1.mapError .file) before :=
    ends_adapt RunError.file (Prod.ext rfl (lawful.read_still file before))
  exact read.bind_still fun stored => ends_known (Document.ofBytes stored) RunError.load

theorem ends_prepare (lawful : access.Lawful view) :
    Ends (prepare access file root limit) before
      (prepared ((access.read file).run before).1 root limit) before :=
  (ends_load file lawful).bind_still fun document =>
    (ends_known (document.value.script limit root) RunError.fault).bind_still fun script =>
      ends_pure (document, script)

variable {file root} {name out : Option String} {limit : Option Nat} {json : Bool}

/-- Without document or script a run fails with the cause of that and changes no file. -/
theorem ends_of_unprepared (lawful : access.Lawful view) {cause : RunError}
    (failed : prepared ((access.read file).run before).1 (name.getD (Path.rootName file))
      (limit.getD defaultDepthLimit) = .error cause) :
    Ends ((emit file name out limit json).run access) before (.error cause) before := by
  rw [run_emit_eq]
  exact (failed ▸ ends_prepare file _ _ lawful).bind_error _

theorem ends_of_prepared (lawful : access.Lawful view) {document : Document} {script : Script}
    {outcome : Except RunError String}
    (ready : prepared ((access.read file).run before).1 (name.getD (Path.rootName file))
      (limit.getD defaultDepthLimit) = .ok (document, script))
    (delivers : Ends (deliver access file (name.getD (Path.rootName file)) out json document script)
      before outcome after) :
    Ends ((emit file name out limit json).run access) before outcome after := by
  rw [run_emit_eq]
  exact (ready ▸ ends_prepare file _ _ lawful).bind delivers

theorem ends_deliver_error {path : String} {cause : FileError} {script : Script}
    (failed : (access.write path script.text).run before = (.error cause, after)) (json : Bool)
    (document : Document) :
    Ends (deliver access file root (some path) json document script) before
      (.error (.file cause)) after :=
  (ends_adapt RunError.file failed).bind_error _

theorem ends_deliver_written {path : String} {script : Script}
    (written : (access.write path script.text).run before = (.ok (), after)) (json : Bool)
    (document : Document) :
    Ends (deliver access file root (some path) json document script) before
      (.ok (printed file root (some path) json document script)) after :=
  (ends_adapt RunError.file written).bind (ends_pure _)

theorem run_of_ends {parse : List String → Except UsageError Command} {arguments : List String}
    {command : Command} {outcome : Except RunError String} (accepted : parse arguments = .ok command)
    (ends : Ends (command.run access) before outcome after) :
    (runParsed parse access arguments).run before =
      (match outcome with
        | .ok text => ⟨0, text, ""⟩
        | .error cause => ⟨1, "", "error: " ++ cause.message ++ "\n"⟩, after) := by
  unfold Ends at ends
  unfold runParsed
  rw [accepted]
  dsimp only
  rw [StateT.run_bind, ends]
  cases outcome <;> rfl

end steps

end Command

/-- Whether a printed text is a document that describes a script, with this as its text. Reading
rounds what no word can hold, so the bytes of the script have to be fewer. -/
def Reports (printed : String) (script : Script) (text : Option Json) : Prop :=
  script.text.utf8ByteSize < Machine.wordBound →
    ∃ members, Json.read printed.toUTF8 = .ok (.object members) ∧
      Report.Describes members script text

section Delivered

variable {σ Place : Type} (access : FileAccess (StateM σ)) (view : FileView σ Place) (before : σ)
  (script : Script)

/-- Where the text of a script goes, by what a run was asked for: it is printed, it stands in the
report that is printed, or a file holds its bytes and neither of the others has it. -/
inductive Delivered : (out : Option String) → (json : Bool) → (after : σ) → (stdout : String) → Prop
  | printed : Delivered none false before script.text
  | reported {stdout : String} (reports : Reports stdout script (some (.string script.text))) :
    Delivered none true before stdout
  | written {path : String} {after : σ}
    (holds : access.Holds view before after path script.text.toUTF8) :
    Delivered (some path) false after ""
  | writtenAndReported {path : String} {after : σ} {stdout : String}
    (holds : access.Holds view before after path script.text.toUTF8)
    (reports : Reports stdout script none) : Delivered (some path) true after stdout

end Delivered

namespace Command

variable {σ Place : Type} {access : FileAccess (StateM σ)} {view : FileView σ Place} {before after : σ}
  {script : Script} {json : Bool}

theorem delivered_of_printed (file root : String) (document : Document) :
    Delivered access view before script none json before
      (printed file root none json document script) := by
  cases json with
  | false => exact .printed
  | true => exact .reported Report.read_ofScript

theorem delivered_of_written {path : String}
    (holds : access.Holds view before after path script.text.toUTF8) (file root : String)
    (document : Document) :
    Delivered access view before script (some path) json after
      (printed file root (some path) json document script) := by
  cases json with
  | false => exact .written holds
  | true => exact .writtenAndReported holds Report.read_ofScript

/-- A run that is asked for a script delivers it to exactly one place, or fails without printing
anything. A failure before the script is there changes no file, and one in writing its file none but
this. -/
theorem emit_delivers_once (lawful : access.Lawful view)
    {parse : List String → Except UsageError Command} {arguments : List String} {file : String}
    {name out : Option String} {limit : Option Nat} {json : Bool}
    (accepted : parse arguments = .ok (.emit file name out limit json)) (before : σ) :
    let ready := prepared ((access.read file).run before).1 (name.getD (Path.rootName file))
      (limit.getD defaultDepthLimit)
    let outcome := ((runParsed parse access arguments).run before).1
    let after := ((runParsed parse access arguments).run before).2
    let refused := outcome.status = 1 ∧ outcome.stdout = ""
    (∀ cause, ready = .error cause → refused ∧ after = before) ∧
    ∀ document script, ready = .ok (document, script) →
      (∀ path cause, out = some path →
        ((access.write path script.text).run before).1 = .error cause →
          refused ∧ ∀ place, view.place? before path ≠ some place →
            view.node? after place = view.node? before place) ∧
      ((∀ path, out = some path → ((access.write path script.text).run before).1 = .ok ()) →
        outcome.status = 0 ∧ Delivered access view before script out json after outcome.stdout) := by
  intro ready outcome after refused
  have fails {cause : RunError} {left : σ}
      (ends : Ends ((emit file name out limit json).run access) before (.error cause) left) :
      refused ∧ after = left := by
    have ran := run_of_ends accepted ends
    exact ⟨⟨congrArg (·.1.status) ran, congrArg (·.1.stdout) ran⟩, congrArg Prod.snd ran⟩
  have succeeds {text : String} {left : σ}
      (ends : Ends ((emit file name out limit json).run access) before (.ok text) left) :
      outcome = ⟨0, text, ""⟩ ∧ after = left := by
    have ran := run_of_ends accepted ends
    exact ⟨congrArg Prod.fst ran, congrArg Prod.snd ran⟩
  refine ⟨fun cause failed => fails (ends_of_unprepared lawful failed), ?_⟩
  intro document script found
  constructor
  · rintro path cause rfl failed
    have wrote : (access.write path script.text).run before = (.error cause, _) := Prod.ext failed rfl
    obtain ⟨refuses, left⟩ := fails (ends_of_prepared lawful found
      (ends_deliver_error wrote json document))
    rw [left]
    exact ⟨refuses, lawful.write_elsewhere wrote⟩
  · intro writable
    cases out with
    | none =>
      obtain ⟨shown, left⟩ := succeeds (ends_of_prepared lawful found (ends_pure _))
      rw [shown, left]
      exact ⟨rfl, delivered_of_printed _ _ document⟩
    | some path =>
      have wrote : (access.write path script.text).run before = (.ok (), _) :=
        Prod.ext (writable path rfl) rfl
      obtain ⟨shown, left⟩ := succeeds (ends_of_prepared lawful found
        (ends_deliver_written wrote json document))
      rw [shown, left]
      exact ⟨rfl, delivered_of_written (lawful.holds_of_write wrote) _ _ document⟩

/-- A file at an absolute path that is reported on while its script replaces a file, one that has no
script, and one whose script would replace a directory. -/
theorem emit_delivers_once_of_files :
    let tree : Tree := ⟨[(["data"], .directory),
      (["in.json", "data"], .file ⟨#[0x5b, 0x31, 0x5d]⟩),
      (["bad.json", "home"], .file ⟨#[0x6e, 0x75, 0x6c, 0x6c]⟩),
      (["out.m", "home"], .file ⟨#[0x78]⟩)], ["home"]⟩
    let run (arguments : List String) := (runArguments Tree.access arguments).run tree
    let good := ["emit", "/data/in.json", "--json", "--out", "out.m"]
    let bad := ["emit", "bad.json", "--name=v", "--out=/home/out.m", "--max-depth", "3"]
    let barred := ["emit", "../data/in.json", "--out", "/data"]
    Tree.access.Lawful Tree.view ∧
      ofArguments good = .ok (.emit "/data/in.json" none (some "out.m") none true) ∧
      (run good).1.status = 0 ∧
      Delivered Tree.access Tree.view tree ⟨"in = 1;\n", []⟩ (some "out.m") true (run good).2
        (run good).1.stdout ∧
      ofArguments bad = .ok (.emit "bad.json" (some "v") (some "/home/out.m") (some 3) false) ∧
      (run bad).1.status = 1 ∧ (run bad).1.stdout = "" ∧ (run bad).2 = tree ∧
      ofArguments barred = .ok (.emit "../data/in.json" none (some "/data") none false) ∧
      (run barred).1.status = 1 ∧ (run barred).1.stdout = "" := by
  intro tree run good bad barred
  have acceptedGood :
      ofArguments good = .ok (.emit "/data/in.json" none (some "out.m") none true) := by
    with_unfolding_all rfl
  have acceptedBad :
      ofArguments bad = .ok (.emit "bad.json" (some "v") (some "/home/out.m") (some 3) false) := by
    with_unfolding_all rfl
  have acceptedBarred :
      ofArguments barred = .ok (.emit "../data/in.json" none (some "/data") none false) := by
    with_unfolding_all rfl
  have ready : prepared ((Tree.access.read "/data/in.json").run tree).1 "in" 64 =
      .ok (⟨.none, 3, .numeric ⟨[1, 1], .int [1]⟩⟩, ⟨"in = 1;\n", []⟩) := by
    with_unfolding_all rfl
  have again : prepared ((Tree.access.read "../data/in.json").run tree).1 "in" 64 =
      .ok (⟨.none, 3, .numeric ⟨[1, 1], .int [1]⟩⟩, ⟨"in = 1;\n", []⟩) := by
    with_unfolding_all rfl
  have failed : prepared ((Tree.access.read "bad.json").run tree).1 "v" 3 =
      .error (.fault (.unsupportedType "v" "null")) := by
    with_unfolding_all rfl
  have writable (path : String) (asked : some "out.m" = some path) :
      ((Tree.access.write path "in = 1;\n").run tree).1 = .ok () := by
    cases asked
    with_unfolding_all rfl
  have directory : ((Tree.access.write "/data" "in = 1;\n").run tree).1 = .error .isDirectory := by
    with_unfolding_all rfl
  obtain ⟨success, once⟩ :=
    ((emit_delivers_once Tree.lawful acceptedGood tree).2 _ _ ready).2 writable
  obtain ⟨⟨stopped, silent⟩, unchanged⟩ :=
    (emit_delivers_once Tree.lawful acceptedBad tree).1 _ failed
  obtain ⟨⟨refused, quiet⟩, _⟩ :=
    ((emit_delivers_once Tree.lawful acceptedBarred tree).2 _ _ again).1 _ _ rfl directory
  exact ⟨Tree.lawful, acceptedGood, success, once, acceptedBad, stopped, silent, unchanged,
    acceptedBarred, refused, quiet⟩

end Command

end ValueScript
