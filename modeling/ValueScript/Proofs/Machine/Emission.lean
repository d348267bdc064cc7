import ValueScript.Proofs.Emission.Causes
import ValueScript.Proofs.Json.Nesting
import ValueScript.Proofs.Machine.Collection

/-! Emission on a machine. Each step into a record or a list counts its depth up by one, and the
counting goes at most two steps past a depth that was compared with the limit. On values whose
sizes can be multiplied up, whatever they store, a machine writes the script without a panic. -/

namespace ValueScript

namespace Machine

/-- Steps that write to a script, may fail, and may stop. -/
abbrev Emission := ExceptT Fault (StateT Script Walk)

namespace Emission

def write (text : String) : Emission Unit :=
  modify fun script => ⟨script.text ++ text, script.warnings⟩

def warn (warning : Warning) : Emission Unit :=
  modify fun script => ⟨script.text, script.warnings ++ [warning]⟩

/-- Steps at one value, which leave the script alone. -/
def attempt {α : Type} (steps : Attempt α) : Emission α :=
  ExceptT.mk (liftM (steps.run.mapError Stop.panic))

def numeric (name : String) (grid : NumericGrid) : Emission Unit := do
  write (← attempt (numericStatement name grid))

def text (name : String) (grid : TextGrid) : Emission Unit := do
  write (← attempt (textStatement name grid))

def collection (name : String) (rows cols : Nat) (items : List Value) : Emission Unit := do
  match ← attempt (collectionStatement name rows cols items) with
  | .ok statement => write statement
  | .error warning => warn warning

end Emission

mutual

/-- Writes a node at a depth. -/
def emit (limit : Nat) (name : String) (depth : Nat) (value : Value) : Emission Unit :=
  if limit < depth then throw (.depthExceeded limit)
  else
    match value with
    | .record fields => emitFields limit name depth fields
    | .records [] => pure ()
    | .records [fields] => do emitFields limit name (← deeper depth) fields
    | .records elements => emitElements limit name 1 depth elements
    | .numeric grid => Emission.numeric name grid
    | .text grid => Emission.text name grid
    | .collection rows cols items => Emission.collection name rows cols items
    | .unsupported cls => throw (.unsupportedType name cls)

/-- Writes the fields of a record that lies at a depth. -/
def emitFields (limit : Nat) (name : String) (depth : Nat) :
    List (String × Value) → Emission Unit
  | [] => pure ()
  | (label, entry) :: rest => do
    emit limit (Name.field name label) (← deeper depth) entry
    emitFields limit name depth rest

/-- Writes the elements of a list that lies at a depth, counting them from `index`. Lists are stored,
so their lengths are words. -/
def emitElements (limit : Nat) (name : String) (index depth : Nat) :
    List (List (String × Value)) → Emission Unit
  | [] => pure ()
  | fields :: rest => do
    emitFields limit (Name.indexed name index) (← deeper depth) fields
    emitElements limit name (index + 1) depth rest

end

def script (limit : Nat) (name : String) (value : Value) : Walk (Except Fault Script) := do
  let (outcome, written) ← (emit limit name 0 value).run.run .empty
  return outcome.map fun _ => written

/-- Whether a visit leaves two steps to the greatest depth if it is no deeper than the limit. -/
def Roomy (limit : Nat) (visit : Visit) : Prop :=
  visit.depth ≤ limit → visit.depth + 2 < depthBound

/-- Whether all sizes that are multiplied up to write a leaf can be. -/
def Sized : Value → Prop
  | .collection rows cols items => rows * cols < wordBound ∧ ∀ item ∈ items, item.Fits
  | value => value.Fits

theorem sized_of_fits {value : Value} (fits : ∀ part ∈ value.parts, part.Fits) : Sized value := by
  have own := fits value (Value.mem_parts_self value)
  cases value with
  | collection rows cols items =>
    exact ⟨own, fun item member =>
      fits item (Value.mem_parts_of_item member (Value.mem_parts_self item))⟩
  | record | records | numeric | text | unsupported => exact own

/-- Whether a machine may stop so at a visit. -/
def StopsAt (limit : Nat) (visit : Visit) : Stop → Prop
  | .panic _ => ¬Sized visit.value
  | .depthOverflow => ¬Roomy limit visit

/-- Whether a machine may stop so on its way through visits, with no failing visit before. -/
def StopsIn (limit : Nat) (visits : List Visit) (stop : Stop) : Prop :=
  ∃ before visit after, visits = before ++ visit :: after ∧ StopsAt limit visit stop ∧
    ∀ earlier ∈ before, earlier.fault? limit = none

section StopsIn

variable {limit : Nat} {visits : List Visit} {stop : Stop}

theorem StopsIn.append (stops : StopsIn limit visits stop) (more : List Visit) :
    StopsIn limit (visits ++ more) stop := by
  obtain ⟨before, visit, after, rfl, here, sound⟩ := stops
  exact ⟨before, visit, after ++ more, by simp, here, sound⟩

theorem StopsIn.after {earlier : List Visit} (stops : StopsIn limit visits stop)
    (sound : ∀ visit ∈ earlier, visit.fault? limit = none) :
    StopsIn limit (earlier ++ visits) stop := by
  obtain ⟨before, visit, after, rfl, here, sound'⟩ := stops
  exact ⟨earlier ++ before, visit, after, by simp, here, List.forall_mem_append.mpr ⟨sound, sound'⟩⟩

theorem stopsIn_of_panic {visit : Visit} (fails : ¬Sized visit.value) (cause : Panic)
    (rest : List Visit) : StopsIn limit (visit :: rest) (.panic cause) :=
  ⟨[], visit, rest, rfl, fails, List.forall_mem_nil _⟩

theorem stopsIn_of_depth {visit : Visit} (fails : ¬Roomy limit visit) (rest : List Visit) :
    StopsIn limit (visit :: rest) .depthOverflow :=
  ⟨[], visit, rest, rfl, fails, List.forall_mem_nil _⟩

theorem StopsIn.exists_stopsAt (stops : StopsIn limit visits stop) :
    ∃ visit ∈ visits, StopsAt limit visit stop := by
  obtain ⟨before, visit, after, rfl, here, _⟩ := stops
  exact ⟨visit, List.mem_append_right _ List.mem_cons_self, here⟩

end StopsIn

theorem fault?_of_collect {limit : Nat} {visits : List Visit} {part : Script}
    (collected : Script.collect (Visit.output limit) visits = .ok part) :
    ∀ visit ∈ visits, visit.fault? limit = none := by
  intro visit met
  obtain ⟨own, output⟩ := Script.eq_ok_of_collect collected met
  rw [← Visit.failure?_output, output, failure?_ok]

namespace Emission

/-- What steps do to any script: they append a part or fail, unless they stop. -/
def Yields (steps : Emission Unit) (outcome : Except Fault Script) (stops : Stop → Prop) : Prop :=
  ∀ script : Script,
    (match outcome with
      | .ok part => steps.run.run script = .ok (.ok (), script ++ part)
      | .error fault => ∃ left, steps.run.run script = .ok (.error fault, left)) ∨
    ∃ stop, steps.run.run script = .error stop ∧ stops stop

section Yields

variable {stops : Stop → Prop}

theorem yields_pure : (pure () : Emission Unit).Yields (.ok .empty) stops := by
  intro script
  refine .inl ?_
  dsimp only
  rw [Script.append_empty]
  rfl

theorem yields_throw (fault : Fault) : (throw fault : Emission Unit).Yields (.error fault) stops :=
  fun script => .inl ⟨script, rfl⟩

theorem Yields.of_imp {steps : Emission Unit} {outcome : Except Fault Script} {other : Stop → Prop}
    (yields : steps.Yields outcome stops) (allowed : ∀ stop, stops stop → other stop) :
    steps.Yields outcome other := by
  intro script
  exact (yields script).imp_right fun ⟨stop, stopped, allows⟩ => ⟨stop, stopped, allowed stop allows⟩

/-- Steps in a row. The later ones can stop only if the earlier ones yield a part. -/
theorem Yields.seq {first second : Emission Unit} {before after : Except Fault Script}
    {later : Stop → Prop} (start : first.Yields before stops) (rest : second.Yields after later) :
    (do first; second : Emission Unit).Yields (do return (← before) ++ (← after))
      fun stop => stops stop ∨ (∃ part, before = .ok part) ∧ later stop := by
  intro script
  simp only [ExceptT.run_bind, StateT.run_bind]
  obtain went | ⟨stop, stopped, allows⟩ := start script
  · cases before with
    | error fault =>
      obtain ⟨left, failed⟩ := went
      rw [failed]
      exact .inl ⟨left, rfl⟩
    | ok part =>
      dsimp only at went
      rw [went]
      obtain wrote | ⟨stop, stopped, allows⟩ := rest (script ++ part)
      · refine .inl ?_
        cases after with
        | error fault => exact wrote
        | ok more => exact wrote.trans (by rw [Script.append_assoc])
      · exact .inr ⟨stop, stopped, .inr ⟨⟨part, rfl⟩, allows⟩⟩
  · rw [stopped]
    exact .inr ⟨stop, rfl, .inl allows⟩

theorem yields_attempt {α : Type} {safe : Prop} {steps : Attempt α} {outcome : Except Fault α}
    {next : α → Emission Unit} {part : α → Script} (settles : steps.SettlesIf safe outcome)
    (appends : ∀ result, (next result).Yields (.ok (part result)) stops)
    (panics : ¬safe → ∀ panic, stops (.panic panic)) :
    (do next (← attempt steps) : Emission Unit).Yields (outcome.map part) stops := by
  intro script
  simp only [ExceptT.run_bind, StateT.run_bind]
  obtain settled | ⟨fails, panic, panicked⟩ := settles
  · rw [attempt, ExceptT.run_mk, settled]
    cases outcome with
    | error fault => exact .inl ⟨script, rfl⟩
    | ok result => exact appends result script
  · rw [attempt, ExceptT.run_mk, panicked]
    exact .inr ⟨.panic panic, rfl, panics fails panic⟩

theorem yields_write (text : String) : (write text).Yields (.ok ⟨text, []⟩) stops := by
  intro script
  refine .inl ?_
  simp [write, Script.append_def]
  rfl

theorem yields_warn (warning : Warning) : (warn warning).Yields (.ok ⟨"", [warning]⟩) stops := by
  intro script
  refine .inl ?_
  simp [warn, Script.append_def]
  rfl

theorem yields_deeper {depth : Nat} {next : Nat → Emission Unit} {outcome : Except Fault Script}
    (goes : (next (depth + 1)).Yields outcome stops)
    (overflows : depthBound ≤ depth + 1 → stops .depthOverflow) :
    (do next (← deeper depth) : Emission Unit).Yields outcome stops := by
  by_cases small : depth + 1 < depthBound
  · rw [deeper_of_lt small]
    exact goes
  · rw [deeper_of_le (Nat.not_lt.mp small)]
    exact fun script => .inr ⟨.depthOverflow, rfl, overflows (Nat.not_lt.mp small)⟩

end Yields

end Emission

open Emission

variable {limit : Nat}

private theorem emitFields_yields {fields : List (String × Value)}
    (entries : ∀ field ∈ fields, ∀ name depth, (emit limit name depth field.2).Yields
      (Script.collect (Visit.output limit) (field.2.visits name depth))
      (StopsIn limit (field.2.visits name depth))) (name : String) (depth : Nat) :
    (emitFields limit name depth fields).Yields
      (Script.collect (Visit.output limit) (Value.fieldVisits name (depth + 1) fields))
      fun stop => stop = .depthOverflow ∧ depthBound ≤ depth + 1 ∨
        StopsIn limit (Value.fieldVisits name (depth + 1) fields) stop := by
  induction fields with
  | nil => exact yields_pure
  | cons field rest ih =>
    obtain ⟨label, entry⟩ := field
    obtain ⟨first, others⟩ := List.forall_mem_cons.mp entries
    have inOrder := (first (Name.field name label) (depth + 1)).seq (ih others)
    rw [emitFields, Value.fieldVisits, Script.collect_append]
    refine yields_deeper (inOrder.of_imp fun stop stopped => ?_) fun high => .inl ⟨rfl, high⟩
    obtain here | ⟨⟨part, collected⟩, overflow | later⟩ := stopped
    · exact .inr (here.append _)
    · exact .inl overflow
    · exact .inr (later.after (fault?_of_collect collected))

private theorem emitElements_yields {elements : List (List (String × Value))}
    (entries : ∀ fields ∈ elements, ∀ field ∈ fields, ∀ name depth,
      (emit limit name depth field.2).Yields
        (Script.collect (Visit.output limit) (field.2.visits name depth))
        (StopsIn limit (field.2.visits name depth))) (name : String) (index depth : Nat) :
    (emitElements limit name index depth elements).Yields
      (Script.collect (Visit.output limit) (Value.elementVisits name index (depth + 2) elements))
      fun stop => stop = .depthOverflow ∧ depthBound ≤ depth + 2 ∨
        StopsIn limit (Value.elementVisits name index (depth + 2) elements) stop := by
  induction elements generalizing index with
  | nil => exact yields_pure
  | cons fields rest ih =>
    obtain ⟨first, others⟩ := List.forall_mem_cons.mp entries
    have inOrder := (emitFields_yields first (Name.indexed name index) (depth + 1)).seq
      (ih others (index + 1))
    rw [emitElements, Value.elementVisits, Script.collect_append]
    refine yields_deeper (inOrder.of_imp fun stop stopped => ?_) fun high =>
      .inl ⟨rfl, Nat.le_succ_of_le high⟩
    obtain (overflow | here) | ⟨⟨part, collected⟩, overflow | later⟩ := stopped
    · exact .inl overflow
    · exact .inr (here.append _)
    · exact .inl overflow
    · exact .inr (later.after (fault?_of_collect collected))

/-- Below the limit a node fails at once; it is enough to look at the others, which yield what they
contribute themselves and what is inside them. -/
private theorem emit_yields_of_shallow {depth : Nat} {name : String} {value : Value}
    (shallow : depth ≤ limit → Visit.output limit ⟨name, depth, value⟩ = value.own name →
      (emit limit name depth value).Yields
        (Script.collect (Visit.output limit) (value.visits name depth))
        (StopsIn limit (value.visits name depth))) :
    (emit limit name depth value).Yields
      (Script.collect (Visit.output limit) (value.visits name depth))
      (StopsIn limit (value.visits name depth)) := by
  by_cases deep : limit < depth
  · have failed : Visit.output limit ⟨name, depth, value⟩ = .error (.depthExceeded limit) :=
      if_pos deep
    rw [emit.eq_def, if_pos deep, Value.visits.eq_def, Script.collect_cons_of_error _ failed]
    exact yields_throw _
  · exact shallow (Nat.le_of_not_lt deep) (if_neg deep)

private theorem yields_inside {visit : Visit} {inner : List Visit} {steps : Emission Unit}
    (within : visit.depth ≤ limit) (own : visit.output limit = .ok .empty) {high : Nat}
    (near : high ≤ visit.depth + 2)
    (yields : steps.Yields (Script.collect (Visit.output limit) inner)
      fun stop => stop = .depthOverflow ∧ depthBound ≤ high ∨ StopsIn limit inner stop) :
    steps.Yields (Script.collect (Visit.output limit) (visit :: inner))
      (StopsIn limit (visit :: inner)) := by
  rw [Script.collect_cons_of_empty _ own]
  refine yields.of_imp fun stop stopped => ?_
  obtain ⟨rfl, overflow⟩ | inside := stopped
  · refine stopsIn_of_depth (fun room => ?_) inner
    have small := room within
    omega
  · have sound : visit.fault? limit = none := by rw [← Visit.failure?_output, own, failure?_ok]
    exact inside.after (List.forall_mem_singleton.mpr sound)

/-- A machine appends what the visits contribute in order, up to the first that fails or stops it. -/
theorem emit_yields (value : Value) (name : String) (depth : Nat) :
    (emit limit name depth value).Yields
      (Script.collect (Visit.output limit) (value.visits name depth))
      (StopsIn limit (value.visits name depth)) := by
  induction value generalizing name depth with
  | record fields ih =>
    refine emit_yields_of_shallow fun within own => ?_
    rw [emit, if_neg (Nat.not_lt.mpr within), Value.visits]
    exact yields_inside within own (Nat.le_succ _) (emitFields_yields ih name depth)
  | records elements ih =>
    refine emit_yields_of_shallow fun within own => ?_
    rw [emit.eq_def, if_neg (Nat.not_lt.mpr within), Value.visits.eq_def]
    cases elements with
    | nil =>
      rw [Script.collect_cons_of_empty _ own]
      exact yields_pure
    | cons fields rest =>
      cases rest with
      | nil =>
        have inner := emitFields_yields (ih _ (List.mem_singleton_self _)) name (depth + 1)
        exact yields_inside within own (Nat.le_refl _)
          (yields_deeper inner fun high => .inl ⟨rfl, Nat.le_succ_of_le high⟩)
      | cons _ _ =>
        exact yields_inside within own (Nat.le_refl _) (emitElements_yields ih name 1 depth)
  | numeric grid =>
    refine emit_yields_of_shallow fun within own => ?_
    rw [emit, if_neg (Nat.not_lt.mpr within), Value.visits, Script.collect_singleton, own]
    exact yields_attempt (numericStatement_settlesIf name grid) yields_write
      fun fails cause => @stopsIn_of_panic limit ⟨name, depth, .numeric grid⟩ fails cause _
  | text grid =>
    refine emit_yields_of_shallow fun within own => ?_
    rw [emit, if_neg (Nat.not_lt.mpr within), Value.visits, Script.collect_singleton, own]
    exact yields_attempt (textStatement_settlesIf name grid) yields_write
      fun fails cause => @stopsIn_of_panic limit ⟨name, depth, .text grid⟩ fails cause _
  | collection rows cols items _ =>
    refine emit_yields_of_shallow fun within own => ?_
    rw [emit, if_neg (Nat.not_lt.mpr within), Value.visits, Script.collect_singleton, own]
    refine yields_attempt (collectionStatement_settlesIf name rows cols items) (fun result => ?_)
      fun fails cause =>
        @stopsIn_of_panic limit ⟨name, depth, .collection rows cols items⟩ fails cause _
    cases result with
    | ok statement => exact yields_write statement
    | error warning => exact yields_warn warning
  | unsupported cls =>
    refine emit_yields_of_shallow fun within own => ?_
    rw [emit, if_neg (Nat.not_lt.mpr within), Value.visits, Script.collect_singleton, own]
    exact yields_throw _

/-- A machine comes to the script of a value, or it stops on its way. -/
theorem script_eq_or_stops (limit : Nat) (name : String) (value : Value) :
    script limit name value = .ok (value.script limit name) ∨
      ∃ stop, script limit name value = .error stop ∧ StopsIn limit (value.visits name 0) stop := by
  rw [script_eq_collect, script]
  obtain went | ⟨stop, stopped, allows⟩ := @emit_yields limit value name 0 .empty
  · refine .inl ?_
    cases outcome : Script.collect (Visit.output limit) (value.visits name 0) with
    | ok part =>
      rw [outcome] at went
      dsimp only at went
      rw [went, Script.empty_append]
      rfl
    | error fault =>
      rw [outcome] at went
      obtain ⟨left, failed⟩ := went
      rw [failed]
      rfl
  · refine .inr ⟨stop, ?_, allows⟩
    rw [stopped]
    rfl

theorem script_of_ok {name : String} {value : Value} {outcome : Except Fault Script}
    (reached : script limit name value = .ok outcome) : value.script limit name = outcome := by
  obtain same | ⟨stop, stopped, _⟩ := script_eq_or_stops limit name value
  · exact Except.ok.inj (same.symm.trans reached)
  · rw [stopped] at reached
    cases reached

theorem script_eq_of_fits {name : String} {value : Value}
    (fits : ∀ part ∈ value.parts, part.Fits)
    (room : ∀ visit ∈ value.visits name 0, Roomy limit visit) :
    script limit name value = .ok (value.script limit name) := by
  refine (script_eq_or_stops limit name value).resolve_right ?_
  rintro ⟨stop, _, stops⟩
  obtain ⟨visit, met, here⟩ := stops.exists_stopsAt
  cases stop with
  | panic cause =>
    exact here (sized_of_fits fun part inside =>
      fits part (Value.parts_of_visit name 0 value visit met part inside))
  | depthOverflow => exact here (room visit met)

theorem script_ne_depthOverflow {name : String} {value : Value}
    (room : ∀ visit ∈ value.visits name 0, Roomy limit visit) :
    script limit name value ≠ .error .depthOverflow := by
  intro overflow
  obtain same | ⟨stop, stopped, stops⟩ := script_eq_or_stops limit name value
  · cases same.symm.trans overflow
  · cases stopped.symm.trans overflow
    obtain ⟨visit, met, here⟩ := stops.exists_stopsAt
    exact here (room visit met)

/-- Whatever the parts of a value store, a machine cuts its rows and writes its token and its script
without a panic, if sizes can be multiplied up and the limit leaves two steps to the greatest depth.
For a document that nests no deeper than 127 levels any limit leaves them. -/
theorem emission_never_panics :
    (∀ grid : TextGrid, textRows grid = .ok grid.rows) ∧
    (∀ value : Value, (∀ part ∈ value.parts, part.Fits) →
      (∀ name, (token name value).run = .ok (value.token name)) ∧
      ∀ limit, limit + 3 ≤ depthBound → ∀ name,
        script limit name value = .ok (value.script limit name)) ∧
    ∀ document : Json, document.nesting ≤ 127 → ∀ limit name,
      script limit name document.toValue ≠ .error .depthOverflow ∧
      ((∀ part ∈ document.toValue.parts, part.Fits) →
        script limit name document.toValue = .ok (document.toValue.script limit name)) := by
  refine ⟨textRows_eq, fun value fits => ⟨fun name => ?_, fun limit small name => ?_⟩, ?_⟩
  · exact token_settles name (fits value (Value.mem_parts_self value))
  · refine script_eq_of_fits fits fun visit _ low => ?_
    omega
  · intro document shallow limit name
    have room (visit : Visit) (met : visit ∈ document.toValue.visits name 0) : Roomy limit visit := by
      have bound := Json.depth_le_nesting document name 0 visit met
      have enough : 127 + 2 < depthBound := by decide
      intro _
      omega
    exact ⟨script_ne_depthOverflow room, fun fits => script_eq_of_fits fits room⟩

/-- A record whose last text has fewer characters than its sizes say, and a document. -/
theorem emission_never_panics_of_misfit :
    let value : Value := .record [("a", .numeric ⟨[2, 0, 1], .int []⟩),
      ("b", .collection 1 2 [.text ⟨[], ['x']⟩, .records [[]]]), ("c", .text ⟨[2, 2], ['y']⟩)]
    let document : Json := .array [.object [("a", .bool true)]]
    (∀ part ∈ value.parts, part.Fits) ∧ 0xfffffffd + 3 ≤ depthBound ∧
      script 0xfffffffd "r" value = .ok (.error (.shapeMismatch 4 1)) ∧
      document.nesting = 2 ∧ (∀ part ∈ document.toValue.parts, part.Fits) ∧
      script 0xffffffff "r" document.toValue = .ok (.ok ⟨"r.a = 1;\n", []⟩) := by
  intro value document
  have fits : ∀ part ∈ value.parts, part.Fits := by decide
  have loaded : ∀ part ∈ document.toValue.parts, part.Fits := by decide
  refine ⟨fits, by decide, ?_, rfl, loaded, ?_⟩
  · exact (emission_never_panics.2.1 value fits).2 0xfffffffd (by decide) "r"
  · exact (emission_never_panics.2.2 document (by decide) 0xffffffff "r").2 loaded

namespace Emission

variable {α β : Type}

/-- Whether steps stop, whatever was written before. -/
def Stops (steps : Emission α) (stop : Stop) : Prop :=
  ∀ script, steps.run.run script = .error stop

theorem stops_walk (stop : Stop) : (liftM (.error stop : Walk α) : Emission α).Stops stop :=
  fun _ => rfl

theorem Stops.bind {first : Emission α} {stop : Stop} (stopped : first.Stops stop)
    (next : α → Emission β) : (first >>= next).Stops stop := by
  intro script
  simp only [ExceptT.run_bind, StateT.run_bind, stopped script]
  rfl

end Emission

/-- A list of one record with one field, inside a number of records. -/
def tower : Nat → Value
  | 0 => .records [[("a", .record [])]]
  | levels + 1 => .record [("a", tower levels)]

private theorem fits_tower (levels : Nat) : ∀ part ∈ (tower levels).parts, part.Fits := by
  induction levels with
  | zero => decide
  | succ levels ih => exact Value.forall_parts_record trivial (List.forall_mem_singleton.mpr ih)

private theorem emit_tower {limit levels depth : Nat} (high : depth + levels + 2 = depthBound)
    (within : depth + levels ≤ limit) (name : String) :
    (emit limit name depth (tower levels)).Stops .depthOverflow := by
  induction levels generalizing depth name with
  | zero =>
    rw [tower, emit.eq_def, if_neg (by omega)]
    dsimp only
    rw [deeper_of_lt (by omega)]
    change (emitFields limit name (depth + 1) [("a", .record [])]).Stops .depthOverflow
    rw [emitFields, deeper_of_le (by omega)]
    exact (stops_walk .depthOverflow).bind _
  | succ levels ih =>
    rw [tower, emit, if_neg (by omega), emitFields, deeper_of_lt (by omega)]
    exact (@ih (depth + 1) (by omega) (by omega) _).bind _

/-- A limit that leaves no two steps to the greatest depth lets some value overflow it. -/
theorem depthOverflow_without_room :
    ∃ value : Value, (∀ part ∈ value.parts, part.Fits) ∧
      ∀ limit, depthBound < limit + 3 → ∀ name,
        script limit name value = .error .depthOverflow := by
  obtain ⟨levels, high⟩ : ∃ levels, 0 + levels + 2 = depthBound := ⟨depthBound - 2, by decide⟩
  refine ⟨tower levels, fits_tower levels, fun limit beyond name => ?_⟩
  have stopped := @emit_tower limit levels 0 high (by omega) name .empty
  rw [script, stopped]
  rfl

end Machine

end ValueScript
