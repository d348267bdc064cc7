import ValueScript.Proofs.Machine.Collection

/-! Leaves written piece by piece. A machine pushes a statement to a buffer while it looks up the cells
of a leaf, and all pieces come to the statement as a whole. Every check comes before the first
piece, so that a fault or a notice finds the buffer as it was. -/

namespace ValueScript.Machine

/-- Steps that push to a buffer, may fail, and may panic. A panic leaves no buffer. -/
abbrev Writing := ExceptT Fault (StateT String Run)

namespace Writing

variable {α β : Type}

def push (piece : String) : Writing Unit := modify (· ++ piece)

/-- Steps that leave the buffer alone. -/
def attempt (steps : Attempt α) : Writing α := ExceptT.mk (liftM steps.run)

/-- Whether steps push what comes to this text, whatever is in the buffer, or panic as the text
does. -/
def Pushes (steps : Writing Unit) (text : Run String) : Prop :=
  ∀ before, steps.run.run before = text.map fun text => (.ok (), before ++ text)

theorem Pushes.of_eq {steps : Writing Unit} {text other : Run String} (pushes : steps.Pushes text)
    (same : text = other) : steps.Pushes other := same ▸ pushes

theorem pushes_nothing : (pure () : Writing Unit).Pushes (.ok "") := by
  intro before
  rw [Except.map, String.append_empty]
  rfl

theorem pushes_push (piece : String) : (push piece).Pushes (.ok piece) := fun _ => rfl

/-- Steps in a row push their texts in a row. -/
theorem Pushes.seq {first second : Writing Unit} {text more : Run String} (start : first.Pushes text)
    (rest : second.Pushes more) : (do first; second).Pushes (do return (← text) ++ (← more)) := by
  intro before
  simp only [ExceptT.run_bind, StateT.run_bind, start before]
  cases text with
  | error panic => rfl
  | ok text =>
    refine (rest (before ++ text)).trans ?_
    cases more with
    | error panic => rfl
    | ok more => exact congrArg (fun text => Except.ok (Except.ok (), text)) (String.append_assoc ..)

theorem pushes_run {run : Run α} {next : α → Writing Unit} {text : α → Run String}
    (each : ∀ result, (next result).Pushes (text result)) :
    (liftM run >>= next : Writing Unit).Pushes (run >>= text) := by
  intro before
  cases run with
  | error panic => rfl
  | ok result => exact each result before

theorem pushes_lookup (run : Run String) : (liftM run >>= push : Writing Unit).Pushes run := by
  intro before
  cases run <;> rfl

theorem pushes_forM {steps : α → Writing Unit} {piece : α → Run String}
    (each : ∀ item, (steps item).Pushes (piece item)) (items : List α) :
    (items.forM steps).Pushes ((items.mapM piece).map String.join) := by
  induction items with
  | nil => exact pushes_nothing
  | cons item rest ih =>
    refine ((each item).seq ih).of_eq ?_
    rw [List.mapM_cons]
    cases piece item with
    | error panic => rfl
    | ok text =>
      cases rest.mapM piece with
      | error panic => rfl
      | ok texts => exact congrArg Except.ok (String.join_cons ..).symm

theorem pushes_each {steps : α → Writing Unit} {piece : α → String}
    (each : ∀ item, (steps item).Pushes (.ok (piece item))) (items : List α) :
    (items.forM steps).Pushes (.ok (String.join (items.map piece))) := by
  refine (pushes_forM each items).of_eq ?_
  rw [mapM_of_forall fun _ _ => rfl]
  rfl

/-- Texts in which literals were joined are the same character by character. -/
private theorem ok_of_toList {text other : String} (same : text.toList = other.toList) :
    (Except.ok text : Run String) = .ok other :=
  congrArg Except.ok (String.toList_injective same)

/-- A row of tokens with a blank before each but the first. -/
def row (elements : Elements) (cols : Nat) : Writing Unit :=
  (List.range cols).forM fun col => do
    if 0 < col then push " "
    push (← tokenAt elements col)

/-- A line of a block, a blank after each token. -/
def line (elements : Elements) (cols row : Nat) : Writing Unit := do
  (List.range cols).forM fun col => do
    let here ← place cols row col
    push (← tokenAt elements here)
    push " "
  push "\n"

/-- What follows the name in the statement of a number grid. -/
def numericTail (rows cols : Nat) (elements : Elements) : Writing Unit := do
  if rows = 0 ∨ cols = 0 then push " = [];\n"
  else if rows = 1 ∧ cols = 1 then
    push " = "
    push (← tokenAt elements 0)
    push ";\n"
  else if rows = 1 then
    push " = ["
    row elements cols
    push "];\n"
  else
    push " = [\n"
    (List.range rows).forM (line elements cols)
    push "];\n"

/-- Tokens with a blank before each but the first are tokens with a blank between any two. -/
theorem mapM_led (read : Nat → Run String) (cols : Nat) :
    ((List.range cols).mapM fun col => (read col).map fun token =>
      if 0 < col then " " ++ token else token).map String.join =
    ((List.range cols).mapM read).map " ".intercalate := by
  cases cols with
  | zero => rfl
  | succ cols =>
    have later := mapM_map_result (fun col => read (col + 1)) (" " ++ ·) (List.range cols)
    rw [List.range_succ_eq_map, List.mapM_cons, List.mapM_cons, List.mapM_map, List.mapM_map]
    simp only [Function.comp_def, Nat.succ_eq_add_one, Nat.lt_irrefl, Nat.zero_lt_succ, if_true,
      if_false, later]
    cases read 0 with
    | error panic => rfl
    | ok first =>
      cases (List.range cols).mapM fun col => read (col + 1) with
      | error panic => rfl
      | ok rest => exact congrArg Except.ok (join_led " " first rest)

theorem row_pushes (elements : Elements) (cols : Nat) :
    (row elements cols).Pushes (((List.range cols).mapM (tokenAt elements)).map " ".intercalate) := by
  rw [← mapM_led]
  refine pushes_forM (fun col => ?_) _
  by_cases later : 0 < col
  · simp only [later, if_true]
    refine ((pushes_push " ").seq (pushes_lookup _)).of_eq ?_
    cases tokenAt elements col <;> rfl
  · simp only [later, if_false]
    refine (pushes_nothing.seq (pushes_lookup _)).of_eq ?_
    cases tokenAt elements col with
    | error panic => rfl
    | ok token => exact congrArg Except.ok String.empty_append

theorem line_pushes (elements : Elements) (cols row : Nat) :
    (line elements cols row).Pushes ((rowAt (tokenAt elements) cols row).map NumericGrid.line) := by
  have cell (col : Nat) : Pushes (do
      let here ← place cols row col
      push (← tokenAt elements here)
      push " ") (Except.map (· ++ " ") (do tokenAt elements (← place cols row col))) := by
    refine (pushes_run fun here => pushes_run fun token =>
      (pushes_push token).seq (pushes_push " ")).of_eq ?_
    cases place cols row col with
    | error panic => rfl
    | ok here => cases reached : tokenAt elements here <;> simp [bind, Except.bind, reached] <;> rfl
  refine ((pushes_forM cell (List.range cols)).seq (pushes_push "\n")).of_eq ?_
  rw [mapM_map_result]
  unfold rowAt
  cases (List.range cols).mapM fun col => do tokenAt elements (← place cols row col) <;> rfl

theorem numericTail_pushes (rows cols : Nat) (elements : Elements) :
    (numericTail rows cols elements).Pushes
      ((numericLiteral [rows, cols] elements).map fun literal => " = " ++ literal ++ ";\n") := by
  have sizes : numericLiteral [rows, cols] elements =
      if rows = 0 ∨ cols = 0 then .ok "[]"
      else if rows = 1 ∧ cols = 1 then tokenAt elements 0
      else if rows = 1 then do
        let tokens ← (List.range cols).mapM (tokenAt elements)
        return "[" ++ " ".intercalate tokens ++ "]"
      else do
        let lines ← (List.range rows).mapM (rowAt (tokenAt elements) cols)
        return "[\n" ++ String.join (lines.map NumericGrid.line) ++ "]" := rfl
  rw [sizes, numericTail]
  split
  next => exact (pushes_push " = [];\n").of_eq rfl
  next =>
    split
    next =>
      refine ((pushes_push " = ").seq (pushes_run fun token =>
        (pushes_push token).seq (pushes_push ";\n"))).of_eq ?_
      cases tokenAt elements 0 with
      | error panic => rfl
      | ok token => exact congrArg Except.ok (String.append_assoc ..).symm
    next =>
      split
      next =>
        refine ((pushes_push " = [").seq ((row_pushes elements cols).seq (pushes_push "];\n"))).of_eq ?_
        cases (List.range cols).mapM (tokenAt elements) with
        | error panic => rfl
        | ok tokens =>
          exact ok_of_toList (by simp)
      next =>
        refine ((pushes_push " = [\n").seq ((pushes_forM (line_pushes elements cols) _).seq
          (pushes_push "];\n"))).of_eq ?_
        rw [mapM_map_result]
        cases (List.range rows).mapM (rowAt (tokenAt elements) cols) with
        | error panic => rfl
        | ok lines =>
          exact ok_of_toList (by simp)

/-- What follows the name in the statement of a text grid. -/
def textTail (sizes : List Nat) (grid : TextGrid) : Writing Unit := do
  let rows ← get sizes 0
  let cols ← get sizes 1
  if rows = 0 ∨ cols = 0 then push " = '';\n"
  else if rows = 1 then
    push " = '"
    grid.chars.forM fun char => push (String.singleton char)
    push "';\n"
  else
    push " = \n"
    (← textRows grid).forM fun row => do
      push "  '"
      push row
      push "'\n"

theorem textTail_pushes (sizes : List Nat) (grid : TextGrid) :
    (textTail sizes grid).Pushes (Machine.textTail sizes grid) := by
  refine pushes_run fun rows => pushes_run fun cols => ?_
  split
  next => exact pushes_push " = '';\n"
  next =>
    split
    next =>
      refine ((pushes_push " = '").seq ((pushes_each (fun char => pushes_push (String.singleton char))
        grid.chars).seq (pushes_push "';\n"))).of_eq ?_
      exact ok_of_toList (by simp [Token.quoted, String.toList_join, List.flatMap_map])
    next =>
      have row (row : String) : Pushes (do push "  '"; push row; push "'\n") (.ok (TextGrid.line row)) :=
        ((pushes_push "  '").seq ((pushes_push row).seq (pushes_push "'\n"))).of_eq
          (congrArg Except.ok (String.append_assoc ..).symm)
      refine ((pushes_push " = \n").seq (pushes_run fun rows => pushes_each row rows)).of_eq ?_
      cases textRows grid <;> rfl

/-- A token of a row at its place, with a comma unless the place is the last one. -/
def entry (cols last row : Nat) (token : String × Nat) : Writing Unit := do
  push token.1
  let here ← place cols row token.2
  if here ≠ last then push ", "

/-- A row of a block. -/
def entries (cols last : Nat) (row : List String × Nat) : Writing Unit := do
  row.1.zipIdx.forM (entry cols last row.2)
  push "\n"

/-- What follows the name in the statement of a collection with these tokens. -/
def tokensTail (cols : Nat) (tokens : List String) : Writing Unit := do
  if tokens.length = 1 then
    push " = \x7b "
    push (← get tokens 0)
    push " \x7d;\n"
  else
    push " = \x7b\n"
    let last ← subtract tokens.length 1
    let rows ← chunks cols tokens
    rows.zipIdx.forM (entries cols last)
    push "\x7d;\n"

theorem entry_pushes (cols last row : Nat) (token : String × Nat) :
    (entry cols last row token).Pushes
      (do return separated last (← place cols row token.2) token.1) := by
  have comma (here : Nat) : Pushes (if here ≠ last then push ", " else pure ())
      (.ok (if here ≠ last then ", " else "")) := by
    split
    · exact pushes_push ", "
    · exact pushes_nothing
  refine ((pushes_push token.1).seq (pushes_run comma)).of_eq ?_
  cases place cols row token.2 with
  | error panic => rfl
  | ok here =>
    refine congrArg Except.ok ?_
    by_cases final : here = last <;> simp [separated, final]

theorem entries_pushes (cols last : Nat) (row : List String × Nat) :
    (entries cols last row).Pushes (blockLine cols last row) := by
  refine ((pushes_forM (entry_pushes cols last row.2) row.1.zipIdx).seq (pushes_push "\n")).of_eq ?_
  rw [blockLine]
  generalize row.1.zipIdx.mapM (m := Run) _ = cells
  cases cells <;> rfl

theorem block_pushes (cols last : Nat) (rows : List (List String)) :
    Pushes (do
      rows.zipIdx.forM (entries cols last)
      push "\x7d;\n")
      (do return String.join (← rows.zipIdx.mapM (blockLine cols last)) ++ "\x7d;\n") := by
  refine ((pushes_forM (entries_pushes cols last) rows.zipIdx).seq (pushes_push "\x7d;\n")).of_eq ?_
  cases rows.zipIdx.mapM (blockLine cols last) <;> rfl

theorem tokensTail_pushes (cols : Nat) (tokens : List String) :
    (tokensTail cols tokens).Pushes
      ((collectionLiteral cols tokens).map fun literal => " = " ++ literal ++ ";\n") := by
  rw [tokensTail, collectionLiteral]
  split
  next =>
    refine ((pushes_push " = \x7b ").seq (pushes_run fun token =>
      (pushes_push token).seq (pushes_push " \x7d;\n"))).of_eq ?_
    cases get tokens 0 with
    | error panic => rfl
    | ok token =>
      exact ok_of_toList (by simp)
  next =>
    refine ((pushes_push " = \x7b\n").seq (pushes_run fun last => pushes_run fun rows =>
      block_pushes cols last rows)).of_eq ?_
    unfold block
    cases subtract tokens.length 1 with
    | error panic => rfl
    | ok last =>
      cases chunks cols tokens with
      | error panic => rfl
      | ok rows =>
        dsimp only [bind, Except.bind]
        cases rows.zipIdx.mapM (blockLine cols last) with
        | error panic => rfl
        | ok lines =>
          exact ok_of_toList (by simp)

/-- What an outcome leaves in a buffer: a result comes with a text to append, and a fault with
none. -/
def added (before : String) : Except Fault (α × String) → Except Fault α × String
  | .ok (result, text) => (.ok result, before ++ text)
  | .error fault => (.error fault, before)

/-- Whether steps come to this outcome whatever is in the buffer, or panic as it does. -/
def Adds (steps : Writing α) (outcome : Attempt (α × String)) : Prop :=
  ∀ before, steps.run.run before = outcome.run.map (added before)

theorem Adds.of_eq {steps : Writing α} {outcome other : Attempt (α × String)}
    (adds : steps.Adds outcome) (same : outcome = other) : steps.Adds other := same ▸ adds

theorem adds_pure (result : α) : (pure result : Writing α).Adds (pure (result, "")) := by
  intro before
  change Except.ok _ = Except.ok (Except.ok result, before ++ "")
  rw [String.append_empty]

/-- Steps that leave the buffer alone may come before others. -/
theorem adds_attempt {first : Attempt β} {next : β → Writing α}
    {outcome : β → Attempt (α × String)} (each : ∀ result, (next result).Adds (outcome result)) :
    (attempt first >>= next).Adds (first >>= outcome) := by
  intro before
  simp only [ExceptT.run_bind, StateT.run_bind, attempt]
  cases reached : first.run with
  | error panic => rfl
  | ok verdict =>
    cases verdict with
    | error fault => rfl
    | ok result => exact each result before

theorem adds_run {run : Run β} {next : β → Writing α} {outcome : β → Attempt (α × String)}
    (each : ∀ result, (next result).Adds (outcome result)) :
    (liftM run >>= next : Writing α).Adds (liftM run >>= outcome : Attempt (α × String)) := by
  intro before
  cases run with
  | error panic => rfl
  | ok result => exact each result before

theorem Pushes.adds {steps : Writing Unit} {text : Run String} (pushes : steps.Pushes text) :
    steps.Adds (do return ((), ← text)) := by
  intro before
  rw [pushes before]
  cases text <;> rfl

theorem Pushes.adds_then {steps : Writing Unit} {text : Run String} (pushes : steps.Pushes text)
    (result : α) : (do steps; return result : Writing α).Adds (do return (result, ← text)) := by
  intro before
  simp only [ExceptT.run_bind, StateT.run_bind, pushes before]
  cases text <;> rfl

/-- Writes a number grid. -/
def numeric (name : String) (grid : NumericGrid) : Writing Unit := do
  let sizes := dims grid.shape
  attempt (checkFlat name sizes)
  attempt (checkFilled grid.shape grid.elements.length)
  let rows ← get sizes 0
  let cols ← get sizes 1
  push name
  numericTail rows cols grid.elements

theorem numeric_adds (name : String) (grid : NumericGrid) :
    (numeric name grid).Adds (do return ((), ← numericStatement name grid)) := by
  have tail : Pushes (do
      let rows ← get (dims grid.shape) 0
      let cols ← get (dims grid.shape) 1
      push name
      numericTail rows cols grid.elements)
      ((numericLiteral (dims grid.shape) grid.elements).map fun literal =>
        name ++ " = " ++ literal ++ ";\n") := by
    refine (pushes_run fun rows => pushes_run fun cols =>
      (pushes_push name).seq (numericTail_pushes rows cols grid.elements)).of_eq ?_
    have sizes : numericLiteral (dims grid.shape) grid.elements = (do
        let rows ← get (dims grid.shape) 0
        let cols ← get (dims grid.shape) 1
        numericLiteral [rows, cols] grid.elements) := rfl
    rw [sizes]
    cases get (dims grid.shape) 0 with
    | error panic => rfl
    | ok rows =>
      cases get (dims grid.shape) 1 with
      | error panic => rfl
      | ok cols =>
        dsimp only [bind, Except.bind]
        cases numericLiteral [rows, cols] grid.elements with
        | error panic => rfl
        | ok literal =>
          refine congrArg Except.ok ?_
          simp only [String.append_assoc]
  refine (adds_attempt fun _ => adds_attempt fun _ => tail.adds).of_eq ?_
  simp only [numericStatement, bind_assoc, pure_bind]
  cases numericLiteral (dims grid.shape) grid.elements <;> rfl

/-- Writes a text grid. -/
def text (name : String) (grid : TextGrid) : Writing Unit := do
  let sizes := dims grid.shape
  attempt (checkFlat name sizes)
  attempt (checkFilled grid.shape grid.chars.length)
  push name
  textTail sizes grid

theorem text_adds (name : String) (grid : TextGrid) :
    (text name grid).Adds (do return ((), ← textStatement name grid)) := by
  have tail := (pushes_push name).seq (textTail_pushes (dims grid.shape) grid)
  refine (adds_attempt fun _ => adds_attempt fun _ => tail.adds).of_eq ?_
  simp only [textStatement, bind_assoc, pure_bind]
  cases Machine.textTail (dims grid.shape) grid <;> rfl

/-- Writes a collection, or gives the notice that takes its place. -/
def collection (name : String) (rows cols : Nat) (items : List Value) : Writing (Option Warning) := do
  let expected ← multiply rows cols
  attempt (checkCells expected items.length)
  if Collection.isEmpty rows cols then
    push name
    push " = \x7b\x7d;\n"
    return none
  else
    match ← notice? name cols items with
    | some warning => return some warning
    | none =>
      let tokens ← attempt (items.mapM (token name))
      push name
      tokensTail cols tokens
      return none

/-- The result and the text of a collection that has a statement or a notice. -/
def outcome : Except Warning String → Option Warning × String
  | .ok statement => (none, statement)
  | .error warning => (some warning, "")

theorem collection_adds (name : String) (rows cols : Nat) (items : List Value) :
    (collection name rows cols items).Adds
      (do return outcome (← collectionStatement name rows cols items)) := by
  simp only [collectionStatement, bind_assoc]
  refine adds_run fun expected => adds_attempt fun _ => ?_
  split
  next =>
    refine (((pushes_push name).seq (pushes_push " = \x7b\x7d;\n")).adds_then none).of_eq ?_
    rfl
  next =>
    simp only [bind_assoc]
    refine adds_run fun mixed => ?_
    cases mixed with
    | some warning => exact adds_pure (some warning)
    | none =>
      simp only [bind_assoc, pure_bind]
      refine adds_attempt fun tokens => ?_
      refine (((pushes_push name).seq (tokensTail_pushes cols tokens)).adds_then none).of_eq ?_
      cases collectionLiteral cols tokens with
      | error panic => rfl
      | ok literal =>
        have text : name ++ (" = " ++ literal ++ ";\n") = name ++ " = " ++ literal ++ ";\n" := by
          simp only [String.append_assoc]
        exact congrArg (fun text => (pure (none, text) : Attempt (Option Warning × String))) text

end Writing

end ValueScript.Machine
