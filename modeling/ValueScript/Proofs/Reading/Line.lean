import ValueScript.Proofs.Delimited
import ValueScript.Proofs.Token

namespace ValueScript

/-- A line without its end. -/
abbrev Line := List Char

namespace Line

open Token

/-- The tokens of a line, whatever stands between them. -/
def words : Line → List String
  | [] => []
  | char :: rest =>
    if char = '\'' then
      quoted (rest.takeWhile (· ≠ '\'')) :: words ((rest.dropWhile (· ≠ '\'')).drop 1)
    else if plain char then String.ofList (char :: rest.takeWhile plain) :: words (rest.dropWhile plain)
    else words rest
termination_by line => line.length
decreasing_by
  all_goals
    have shorter := (List.dropWhile_suffix (l := rest) (· ≠ '\'')).length_le
    have shorter' := (List.dropWhile_suffix (l := rest) plain).length_le
    simp only [List.length_drop, List.length_cons]
    omega

/-- The characters between the first two quotes of a line. -/
def between (line : Line) : List String :=
  (((line.dropWhile (· ≠ '\'')).drop 1).takeWhile (· ≠ '\'')).map String.singleton

/-- Whether a character belongs to no token. -/
def idle (char : Char) : Bool := !plain char && char ≠ '\''

theorem idle_iff {char : Char} : idle char = true ↔ plain char = false ∧ char ≠ '\'' := by
  simp [idle]

/-- What may stand between tokens: something, but nothing that belongs to a token. -/
def Gap (gap : List Char) : Prop := gap ≠ [] ∧ gap.all idle = true

theorem words_skip {gap : List Char} (rest : Line) (skipped : gap.all idle = true) :
    words (gap ++ rest) = words rest := by
  induction gap with
  | nil => rfl
  | cons char more ih =>
    rw [List.all_cons, Bool.and_eq_true, idle_iff] at skipped
    obtain ⟨⟨other, unquoted⟩, later⟩ := skipped
    rw [List.cons_append, words, if_neg unquoted, other, if_neg Bool.false_ne_true]
    exact ih later

theorem Gap.stops {gap : List Char} (isGap : Gap gap) (rest : Line) : Stops plain (gap ++ rest) := by
  obtain ⟨nonempty, skipped⟩ := isGap
  cases gap with
  | nil => exact absurd rfl nonempty
  | cons char more =>
    rw [List.all_cons, Bool.and_eq_true, idle_iff] at skipped
    exact Stops.cons skipped.1.1 (more ++ rest)

/-- A token at the start of a line is read up to what follows it. -/
theorem words_token {token : String} (clear : Clear token) {rest : Line} (stop : Stops plain rest) :
    words (token.toList ++ rest) = token :: words rest := by
  rcases clear with ⟨nonempty, all⟩ | ⟨chars, rfl, quoteless, _⟩
  · obtain ⟨char, more, split⟩ := List.exists_cons_of_ne_nil nonempty
    rw [split] at all
    obtain ⟨first, later⟩ := List.forall_mem_cons.mp all
    have unquoted : char ≠ '\'' := by
      rintro rfl
      cases first
    rw [split, List.cons_append, words, if_neg unquoted, if_pos first,
      takeWhile_delimited later stop, dropWhile_delimited later stop, ← split, String.ofList_toList]
  · have inside : ∀ char ∈ chars, decide (char ≠ '\'') = true := by
      intro char member
      exact decide_eq_true fun same => quoteless (same ▸ member)
    have closed : Stops (fun char => decide (char ≠ '\'')) ('\'' :: rest) := Stops.cons (by decide) rest
    have written : (quoted chars).toList ++ rest = '\'' :: (chars ++ '\'' :: rest) := by
      simp [quoted]
    rw [written, words, if_pos rfl, takeWhile_delimited inside closed,
      dropWhile_delimited inside closed]
    rfl

theorem words_closed {tokens : List String} (clear : ∀ token ∈ tokens, Clear token) {gap : String}
    (isGap : Gap gap.toList) (rest : Line) :
    words ((String.join (tokens.map (· ++ gap))).toList ++ rest) = tokens ++ words rest := by
  induction tokens with
  | nil => rfl
  | cons token more ih =>
    obtain ⟨first, later⟩ := List.forall_mem_cons.mp clear
    have apart : (String.join ((token :: more).map (· ++ gap))).toList ++ rest =
        token.toList ++ (gap.toList ++ ((String.join (more.map (· ++ gap))).toList ++ rest)) := by
      simp
    rw [apart, words_token first (isGap.stops _), words_skip _ isGap.2, ih later, List.cons_append]

theorem words_intercalate {tokens : List String} (clear : ∀ token ∈ tokens, Clear token)
    {gap : String} (isGap : Gap gap.toList) {rest : Line} (stop : Stops plain rest) :
    words ((gap.intercalate tokens).toList ++ rest) = tokens ++ words rest := by
  match tokens with
  | [] => simp
  | [token] => simpa using words_token (clear token List.mem_cons_self) stop
  | token :: next :: more =>
    obtain ⟨first, later⟩ := List.forall_mem_cons.mp clear
    rw [String.intercalate_cons_cons]
    simp only [String.toList_append, List.append_assoc]
    rw [words_token first (isGap.stops _), words_skip _ isGap.2, words_intercalate later isGap stop]
    rfl

/-- Text between quotes, at the start of a line or not, is read cell by cell. -/
theorem between_quotes {cells : List String}
    (letters : ∀ cell ∈ cells, ∃ char, cell = String.singleton char ∧ char ≠ '\'') {indent : Line}
    (unquoted : '\'' ∉ indent) (rest : Line) :
    between (indent ++ '\'' :: ((String.join cells).toList ++ '\'' :: rest)) = cells := by
  have before : ∀ char ∈ indent, decide (char ≠ '\'') = true := by
    intro char member
    exact decide_eq_true fun same => unquoted (same ▸ member)
  have inside : ∀ char ∈ (String.join cells).toList, decide (char ≠ '\'') = true := by
    intro char member
    rw [String.toList_join] at member
    obtain ⟨cell, listed, within⟩ := List.mem_flatMap.mp member
    obtain ⟨letter, rfl, apart⟩ := letters cell listed
    rw [String.toList_singleton, List.mem_singleton] at within
    exact decide_eq_true (within ▸ apart)
  have stop (rest : Line) : Stops (fun char => decide (char ≠ '\'')) ('\'' :: rest) :=
    Stops.cons (by decide) rest
  unfold between
  rw [dropWhile_delimited before (stop _), List.drop_succ_cons, List.drop_zero,
    takeWhile_delimited inside (stop _)]
  clear before inside
  induction cells with
  | nil => rfl
  | cons cell more ih =>
    obtain ⟨⟨letter, rfl, _⟩, later⟩ := List.forall_mem_cons.mp letters
    simpa using ih later

end Line

end ValueScript
