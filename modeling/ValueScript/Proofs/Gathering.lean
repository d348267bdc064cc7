import ValueScript.Gather

/-! What gathering comes to, told by what the source delivers. The pieces that a source delivers are a
relation between the source and what is left of it, so that a source may end, fail, or go on for
ever. -/

namespace ValueScript

/-- The bytes of some pieces, one after another. -/
def joined : List ByteArray → ByteArray
  | [] => .empty
  | bytes :: pieces => bytes ++ joined pieces

theorem joined_singleton (bytes : ByteArray) : joined [bytes] = bytes := ByteArray.append_empty

theorem joined_append (before after : List ByteArray) :
    joined (before ++ after) = joined before ++ joined after := by
  induction before with
  | nil => exact ByteArray.empty_append.symm
  | cons bytes pieces ih => rw [List.cons_append, joined, joined, ih, ByteArray.append_assoc]

/-- Whether a delivery tells that the end is reached. -/
def Delivery.IsEnd {σ ε : Type} : Delivery σ ε → Prop
  | .failed _ => False
  | .piece bytes _ => bytes.size = 0

section Sources

variable {σ ε : Type}

/-- Whether a source delivers these pieces one after another, none of them empty, and `rest` is left
of it then. -/
inductive Delivers (ask : σ → Delivery σ ε) : σ → List ByteArray → σ → Prop
  | nothing (source : σ) : Delivers ask source [] source
  | piece {source next rest : σ} {bytes : ByteArray} {pieces : List ByteArray}
      (first : ask source = .piece bytes next) (filled : bytes.size ≠ 0)
      (others : Delivers ask next pieces rest) : Delivers ask source (bytes :: pieces) rest

variable {ask : σ → Delivery σ ε} {source rest : σ} {pieces : List ByteArray}

theorem Delivers.length_le (delivers : Delivers ask source pieces rest) :
    pieces.length ≤ (joined pieces).size := by
  induction delivers with
  | nothing => exact Nat.zero_le _
  | piece first filled others ih =>
    rw [joined, ByteArray.size_append, List.length_cons]
    omega

variable {limit count : Nat} {gathered more : ByteArray}
  {outcome : Except (GatherError ε) ByteArray}

theorem turn_of_failed {cause : ε} (fails : ask source = .failed cause) :
    turn limit ask source gathered = .finished (.error (.failed cause)) := by
  rw [turn, fails]

theorem turn_of_isEnd (ends : (ask source).IsEnd) :
    turn limit ask source gathered = .finished (.ok gathered) := by
  unfold turn
  split
  next fails =>
    rw [fails] at ends
    exact ends.elim
  next delivered =>
    rw [delivered] at ends
    exact if_pos ends

theorem turn_of_piece {bytes : ByteArray} (delivered : ask source = .piece bytes rest)
    (filled : bytes.size ≠ 0) : turn limit ask source gathered =
      if limit < (gathered ++ bytes).size then .finished (.error (.tooLarge limit))
      else .going rest (gathered ++ bytes) := by
  rw [turn, delivered, ByteArray.size_append]
  exact if_neg filled

/-- What gathering comes to from some bytes on, told by what the source delivers: all of it if the end
comes within the limit, and a failure if that comes within the limit. -/
inductive Gathers (limit : Nat) (ask : σ → Delivery σ ε) (source : σ) (gathered : ByteArray) :
    Except (GatherError ε) ByteArray → Prop
  | whole {pieces : List ByteArray} {rest : σ} (delivers : Delivers ask source pieces rest)
      (ends : (ask rest).IsEnd) (within : (gathered ++ joined pieces).size ≤ limit) :
      Gathers limit ask source gathered (.ok (gathered ++ joined pieces))
  | tooLarge {pieces : List ByteArray} {rest : σ} (delivers : Delivers ask source pieces rest)
      (excess : limit < (gathered ++ joined pieces).size) :
      Gathers limit ask source gathered (.error (.tooLarge limit))
  | failed {pieces : List ByteArray} {rest : σ} {cause : ε}
      (delivers : Delivers ask source pieces rest) (fails : ask rest = .failed cause)
      (within : (gathered ++ joined pieces).size ≤ limit) :
      Gathers limit ask source gathered (.error (.failed cause))

theorem gathers_of_finished (fits : gathered.size ≤ limit)
    (leads : turn limit ask source gathered = .finished outcome) :
    Gathers limit ask source gathered outcome := by
  have still : gathered ++ joined [] = gathered := ByteArray.append_empty
  cases delivered : ask source with
  | failed cause =>
    rw [turn_of_failed delivered] at leads
    cases leads
    exact .failed (.nothing source) delivered (by rwa [still])
  | piece bytes rest =>
    by_cases empty : bytes.size = 0
    · have ends : (ask source).IsEnd := by rwa [delivered]
      rw [turn_of_isEnd ends] at leads
      cases leads
      have whole : Gathers limit ask source gathered _ :=
        .whole (.nothing source) ends (by rwa [still])
      rwa [still] at whole
    · rw [turn_of_piece delivered empty] at leads
      split at leads
      next excess =>
        cases leads
        refine .tooLarge (.piece delivered empty (.nothing rest)) ?_
        rwa [joined_singleton]
      next => cases leads

theorem Gathers.of_going (leads : turn limit ask source gathered = .going rest more)
    (gathers : Gathers limit ask rest more outcome) : Gathers limit ask source gathered outcome := by
  obtain ⟨bytes, delivered, filled, rfl, -⟩ := turn_eq_going leads
  have longer (pieces : List ByteArray) :
      gathered ++ bytes ++ joined pieces = gathered ++ joined (bytes :: pieces) :=
    ByteArray.append_assoc
  cases gathers with
  | whole delivers ends within =>
    rw [longer] at within ⊢
    exact .whole (.piece delivered filled delivers) ends within
  | tooLarge delivers excess =>
    rw [longer] at excess
    exact .tooLarge (.piece delivered filled delivers) excess
  | failed delivers fails within =>
    rw [longer] at within
    exact .failed (.piece delivered filled delivers) fails within

theorem gathers_gatherFrom (fits : gathered.size ≤ limit) :
    Gathers limit ask source gathered (gatherFrom limit ask source gathered) := by
  fun_induction gatherFrom limit ask source gathered with
  | case1 source gathered outcome leads => exact gathers_of_finished fits leads
  | case2 source gathered rest more leads ih => exact (ih (size_of_going leads).2).of_going leads

theorem gatherFrom_of_finished (leads : turn limit ask source gathered = .finished outcome) :
    gatherFrom limit ask source gathered = outcome := by
  rw [gatherFrom]
  split
  next other => cases leads.symm.trans other; rfl
  next other => cases leads.symm.trans other

theorem gatherFrom_of_going (leads : turn limit ask source gathered = .going rest more) :
    gatherFrom limit ask source gathered = gatherFrom limit ask rest more := by
  rw [gatherFrom]
  split
  next other => cases leads.symm.trans other
  next other => cases leads.symm.trans other; rfl

/-- Pieces within the limit are gathered, and the gathering goes on after them. -/
theorem gatherFrom_of_within (delivers : Delivers ask source pieces rest)
    (within : (gathered ++ joined pieces).size ≤ limit) :
    gatherFrom limit ask source gathered = gatherFrom limit ask rest (gathered ++ joined pieces) := by
  induction delivers generalizing gathered with
  | nothing => rw [joined, ByteArray.append_empty]
  | @piece source next rest bytes pieces first filled others ih =>
    rw [joined, ← ByteArray.append_assoc] at within ⊢
    have room : ¬limit < (gathered ++ bytes).size := by
      rw [ByteArray.size_append] at within
      omega
    rw [gatherFrom_of_going ((turn_of_piece first filled).trans (if_neg room)), ih within]

theorem gatherFrom_of_excess (delivers : Delivers ask source pieces rest)
    (fits : gathered.size ≤ limit) (excess : limit < (gathered ++ joined pieces).size) :
    gatherFrom limit ask source gathered = .error (.tooLarge limit) := by
  induction delivers generalizing gathered with
  | nothing =>
    rw [joined, ByteArray.append_empty] at excess
    omega
  | @piece source next rest bytes pieces first filled others ih =>
    have turned : turn limit ask source gathered = _ := turn_of_piece first filled
    rw [joined, ← ByteArray.append_assoc] at excess
    by_cases past : limit < (gathered ++ bytes).size
    · exact gatherFrom_of_finished (turned.trans (if_pos past))
    · rw [gatherFrom_of_going (turned.trans (if_neg past)), ih (Nat.not_lt.mp past) excess]

theorem gatherFrom_eq_iff (fits : gathered.size ≤ limit) :
    gatherFrom limit ask source gathered = outcome ↔ Gathers limit ask source gathered outcome := by
  constructor
  · rintro rfl
    exact gathers_gatherFrom fits
  · intro gathers
    cases gathers with
    | whole delivers ends within =>
      rw [gatherFrom_of_within delivers within, gatherFrom_of_finished (turn_of_isEnd ends)]
    | tooLarge delivers excess => exact gatherFrom_of_excess delivers fits excess
    | failed delivers fails within =>
      rw [gatherFrom_of_within delivers within, gatherFrom_of_finished (turn_of_failed fails)]

theorem gather_eq_ok_iff {content : ByteArray} : gather limit ask source = .ok content ↔
    ∃ pieces rest, Delivers ask source pieces rest ∧ (ask rest).IsEnd ∧
      (joined pieces).size ≤ limit ∧ content = joined pieces := by
  rw [gather, gatherFrom_eq_iff (Nat.zero_le limit)]
  constructor
  · intro gathers
    cases gathers with
    | whole delivers ends within =>
      rw [ByteArray.empty_append] at within ⊢
      exact ⟨_, _, delivers, ends, within, rfl⟩
  · rintro ⟨pieces, rest, delivers, ends, within, rfl⟩
    rw [← ByteArray.empty_append (b := joined pieces)] at within ⊢
    exact .whole delivers ends within

theorem gather_eq_tooLarge_iff {bound : Nat} :
    gather limit ask source = .error (.tooLarge bound) ↔
      bound = limit ∧ ∃ pieces rest, Delivers ask source pieces rest ∧
        limit < (joined pieces).size := by
  rw [gather, gatherFrom_eq_iff (Nat.zero_le limit)]
  constructor
  · intro gathers
    cases gathers with
    | tooLarge delivers excess =>
      rw [ByteArray.empty_append] at excess
      exact ⟨rfl, _, _, delivers, excess⟩
  · rintro ⟨rfl, pieces, rest, delivers, excess⟩
    rw [← ByteArray.empty_append (b := joined pieces)] at excess
    exact .tooLarge delivers excess

theorem gather_eq_failed_iff {cause : ε} : gather limit ask source = .error (.failed cause) ↔
    ∃ pieces rest, Delivers ask source pieces rest ∧ (joined pieces).size ≤ limit ∧
      ask rest = .failed cause := by
  rw [gather, gatherFrom_eq_iff (Nat.zero_le limit)]
  constructor
  · intro gathers
    cases gathers with
    | failed delivers fails within =>
      rw [ByteArray.empty_append] at within
      exact ⟨_, _, delivers, within, fails⟩
  · rintro ⟨pieces, rest, delivers, within, fails⟩
    rw [← ByteArray.empty_append (b := joined pieces)] at within
    exact .failed delivers fails within

/-- Where so many turns of gathering lead, if it is not over before. -/
def turns (limit : Nat) (ask : σ → Delivery σ ε) : Nat → σ → ByteArray → Turn σ ε
  | 0, source, gathered => .going source gathered
  | count + 1, source, gathered =>
    match turn limit ask source gathered with
    | .going rest more => turns limit ask count rest more
    | .finished outcome => .finished outcome

/-- While gathering goes on, the bytes gathered are those of one piece for each turn, and they are
within the limit. -/
theorem delivers_of_turns (fits : gathered.size ≤ limit)
    (leads : turns limit ask count source gathered = .going rest more) :
    more.size ≤ limit ∧ ∃ pieces, Delivers ask source pieces rest ∧ pieces.length = count ∧
      more = gathered ++ joined pieces := by
  induction count generalizing source gathered with
  | zero =>
    cases leads
    exact ⟨fits, [], .nothing _, rfl, ByteArray.append_empty.symm⟩
  | succ count ih =>
    rw [turns] at leads
    split at leads
    next next longer first =>
      obtain ⟨bytes, delivered, filled, rfl, within⟩ := turn_eq_going first
      obtain ⟨small, pieces, delivers, rfl, rfl⟩ := ih within leads
      exact ⟨small, bytes :: pieces, .piece delivered filled delivers, rfl, ByteArray.append_assoc⟩
    next => cases leads

theorem gatherFrom_of_turns (leads : turns limit ask count source gathered = .finished outcome) :
    gatherFrom limit ask source gathered = outcome := by
  induction count generalizing source gathered with
  | zero => cases leads
  | succ count ih =>
    rw [turns] at leads
    split at leads
    next first => rw [gatherFrom_of_going first, ih leads]
    next first =>
      cases leads
      exact gatherFrom_of_finished first

/-- Gathering is over after one turn for each byte of the limit and one more, even if there is no end
of what the source delivers. -/
theorem turns_finished (limit : Nat) (ask : σ → Delivery σ ε) (source : σ) :
    turns limit ask (limit + 1) source .empty = .finished (gather limit ask source) := by
  cases leads : turns limit ask (limit + 1) source .empty with
  | going rest more =>
    obtain ⟨small, pieces, delivers, count, rfl⟩ := delivers_of_turns (Nat.zero_le _) leads
    have many := delivers.length_le
    rw [ByteArray.empty_append] at small
    omega
  | finished outcome => rw [gather, gatherFrom_of_turns leads]

/-- Whether the content of a source begins so. -/
def Begins (ask : σ → Delivery σ ε) (source : σ) (content : ByteArray) : Prop :=
  ∃ pieces rest more, Delivers ask source pieces rest ∧ joined pieces = content ++ more

/-- Whether no delivery of a source is a failure. -/
def NeverFails (ask : σ → Delivery σ ε) (source : σ) : Prop :=
  ∀ pieces rest, Delivers ask source pieces rest → ∀ cause, ask rest ≠ .failed cause

/-- Whether two sources have the same content, whatever pieces it comes in and whether or not there
is an end of it. -/
def SameContent {τ : Type} (ask : σ → Delivery σ ε) (source : σ) (other : τ → Delivery τ ε)
    (start : τ) : Prop :=
  ∀ content, Begins ask source content ↔ Begins other start content

theorem Delivers.begins (delivers : Delivers ask source pieces rest) :
    Begins ask source (joined pieces) :=
  ⟨pieces, rest, .empty, delivers, ByteArray.append_empty.symm⟩

theorem Delivers.split_at (delivers : Delivers ask source pieces rest) (ends : (ask rest).IsEnd)
    {before : List ByteArray} {left : σ} (part : Delivers ask source before left) :
    ∃ after, pieces = before ++ after ∧ Delivers ask left after rest := by
  induction part generalizing pieces with
  | nothing => exact ⟨pieces, rfl, delivers⟩
  | piece first filled _ ih =>
    cases delivers with
    | nothing =>
      rw [first] at ends
      exact absurd ends filled
    | piece again _ remaining =>
      cases first.symm.trans again
      obtain ⟨after, rfl, others⟩ := ih remaining
      exact ⟨after, rfl, others⟩

/-- The content of a source with an end begins as all that it delivers does. -/
theorem Delivers.begins_iff (delivers : Delivers ask source pieces rest)
    (ends : (ask rest).IsEnd) {content : ByteArray} :
    Begins ask source content ↔ ∃ more, joined pieces = content ++ more := by
  constructor
  · rintro ⟨before, left, more, part, split⟩
    obtain ⟨after, rfl, _⟩ := delivers.split_at ends part
    exact ⟨more ++ joined after, by rw [joined_append, split, ByteArray.append_assoc]⟩
  · rintro ⟨more, split⟩
    exact ⟨pieces, rest, more, delivers, split⟩

theorem Delivers.neverFails (delivers : Delivers ask source pieces rest)
    (ends : (ask rest).IsEnd) : NeverFails ask source := by
  intro before left part cause fails
  obtain ⟨after, _, others⟩ := delivers.split_at ends part
  cases others with
  | nothing =>
    rw [fails] at ends
    exact ends
  | piece first _ _ => cases first.symm.trans fails

section Content

variable {τ : Type} {other : τ → Delivery τ ε} {start last : τ} {parts : List ByteArray}

/-- Sources with ends have the same content exactly when all their pieces come to the same bytes. -/
theorem sameContent_iff_of_isEnd (delivers : Delivers ask source pieces rest)
    (ends : (ask rest).IsEnd) (delivers' : Delivers other start parts last)
    (ends' : (other last).IsEnd) :
    SameContent ask source other start ↔ joined pieces = joined parts := by
  constructor
  · intro same
    obtain ⟨tail, split⟩ := (delivers.begins_iff ends).mp ((same _).mpr delivers'.begins)
    obtain ⟨tail', split'⟩ := (delivers'.begins_iff ends').mp ((same _).mp delivers.begins)
    have empty : tail = .empty := by
      have sizes := congrArg ByteArray.size split
      have sizes' := congrArg ByteArray.size split'
      rw [ByteArray.size_append] at sizes sizes'
      exact ByteArray.size_eq_zero_iff.mp (by omega)
    rw [split, empty, ByteArray.append_empty]
  · intro same content
    rw [delivers.begins_iff ends, delivers'.begins_iff ends', same]

/-- Gathering a source that never fails comes to what its content tells, whatever pieces it comes
in. -/
theorem Gathers.of_sameContent (gathers : Gathers limit ask source gathered outcome)
    (fits : gathered.size ≤ limit) (sound : NeverFails ask source)
    (sound' : NeverFails other start) (same : SameContent ask source other start) :
    Gathers limit other start gathered outcome := by
  cases gathers with
  | @whole pieces rest delivers ends within =>
    have reached : Gathers limit other start gathered _ := gathers_gatherFrom fits
    generalize gatherFrom limit other start gathered = found at reached
    cases reached with
    | whole delivers' ends' within' =>
      rw [(sameContent_iff_of_isEnd delivers ends delivers' ends').mp same]
      exact .whole delivers' ends' within'
    | tooLarge delivers' excess =>
      obtain ⟨tail, split⟩ := (delivers.begins_iff ends).mp ((same _).mpr delivers'.begins)
      rw [split] at within
      simp only [ByteArray.size_append] at within excess
      omega
    | failed delivers' fails _ => exact absurd fails (sound' _ _ delivers' _)
  | tooLarge delivers excess =>
    obtain ⟨parts, last, tail, delivers', split⟩ := (same _).mp delivers.begins
    refine .tooLarge delivers' ?_
    rw [split]
    simp only [ByteArray.size_append] at excess ⊢
    omega
  | failed delivers fails _ => exact absurd fails (sound _ _ delivers _)

/-- Sources that never fail and have the same content are gathered alike, whatever pieces the content
comes in. -/
theorem gather_of_sameContent (sound : NeverFails ask source) (sound' : NeverFails other start)
    (same : SameContent ask source other start) :
    gather limit ask source = gather limit other start := by
  have fits : ByteArray.empty.size ≤ limit := Nat.zero_le limit
  have gathers := (gathers_gatherFrom fits).of_sameContent fits sound sound' same
  exact ((gatherFrom_eq_iff fits).mpr gathers).symm

end Content

end Sources

end ValueScript
