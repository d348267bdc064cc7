/-! Gathering a source that delivers its content in pieces, up to a limit. -/

namespace ValueScript

/-- What asking a source for more gives: a failure, or a piece and the source after it. An empty
piece means that the end is reached. -/
inductive Delivery (σ ε : Type)
  | failed (cause : ε)
  | piece (bytes : ByteArray) (rest : σ)

inductive GatherError (ε : Type)
  /-- More than this many bytes came. -/
  | tooLarge (limit : Nat)
  | failed (cause : ε)
  deriving DecidableEq

/-- Where a turn of gathering leads: to another turn with more bytes, or to the outcome. -/
inductive Turn (σ ε : Type)
  | going (rest : σ) (gathered : ByteArray)
  | finished (outcome : Except (GatherError ε) ByteArray)

section Turns

variable {σ ε : Type} {limit : Nat} {ask : σ → Delivery σ ε} {source rest : σ}
  {gathered more : ByteArray}

/-- Asks a source once. A piece that leads past the limit ends the gathering at once, whatever comes
after it. -/
def turn (limit : Nat) (ask : σ → Delivery σ ε) (source : σ) (gathered : ByteArray) : Turn σ ε :=
  match ask source with
  | .failed cause => .finished (.error (.failed cause))
  | .piece bytes rest =>
    if bytes.size = 0 then .finished (.ok gathered)
    else if limit < gathered.size + bytes.size then .finished (.error (.tooLarge limit))
    else .going rest (gathered ++ bytes)

theorem turn_eq_going (leads : turn limit ask source gathered = .going rest more) :
    ∃ bytes, ask source = .piece bytes rest ∧ bytes.size ≠ 0 ∧
      more = gathered ++ bytes ∧ more.size ≤ limit := by
  unfold turn at leads
  split at leads
  next => cases leads
  next bytes next delivered =>
    split at leads
    next => cases leads
    next filled =>
      split at leads
      next => cases leads
      next within =>
        cases leads
        exact ⟨bytes, delivered, filled, rfl, by rw [ByteArray.size_append]; omega⟩

theorem size_of_going (leads : turn limit ask source gathered = .going rest more) :
    gathered.size < more.size ∧ more.size ≤ limit := by
  obtain ⟨bytes, _, filled, rfl, within⟩ := turn_eq_going leads
  refine ⟨?_, within⟩
  rw [ByteArray.size_append]
  omega

/-- The bytes gathered so far and all that the source still delivers. -/
def gatherFrom (limit : Nat) (ask : σ → Delivery σ ε) (source : σ) (gathered : ByteArray) :
    Except (GatherError ε) ByteArray :=
  match _ : turn limit ask source gathered with
  | .finished outcome => outcome
  | .going rest more => gatherFrom limit ask rest more
termination_by limit - gathered.size
decreasing_by
  have longer := size_of_going ‹_›
  omega

def gather (limit : Nat) (ask : σ → Delivery σ ε) (source : σ) :
    Except (GatherError ε) ByteArray :=
  gatherFrom limit ask source .empty

end Turns

end ValueScript
