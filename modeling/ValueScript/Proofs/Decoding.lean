import ValueScript.Compression
import ValueScript.Proofs.Attempt
import ValueScript.Proofs.Gathering

/-! Stored documents decoded up to a limit, with any decompressor. Plain bytes stay as they are, and
compressed ones come to what their source delivers, exactly up to the limit. -/

namespace ValueScript

theorem toList_loop (bytes : ByteArray) (index : Nat) (before : List UInt8) :
    ByteArray.toList.loop bytes index before =
      before.reverse ++ bytes.data.toList.drop index := by
  fun_induction ByteArray.toList.loop bytes index before with
  | case1 index before inside ih =>
    have here : index < bytes.data.toList.length := inside
    have found : bytes.get! index = bytes.data.toList[index] := getElem!_pos bytes.data index inside
    rw [ih, List.drop_eq_getElem_cons here, found]
    simp
  | case2 index before outside =>
    have past : bytes.data.toList.length ≤ index := Nat.not_lt.mp outside
    rw [List.drop_eq_nil_of_le past, List.append_nil]

theorem isCompressed_iff {stored : ByteArray} :
    isCompressed stored = true ↔ Zstd.magic <+: stored.data.toList := by
  have front : (stored.extract 0 Zstd.magic.length).toList =
      stored.data.toList.take Zstd.magic.length := by
    rw [ByteArray.toList, toList_loop, ByteArray.data_extract]
    simp
  rw [isCompressed, beq_iff_eq, front, List.prefix_iff_eq_take, eq_comm]

namespace Decompressor

section Stored

variable {σ ε : Type} {decompressor : Decompressor σ ε} {limit : Nat} {stored : ByteArray}

theorem decode_of_plain (plain : ¬Zstd.magic <+: stored.data.toList) :
    decompressor.decode limit stored = .ok (.none, stored) := by
  rw [decode, if_neg fun compressed => plain (isCompressed_iff.mp compressed)]
  rfl

theorem decode_of_unstarted {cause : ε} (compressed : Zstd.magic <+: stored.data.toList)
    (fails : decompressor.start stored = .error cause) :
    decompressor.decode limit stored = .error (.failed cause) := by
  rw [decode, if_pos (isCompressed_iff.mpr compressed), fails]
  rfl

theorem decode_of_started {source : σ} (compressed : Zstd.magic <+: stored.data.toList)
    (starts : decompressor.start stored = .ok source) :
    decompressor.decode limit stored =
      (gather limit (decompressor.ask stored) source).map (.zstd, ·) := by
  rw [decode, if_pos (isCompressed_iff.mpr compressed), starts]
  rfl

section Compressed

variable (compressed : Zstd.magic <+: stored.data.toList)
include compressed

theorem decode_eq_ok_iff {decoded : Compression × ByteArray} :
    decompressor.decode limit stored = .ok decoded ↔ ∃ source pieces rest,
      decompressor.start stored = .ok source ∧
        Delivers (decompressor.ask stored) source pieces rest ∧
        (decompressor.ask stored rest).IsEnd ∧ (joined pieces).size ≤ limit ∧
        decoded = (.zstd, joined pieces) := by
  constructor
  · intro success
    cases starts : decompressor.start stored with
    | error cause => cases (decode_of_unstarted compressed starts).symm.trans success
    | ok source =>
      obtain ⟨content, gathered, rfl⟩ :=
        map_eq_ok ((decode_of_started compressed starts).symm.trans success)
      obtain ⟨pieces, rest, delivers, ends, within, rfl⟩ := gather_eq_ok_iff.mp gathered
      exact ⟨source, pieces, rest, rfl, delivers, ends, within, rfl⟩
  · rintro ⟨source, pieces, rest, starts, delivers, ends, within, rfl⟩
    have gathered := gather_eq_ok_iff.mpr ⟨pieces, rest, delivers, ends, within, rfl⟩
    rw [decode_of_started compressed starts, gathered]
    rfl

theorem decode_eq_error_iff {error : GatherError ε} :
    decompressor.decode limit stored = .error error ↔
      (∃ cause, decompressor.start stored = .error cause ∧ error = .failed cause) ∨
        ∃ source, decompressor.start stored = .ok source ∧
          gather limit (decompressor.ask stored) source = .error error := by
  cases starts : decompressor.start stored with
  | error cause => simp [decode_of_unstarted compressed starts, eq_comm]
  | ok source =>
    rw [decode_of_started compressed starts, ← failure?_eq_some_iff, failure?_map]
    simp [failure?_eq_some_iff]

theorem decode_eq_tooLarge_iff {bound : Nat} :
    decompressor.decode limit stored = .error (.tooLarge bound) ↔
      bound = limit ∧ ∃ source pieces rest, decompressor.start stored = .ok source ∧
        Delivers (decompressor.ask stored) source pieces rest ∧ limit < (joined pieces).size := by
  rw [decode_eq_error_iff compressed]
  constructor
  · rintro (⟨_, _, other⟩ | ⟨source, starts, gathered⟩)
    · cases other
    · obtain ⟨same, pieces, rest, delivers, excess⟩ := gather_eq_tooLarge_iff.mp gathered
      exact ⟨same, source, pieces, rest, starts, delivers, excess⟩
  · rintro ⟨same, source, pieces, rest, starts, delivers, excess⟩
    exact .inr ⟨source, starts, gather_eq_tooLarge_iff.mpr ⟨same, pieces, rest, delivers, excess⟩⟩

theorem decode_eq_failed_iff {cause : ε} :
    decompressor.decode limit stored = .error (.failed cause) ↔
      decompressor.start stored = .error cause ∨ ∃ source pieces rest,
        decompressor.start stored = .ok source ∧
          Delivers (decompressor.ask stored) source pieces rest ∧ (joined pieces).size ≤ limit ∧
          decompressor.ask stored rest = .failed cause := by
  rw [decode_eq_error_iff compressed]
  constructor
  · rintro (⟨_, fails, same⟩ | ⟨source, starts, gathered⟩)
    · cases same
      exact .inl fails
    · obtain ⟨pieces, rest, reached⟩ := gather_eq_failed_iff.mp gathered
      exact .inr ⟨source, pieces, rest, starts, reached⟩
  · rintro (fails | ⟨source, pieces, rest, starts, reached⟩)
    · exact .inl ⟨cause, fails, rfl⟩
    · exact .inr ⟨source, starts, gather_eq_failed_iff.mpr ⟨pieces, rest, reached⟩⟩

end Compressed

end Stored

/-- Plain documents are decoded to themselves, whatever their size. Compressed ones are decoded to all
that their source delivers if the end of it comes within the limit, and otherwise fail because more
comes, or because of a failure before that. Before each turn the bytes gathered are those of one
piece for each turn before it and are within the limit, and after one more turn than the limit has
bytes it is all over. If no delivery fails, nothing but the content decides. -/
theorem decode_exact_up_to_limit {σ ε : Type} (decompressor : Decompressor σ ε) (limit : Nat)
    (stored : ByteArray) :
    let start := decompressor.start stored
    let ask := decompressor.ask stored
    (¬Zstd.magic <+: stored.data.toList →
      decompressor.decode limit stored = .ok (.none, stored)) ∧
    (Zstd.magic <+: stored.data.toList →
      (∀ decoded, decompressor.decode limit stored = .ok decoded ↔
        ∃ source pieces rest, start = .ok source ∧ Delivers ask source pieces rest ∧
          (ask rest).IsEnd ∧ (joined pieces).size ≤ limit ∧ decoded = (.zstd, joined pieces)) ∧
      (∀ bound, decompressor.decode limit stored = .error (.tooLarge bound) ↔
        bound = limit ∧ ∃ source pieces rest, start = .ok source ∧
          Delivers ask source pieces rest ∧ limit < (joined pieces).size) ∧
      (∀ cause, decompressor.decode limit stored = .error (.failed cause) ↔
        start = .error cause ∨ ∃ source pieces rest, start = .ok source ∧
          Delivers ask source pieces rest ∧ (joined pieces).size ≤ limit ∧
          ask rest = .failed cause) ∧
      ∀ source, start = .ok source →
        (∀ count rest gathered, turns limit ask count source .empty = .going rest gathered →
          gathered.size ≤ limit ∧ ∃ pieces, Delivers ask source pieces rest ∧
            pieces.length = count ∧ gathered = joined pieces) ∧
        (∃ outcome, turns limit ask (limit + 1) source .empty = .finished outcome ∧
          decompressor.decode limit stored = outcome.map (.zstd, ·)) ∧
        ∀ {τ : Type} (other : Decompressor τ ε) (again : ByteArray) (source' : τ),
          Zstd.magic <+: again.data.toList → other.start again = .ok source' →
          NeverFails ask source → NeverFails (other.ask again) source' →
          SameContent ask source (other.ask again) source' →
          decompressor.decode limit stored = other.decode limit again) := by
  intro start ask
  refine ⟨decode_of_plain, fun compressed => ⟨fun _ => decode_eq_ok_iff compressed,
    fun _ => decode_eq_tooLarge_iff compressed, fun _ => decode_eq_failed_iff compressed,
    fun source starts => ⟨fun count rest gathered leads => ?_, ?_, ?_⟩⟩⟩
  · obtain ⟨small, pieces, delivers, length, rfl⟩ := delivers_of_turns (Nat.zero_le limit) leads
    exact ⟨small, pieces, delivers, length, ByteArray.empty_append⟩
  · exact ⟨_, turns_finished limit ask source, decode_of_started compressed starts⟩
  · intro τ other again source' compressed' starts' sound sound' same
    rw [decode_of_started compressed starts, decode_of_started compressed' starts',
      gather_of_sameContent sound sound' same]

/-- A decompressor that delivers these pieces for every document. -/
def ofPieces {ε : Type} (pieces : List ByteArray) : Decompressor (List ByteArray) ε where
  start _ := .ok pieces
  ask _
    | [] => .piece .empty []
    | bytes :: rest => .piece bytes rest

/-- A frame of three bytes in one block. -/
def threeByteFrame : ByteArray := ⟨#[0x28, 0xb5, 0x2f, 0xfd, 0x20, 3, 0x19, 0, 0, 97, 98, 99]⟩

/-- All of the frame comes at once, and then its end. -/
theorem ask_threeByteFrame : ∃ rest,
    Zstd.decompressor.ask threeByteFrame .initial = .piece ⟨#[97, 98, 99]⟩ rest ∧
      Zstd.decompressor.ask threeByteFrame rest = .piece .empty rest :=
  ⟨⟨12, .boundary, ⟨none, none, .initial, ⟨#[97, 98, 99]⟩⟩, 3⟩, by with_unfolding_all rfl,
    by with_unfolding_all rfl⟩

/-- The start of a frame, which is plain, and a frame of three bytes, which come at once or one by
one and are too many for a limit of two bytes only. -/
theorem decode_exact_up_to_limit_of_frame :
    let plain : ByteArray := ⟨#[0x28, 0xb5, 0x2f]⟩
    let pieces : List ByteArray := [⟨#[97]⟩, ⟨#[98]⟩, ⟨#[99]⟩]
    let whole : Decompressor Zstd.Decoder Zstd.Fault := Zstd.decompressor
    let bytewise : Decompressor (List ByteArray) Zstd.Fault := ofPieces pieces
    (¬Zstd.magic <+: plain.data.toList ∧ whole.decode 0 plain = .ok (.none, plain)) ∧
    Zstd.magic <+: threeByteFrame.data.toList ∧
    whole.decode 3 threeByteFrame = .ok (.zstd, ⟨#[97, 98, 99]⟩) ∧
    whole.decode 2 threeByteFrame = .error (.tooLarge 2) ∧
    (turns 3 (bytewise.ask threeByteFrame) 2 pieces .empty = .going [⟨#[99]⟩] ⟨#[97, 98]⟩ ∧
      ByteArray.size ⟨#[97, 98]⟩ ≤ 3) ∧
    NeverFails (whole.ask threeByteFrame) .initial ∧
    NeverFails (bytewise.ask threeByteFrame) pieces ∧
    SameContent (whole.ask threeByteFrame) .initial (bytewise.ask threeByteFrame) pieces ∧
    whole.decode 3 threeByteFrame = bytewise.decode 3 threeByteFrame := by
  intro plain pieces whole bytewise
  have short : ¬Zstd.magic <+: plain.data.toList := by decide
  have compressed : Zstd.magic <+: threeByteFrame.data.toList := by decide
  obtain ⟨rest, first, last⟩ := ask_threeByteFrame
  have delivers : Delivers (whole.ask threeByteFrame) .initial [⟨#[97, 98, 99]⟩] rest :=
    .piece first (by decide) (.nothing rest)
  have ends : (whole.ask threeByteFrame rest).IsEnd := by
    rw [last]
    rfl
  have delivers' : Delivers (bytewise.ask threeByteFrame) pieces pieces [] :=
    .piece rfl (by decide) (.piece rfl (by decide) (.piece rfl (by decide) (.nothing [])))
  have ends' : (bytewise.ask threeByteFrame []).IsEnd := rfl
  have same := (sameContent_iff_of_isEnd delivers ends delivers' ends').mpr rfl
  have sound := delivers.neverFails ends
  have sound' := delivers'.neverFails ends'
  have going : turns 3 (bytewise.ask threeByteFrame) 2 pieces .empty =
      .going [⟨#[99]⟩] ⟨#[97, 98]⟩ := rfl
  obtain ⟨decodes, -, -, runs⟩ := (decode_exact_up_to_limit whole 3 threeByteFrame).2 compressed
  obtain ⟨-, tooLarge, -⟩ := (decode_exact_up_to_limit whole 2 threeByteFrame).2 compressed
  obtain ⟨-, -, -, turned⟩ := (decode_exact_up_to_limit bytewise 3 threeByteFrame).2 compressed
  exact ⟨⟨short, (decode_exact_up_to_limit whole 0 plain).1 short⟩, compressed,
    (decodes _).mpr ⟨_, _, rest, rfl, delivers, ends, by decide, rfl⟩,
    (tooLarge 2).mpr ⟨rfl, _, _, rest, rfl, delivers, by decide⟩,
    ⟨going, ((turned pieces rfl).1 2 _ _ going).1⟩, sound, sound', same,
    (runs .initial rfl).2.2 bytewise threeByteFrame pieces compressed rfl sound sound' same⟩

end Decompressor

end ValueScript
