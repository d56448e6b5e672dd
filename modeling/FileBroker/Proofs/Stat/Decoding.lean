import Mathlib
import FileBroker.Proofs.Channel.Reading
import FileBroker.Stat

namespace FileBroker.StatDecoder

open Snapshot

-- An indicator is 8 bytes long, and a record 32.
def verdict (bytes : Bytes) : Option StatOutcome :=
  if bytes.length < 8 then none
  else if LittleEndian.decode (bytes.take 8) ≠ 0 then some .errorFollows
  else if bytes.length < 40 then none
  else some (.snapshot (ofRecord ((bytes.drop 8).take 32)))

def extent (bytes : Bytes) : Nat :=
  if 8 ≤ bytes.length ∧ LittleEndian.decode (bytes.take 8) ≠ 0 then 8 else min bytes.length 40

def after (seen : Bytes) : StatDecoder where
  indicator := seen.take 8
  record    := seen.drop 8
  outcome   := verdict seen

-- Either the indicator is not complete, or it announces a text, or a record that may be incomplete.
theorem verdict_cases (bytes : Bytes) :
    (bytes.length < 8 ∧ verdict bytes = none ∧ extent bytes = bytes.length) ∨
    (8 ≤ bytes.length ∧ LittleEndian.decode (bytes.take 8) ≠ 0 ∧
      verdict bytes = some .errorFollows ∧ extent bytes = 8) ∨
    (8 ≤ bytes.length ∧ bytes.length < 40 ∧ LittleEndian.decode (bytes.take 8) = 0 ∧
      verdict bytes = none ∧ extent bytes = bytes.length) ∨
    (40 ≤ bytes.length ∧ LittleEndian.decode (bytes.take 8) = 0 ∧
      verdict bytes = some (.snapshot (ofRecord ((bytes.drop 8).take 32))) ∧ extent bytes = 40) := by
  unfold verdict extent
  by_cases h₁ : bytes.length < 8
  case pos =>
    refine .inl ⟨h₁, if_pos h₁, ?_⟩
    rw [if_neg (by omega)]
    omega
  case neg =>
    by_cases hz : LittleEndian.decode (bytes.take 8) = 0
    case neg => exact .inr <| .inl ⟨by omega, hz, by simp [h₁, hz], if_pos ⟨by omega, hz⟩⟩
    case pos =>
      by_cases h₂ : bytes.length < 40
      case pos =>
        refine .inr <| .inr <| .inl ⟨by omega, h₂, hz, by simp [h₁, h₂, hz], ?_⟩
        rw [if_neg (by simp [hz])]
        omega
      case neg =>
        refine .inr <| .inr <| .inr ⟨by omega, hz, by simp [h₁, h₂, hz], ?_⟩
        rw [if_neg (by simp [hz])]
        omega

theorem extent_le (bytes : Bytes) : extent bytes ≤ bytes.length := by
  obtain h | h | h | h := verdict_cases bytes <;> omega

-- An undecided decoder has taken all it was given.
theorem extent_of_verdict_none (h : verdict bytes = none) : extent bytes = bytes.length := by
  obtain h' | h' | h' | h' := verdict_cases bytes <;> simp_all

theorem after_short (h : seen.length < 8) :
    after seen = { indicator := seen, record := [], outcome := none } := by
  simp [after, verdict, h, List.take_of_length_le, List.drop_of_length_le, Nat.le_of_lt]

theorem after_undecided (hv : verdict seen = none) :
    after seen = { indicator := seen.take 8, record := seen.drop 8, outcome := none } := by
  rw [after, hv]

theorem fillIndicator_after (hs : seen.length < 8) (hh : (seen ++ head).length ≤ 8) :
    (after seen).fillIndicator head = after (seen ++ head) := by
  have hi : (seen ++ head).take 8 = seen ++ head := List.take_of_length_le hh
  have hr : (seen ++ head).drop 8 = [] := List.drop_of_length_le hh
  rw [after_short hs, fillIndicator, after, hi, hr, indicatorLength]
  dsimp only
  obtain ⟨_, hv, _⟩ | ⟨_, hn, hv, _⟩ | ⟨_, _, hz, hv, _⟩ | ⟨_, _⟩ := verdict_cases (seen ++ head)
  case inl => rw [hv, if_neg (by omega)]
  case inr.inl => rw [hv, if_pos ⟨by omega, hi ▸ hn⟩]
  case inr.inr.inl => rw [hv, if_neg fun h => h.right (hi ▸ hz)]
  case inr.inr.inr => omega

theorem indicator_zero (hs : 8 ≤ seen.length) (hv : verdict seen = none) :
    seen.length < 40 ∧ LittleEndian.decode (seen.take 8) = 0 := by
  obtain ⟨_, _⟩ | ⟨_, _, hv', _⟩ | ⟨_, hl, hz, _⟩ | ⟨_, _, hv', _⟩ := verdict_cases seen
  case inl => omega
  case inr.inl => simp [hv] at hv'
  case inr.inr.inl => exact ⟨hl, hz⟩
  case inr.inr.inr => simp [hv] at hv'

-- An indicator of zero says that the bytes up to the fortieth belong together.
theorem extent_append (hs : 8 ≤ seen.length) (hv : verdict seen = none) (more : Bytes) :
    extent (seen ++ more) = min (seen ++ more).length 40 := by
  have hz := (indicator_zero hs hv).right
  rw [extent, List.take_append_of_le_length hs, if_neg (by simp [hz])]

theorem fillRecord_after (hs : 8 ≤ seen.length) (hv : verdict seen = none)
    (hb : (seen ++ body).length ≤ 40) : (after seen).fillRecord body = after (seen ++ body) := by
  have hi : (seen ++ body).take 8 = seen.take 8 := List.take_append_of_le_length hs
  have hr : (seen ++ body).drop 8 = seen.drop 8 ++ body := List.drop_append_of_le_length hs
  have hl : (seen.drop 8 ++ body).length = (seen ++ body).length - 8 := by simp; omega
  have hz := (indicator_zero hs hv).right
  rw [after_undecided hv, fillRecord, after, hi, hr, recordLength]
  dsimp only
  obtain ⟨hn, _⟩ | ⟨_, hn, _⟩ | ⟨_, _, _, hv, _⟩ | ⟨_, _, hv, _⟩ := verdict_cases (seen ++ body)
  case inl =>
    rw [List.length_append] at hn
    omega
  case inr.inl => simp [hi, hz] at hn
  case inr.inr.inl => rw [hv, if_neg (by omega)]
  case inr.inr.inr =>
    have ht : (seen.drop 8 ++ body).take 32 = seen.drop 8 ++ body :=
      List.take_of_length_le (by omega)
    rw [hv, if_pos (by omega), hr, ht]

-- The part of `feed` that follows a complete indicator.
theorem fillRecord_chunk (hs : 8 ≤ seen.length) (hv : verdict seen = none) (chunk : Bytes) :
    let body := chunk.take (recordLength - (after seen).record.length)
    (after seen).fillRecord body = after ((seen ++ chunk).take (extent (seen ++ chunk))) ∧
      body.length = extent (seen ++ chunk) - seen.length := by
  have hl := (indicator_zero hs hv).left
  have hr : recordLength - (after seen).record.length = 40 - seen.length := by
    simp [recordLength, after]
    omega
  have ht : (seen ++ chunk).take (extent (seen ++ chunk)) = seen ++ chunk.take (40 - seen.length) := by
    rw [extent_append hs hv, Nat.min_comm, ←List.take_take, List.take_length, List.take_append,
      List.take_of_length_le (Nat.le_of_lt hl)]
  intro body
  simp only [body, hr, ht]
  refine ⟨fillRecord_after hs hv ?_, ?_⟩
  · simp
    omega
  · simp [extent_append hs hv]
    omega

theorem feed_after (h : verdict seen = none) (chunk : Bytes) :
    (after seen).feed chunk =
      (after ((seen ++ chunk).take (extent (seen ++ chunk))),
        extent (seen ++ chunk) - seen.length) := by
  have ho : (after seen).outcome.isSome = false := by simp [after, h]
  rw [feed, if_neg (by simp [ho])]
  by_cases hs : seen.length < 8
  case neg =>
    have hi : (after seen).indicator.length = 8 := by simp [after]; omega
    have hf : (after seen).fillIndicator [] = after seen := by
      have hz := (indicator_zero (by omega) h).right
      rw [after_undecided h, fillIndicator, List.append_nil, if_neg (by simp [hz])]
    have ⟨hb, hl⟩ := fillRecord_chunk (by omega) h chunk
    simp [indicatorLength, hi, hf, ho, hb, hl]
  case pos =>
    have hi : (after seen).indicator.length = seen.length := by rw [after_short hs]
    have hh : seen ++ chunk.take (8 - seen.length) = (seen ++ chunk).take 8 := by
      rw [List.take_append, List.take_of_length_le (Nat.le_of_lt hs)]
    have hl : (chunk.take (8 - seen.length)).length = ((seen ++ chunk).take 8).length - seen.length := by
      simp [←hh]
    simp only [indicatorLength, hi]
    rw [fillIndicator_after hs (hh ▸ List.length_take_le ..), hh, hl]
    have ha : seen.length ≤ (seen ++ chunk).length := by simp
    generalize hall : seen ++ chunk = all at *
    by_cases hv : 8 ≤ all.length ∧ LittleEndian.decode (all.take 8) = 0
    case neg =>
      -- The indicator stays incomplete, or it announces a text.
      have hx : extent all = (all.take 8).length ∧
          ((after (all.take 8)).outcome.isSome ∨ (after (all.take 8)).indicator.length < 8) := by
        rw [List.length_take]
        obtain ⟨hn, _, hx⟩ | ⟨hn, hz, _, hx⟩ | ⟨hn, _, hz, _⟩ | ⟨hn, hz, _⟩ := verdict_cases all
        case inl => exact ⟨by omega, .inr <| by simp [after]; omega⟩
        case inr.inl =>
          exact ⟨by omega, .inl <| by simp [after, verdict, Nat.min_eq_left hn, List.take_take, hz]⟩
        all_goals exact absurd ⟨by omega, hz⟩ hv
      rw [if_pos hx.right, hx.left, List.length_take, ←List.take_take, List.take_length]
    case pos =>
      have ht : (all.take 8).length = 8 := List.length_take_of_le hv.left
      have hn : verdict (all.take 8) = none := by
        simp [verdict, Nat.min_eq_left hv.left, List.take_take, hv.right]
      have hd : ¬((after (all.take 8)).outcome.isSome ∨ (after (all.take 8)).indicator.length < 8) := by
        simp [after, hn, hv.left]
      have hsplit : all.take 8 ++ chunk.drop (8 - seen.length) = all := by
        rw [←hh, List.append_assoc, List.take_append_drop, hall]
      have hx : 8 ≤ extent all := by
        rw [←hsplit, extent_append (Nat.le_of_eq ht.symm) hn, hsplit]
        omega
      have ⟨hb, hl⟩ := fillRecord_chunk (Nat.le_of_eq ht.symm) hn (chunk.drop (8 - seen.length))
      simp only [hsplit, ht] at hb hl
      rw [if_neg hd, ht, hb, hl]
      congr 1
      omega

theorem verdict_take_extent (bytes : Bytes) : verdict (bytes.take (extent bytes)) = verdict bytes := by
  obtain ⟨_, _, hx⟩ | ⟨hn, hz, hv, hx⟩ | ⟨_, _, _, _, hx⟩ | ⟨hn, hz, hv, hx⟩ := verdict_cases bytes
  case inl => rw [hx, List.take_length]
  case inr.inl => simp [hx, verdict, List.take_take, hz, hn]
  case inr.inr.inl => rw [hx, List.take_length]
  case inr.inr.inr =>
    rw [hx, hv]
    simp [verdict, Nat.min_eq_left hn, List.take_take, hz, List.drop_take]

-- What was announced stays announced, whatever follows.
theorem verdict_append (h : verdict bytes = some o) (more : Bytes) :
    verdict (bytes ++ more) = some o ∧ extent (bytes ++ more) = extent bytes := by
  obtain ⟨_, hv, _⟩ | ⟨hn, hz, hv, hx⟩ | ⟨_, _, _, hv, _⟩ | ⟨hn, hz, hv, hx⟩ := verdict_cases bytes
  case inl => simp [hv] at h
  case inr.inl =>
    have ht : (bytes ++ more).take 8 = bytes.take 8 := List.take_append_of_le_length hn
    have hl : ¬(bytes ++ more).length < 8 := by simp; omega
    rw [←h, hv, hx]
    exact ⟨by rw [verdict, if_neg hl, if_pos (ht ▸ hz)], if_pos ⟨by omega, ht ▸ hz⟩⟩
  case inr.inr.inl => simp [hv] at h
  case inr.inr.inr =>
    have ht : (bytes ++ more).take 8 = bytes.take 8 := List.take_append_of_le_length (by omega)
    have hr : ((bytes ++ more).drop 8).take 32 = (bytes.drop 8).take 32 := by
      rw [List.drop_append_of_le_length (by omega), List.take_append_of_le_length (by simp; omega)]
    have hl : ¬(bytes ++ more).length < 8 ∧ ¬(bytes ++ more).length < 40 := by simp; omega
    rw [←h, hv, hx]
    refine ⟨?_, ?_⟩
    · rw [verdict, if_neg hl.left, if_neg (by simp [ht, hz]), if_neg hl.right, hr]
    · rw [extent, if_neg (by simp [ht, hz])]
      omega

theorem verdict_of_append_none (h : verdict (bytes ++ more) = none) : verdict bytes = none := by
  cases hv : verdict bytes
  case none => rfl
  case some => simp [(verdict_append hv more).left] at h

-- What is announced in the end is announced as soon as all that it needs is there.
theorem verdict_isSome_iff (h : verdict (seen ++ more) = some o) :
    (verdict seen).isSome ↔ extent (seen ++ more) ≤ seen.length := by
  constructor
  case mp =>
    intro hv
    have ⟨_, hv⟩ := Option.isSome_iff_exists.mp hv
    exact (verdict_append hv more).right ▸ extent_le seen
  case mpr =>
    intro hl
    have ht := (verdict_take_extent (seen ++ more)).trans h
    rw [List.take_append_of_le_length hl] at ht
    have := (verdict_append ht (seen.drop (extent (seen ++ more)))).left
    rw [List.take_append_drop] at this
    rw [this]
    rfl

theorem length_le_extent (hv : verdict seen = none) (hd : verdict (seen ++ more) = some o) :
    seen.length ≤ extent (seen ++ more) := by
  refine Nat.le_of_not_le fun hn => ?_
  have := (verdict_isSome_iff hd).mpr hn
  simp [hv] at this

section Reading

open Channel

variable {δ : Type} {s : Stream δ} {c : Channel δ}

theorem readWith_eq (take : σ → Bytes → σ × Nat) (done : σ → Bool) (st : σ) (c : Channel δ) :
    c.readWith take done st =
      let fed := if c.start < c.stop then take st c.held else (st, 0)
      if c.start < c.stop ∧ done fed.1 then (.ok fed.1, c.consume fed.2) else
      match (c.consume fed.2).fill with
      | (.error e, d)    => (.error e, d)
      | (.ok 0, d)       => (.error (.closedDuring .record), d)
      | (.ok (_ + 1), d) => d.readWith take done fed.1 := by
  rw [readWith]
  dsimp only
  generalize (if c.start < c.stop then take st c.held else (st, 0)) = fed
  split
  case isTrue  => rfl
  case isFalse =>
    split
    case h_1 hf => simp only [hf]
    case h_2 hf => simp only [hf]
    case h_3 hf => simp only [hf]

-- The decoder takes part in no receive that brings it nothing, which makes no difference to it.
theorem fed_after (hc : c.Wf) (hv : verdict seen = none) :
    (if c.start < c.stop then (after seen).feed c.held else (after seen, 0)) =
      (after ((seen ++ c.held).take (extent (seen ++ c.held))),
        extent (seen ++ c.held) - seen.length) := by
  split
  case isTrue  => exact feed_after hv c.held
  case isFalse =>
    have hl := hc.held_length
    have hh : c.held = [] := List.length_eq_zero_iff.mp (by omega)
    simp [hh, extent_of_verdict_none hv]

theorem readWith_decided (hc : c.Wf) (hv : verdict seen = none)
    (hd : verdict (seen ++ c.held) = some o) :
    c.readWith feed (·.outcome.isSome) (after seen) =
      (.ok (after ((seen ++ c.held).take (extent (seen ++ c.held)))),
        c.consume (extent (seen ++ c.held) - seen.length)) := by
  have hs : c.start < c.stop := by
    have hl := hc.held_length
    have hh : c.held ≠ [] := fun hh => by simp [hh, hv] at hd
    have := List.length_pos_iff.mpr hh
    omega
  rw [readWith_eq]
  dsimp only
  rw [fed_after hc hv, if_pos ⟨hs, by simp [after, verdict_take_extent, hd]⟩]

theorem readWith_undecided (hc : c.Wf) (hv : verdict seen = none)
    (hd : verdict (seen ++ c.held) = none) :
    c.readWith feed (·.outcome.isSome) (after seen) =
      match (c.consume c.held.length).fill with
      | (.error e, d)    => (.error e, d)
      | (.ok 0, d)       => (.error (.closedDuring .record), d)
      | (.ok (_ + 1), d) => d.readWith feed (·.outcome.isSome) (after (seen ++ c.held)) := by
  rw [readWith_eq]
  dsimp only
  rw [fed_after hc hv, extent_of_verdict_none hd, List.take_length, List.length_append,
    Nat.add_sub_cancel_left, if_neg (by simp [after, hd])]

-- The invariant of the loop: what the decoder has seen is what has been read of the stream.
theorem readWith_found (hc : c.Carries (s.advance seen.length)) (hs : seen <+: s.bytes)
    (hv : verdict seen = none) (ho : verdict s.bytes = some o) :
    ∃ d, c.readWith feed (·.outcome.isSome) (after seen) =
        (.ok (after (s.bytes.take (extent s.bytes))), d) ∧
      d.Carries (s.advance (extent s.bytes)) ∧ d.outgoing = c.outgoing := by
  induction hz : c.inbound.size using Nat.strongRecOn generalizing c seen
  case ind z hi =>
    obtain ⟨rest, hs⟩ := hs
    have hp : c.held <+: rest := by simpa [←hs] using hc.held_prefix
    have ⟨more, hm⟩ := hp
    rw [←hm, ←List.append_assoc] at hs
    cases hd : verdict (seen ++ c.held)
    case some =>
      have ⟨_, hx⟩ := hs ▸ verdict_append hd more
      have hle := extent_le (seen ++ c.held)
      have hlt := length_le_extent hv hd
      rw [hx]
      refine ⟨c.consume (extent (seen ++ c.held) - seen.length), ?_, ?_, rfl⟩
      · rw [readWith_decided hc.toWf hv hd, ←hs, List.take_append_of_le_length hle]
      · rw [List.length_append] at hle
        have := hc.consume (n := extent (seen ++ c.held) - seen.length) (by omega)
        rwa [Stream.advance_advance, Nat.add_sub_cancel' hlt] at this
    case none =>
      rw [readWith_undecided hc.toWf hv hd]
      obtain ⟨_, _, _, _, hh, _⟩ | ⟨n, d, hf, hdc, hdo, hds⟩ := hc.fill_consumed
      case inl =>
        rw [Stream.advance_bytes, ←hs, List.append_assoc, List.drop_left] at hh
        simp [←hs, List.self_eq_append_right.mp hh, hd] at ho
      case inr =>
        simp only [hf]
        rw [Stream.advance_advance, ←List.length_append] at hdc
        have ⟨e, hr, he, heo⟩ := hi _ (hz ▸ hds) hdc ⟨more, hs⟩ hd rfl
        exact ⟨e, hr, he, heo.trans hdo⟩

theorem readWith_missing (hc : c.Carries (s.advance seen.length)) (hs : seen <+: s.bytes)
    (hv : verdict s.bytes = none) :
    ∃ d, c.readWith feed (·.outcome.isSome) (after seen) = (.error (s.shortage .record), d) ∧
      d.Carries s.spent.warned ∧ d.outgoing = c.outgoing := by
  induction hz : c.inbound.size using Nat.strongRecOn generalizing c seen
  case ind z hi =>
    obtain ⟨rest, hs⟩ := hs
    have hp : c.held <+: rest := by simpa [←hs] using hc.held_prefix
    have ⟨more, hm⟩ := hp
    rw [←hm, ←List.append_assoc] at hs
    have hd := verdict_of_append_none (hs ▸ hv)
    have hl : seen.length ≤ s.cells.length := by
      rw [←s.bytes_length, ←hs]
      simp
    rw [readWith_undecided hc.toWf (verdict_of_append_none hd) hd]
    obtain ⟨d, hf, hdc, hdo, _⟩ | ⟨n, d, hf, hdc, hdo, hds⟩ := hc.fill_consumed
    case inl =>
      rw [Stream.advance_spent hl] at hdc
      refine ⟨d, ?_, hdc, hdo⟩
      change _ = (s.silence, d) at hf
      obtain hs | ⟨hs, hw⟩ := s.silence_cases .record
      case inl => simp only [hf, hs]
      case inr => simp only [hf, hs, hw]
    case inr =>
      simp only [hf]
      rw [Stream.advance_advance, ←List.length_append] at hdc
      have ⟨e, hr, he, heo⟩ := hi _ (hz ▸ hds) hdc ⟨more, hs⟩ rfl
      exact ⟨e, hr, he, heo.trans hdo⟩

theorem readStat_found (ho : verdict s.bytes = some o) :
    Reads (readWith feed (·.outcome.isSome) {}) s (.ok (after (s.bytes.take (extent s.bytes))))
      (s.advance (extent s.bytes)) :=
  fun _ hc => readWith_found (s.advance_zero.symm ▸ hc) List.nil_prefix rfl ho

theorem readStat_missing (hv : verdict s.bytes = none) :
    Reads (readWith feed (·.outcome.isSome) {}) s (.error (s.shortage .record)) s.spent.warned :=
  fun _ hc => readWith_missing (s.advance_zero.symm ▸ hc) List.nil_prefix hv

end Reading

end FileBroker.StatDecoder
