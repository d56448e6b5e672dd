import Mathlib
import FileBroker.Peer
import FileBroker.Proofs.Channel.Stream

namespace FileBroker

namespace Channel

variable {δ : Type} {c : Channel δ}

-- Sending concerns what is on its way to the other end, and nothing else.
theorem send_stays (c : Channel δ) (s : Segment δ) :
    ∃ sent patience, (c.send s).2 = { c with sent, patience } := by
  unfold send
  split
  case h_1 => exact ⟨c.sent, c.patience, rfl⟩
  case h_2 => exact ⟨_, _, rfl⟩
  case h_3 => exact ⟨_, c.patience, rfl⟩

theorem write_stays (c : Channel δ) (bytes : Bytes) :
    ∃ sent patience, (c.write bytes).2 = { c with sent, patience } := by
  unfold write
  split
  case isTrue  => exact ⟨c.sent, c.patience, rfl⟩
  case isFalse => exact send_stays ..

theorem sendFds_stays (c : Channel δ) (slots : List (Option δ)) :
    ∃ sent patience, (c.sendFds slots).2 = { c with sent, patience } := by
  match slots with
  | [] | none :: _ => exact ⟨c.sent, c.patience, rfl⟩
  | some fd :: slots =>
    have ⟨sent, patience, hs⟩ := send_stays c { bytes := [marker], fds := [fd] }
    change (c.sendFd fd).2 = _ at hs
    rw [sendFds]
    match hf : c.sendFd fd with
    | (.error e, d) => exact ⟨sent, patience, by rw [←hs, hf]⟩
    | (.ok (), d) =>
      have hd : d = { c with sent, patience } := by rw [←hs, hf]
      have ⟨sent, patience, hm⟩ := sendFds_stays d slots
      refine ⟨sent, patience, ?_⟩
      rw [hd] at hm
      dsimp only
      split
      all_goals simp_all

theorem transmit_stays (c : Channel δ) (e : Encoded δ) :
    ∃ sent patience, (c.transmit e).2 = { c with sent, patience } := by
  have ⟨sent, patience, hs⟩ := write_stays c e.bytes
  unfold transmit
  match hw : c.write e.bytes with
  | (.error e, d) => exact ⟨sent, patience, by rw [←hs, hw]⟩
  | (.ok (), d) =>
    have hd : d = { c with sent, patience } := by rw [←hs, hw]
    have ⟨sent, patience, hm⟩ := sendFds_stays d (e.fds.map some)
    refine ⟨sent, patience, ?_⟩
    rw [hd] at hm
    dsimp only
    split
    all_goals simp_all

theorem arrive_wf (h : c.Wf) (r : Reaction δ) : (c.arrive r).Wf where
  start_le     := h.start_le
  stop_le      := h.stop_le
  capacity_pos := h.capacity_pos
  bytes_ne     := Inbound.pushAll_bytes_ne r.segments h.bytes_ne

-- What arrives comes behind what is there.
theorem Carries.arrive (h : c.Carries s) (r : Reaction δ) :
    (c.arrive r).Carries
      { cells := s.cells ++ r.segments.flatMap Segment.cells
        loose := s.loose
        ended := s.ended || r.ended
        reset := s.reset || r.reset } := by
  have hp := h.pushAll r.segments
  exact ⟨arrive_wf h.toWf r, hp.cells, congrArg (· || r.ended) h.ended, congrArg (· || r.reset) h.reset⟩

-- Nothing is on its way in either direction, and everything that is sent gets through.
structure Idle (c : Channel δ) : Prop where
  carries  : c.Carries { cells := [] }
  sent     : c.sent = []
  patience : c.patience = none

theorem fresh_idle (pace : List Nat) : ({ inbound := { pace } } : Channel δ).Idle where
  carries  := fresh_carries pace false
  sent     := rfl
  patience := rfl

theorem idle_of_outgoing (h : c.Carries { cells := [] }) (ho : c.outgoing = ([], none)) : c.Idle :=
  ⟨h, congrArg (·.1) ho, congrArg (·.2) ho⟩

end Channel

namespace Link

variable {ω δ : Type} {peer : Peer ω δ} {l l' : Link ω δ}

def asked (peer : Peer ω δ) (l : Link ω δ) (e : Encoded δ) : Link ω δ :=
  { l with channel := (l.channel.transmit e).2 }.settle peer

theorem settle_wf (h : l.channel.Wf) : (l.settle peer).channel.Wf := by
  unfold settle
  split
  case isTrue  => exact h
  case isFalse =>
    refine Channel.arrive_wf ?_ _
    exact ⟨h.start_le, h.stop_le, h.capacity_pos, h.bytes_ne⟩

theorem asked_wf (h : l.channel.Wf) (e : Encoded δ) : (l.asked peer e).channel.Wf := by
  refine settle_wf ?_
  have ⟨_, _, ht⟩ := l.channel.transmit_stays e
  rw [ht]
  exact ⟨h.start_le, h.stop_le, h.capacity_pos, h.bytes_ne⟩

theorem exchange_ok (h : l.exchange peer e = (.ok answer, l')) :
    (l.asked peer e).channel.readAnswer e.operation.reply = (.ok answer, l'.channel) := by
  unfold exchange at h
  match ht : l.channel.transmit e with
  | (.error cause, c) => simp [ht] at h
  | (.ok (), c) =>
    simp only [ht, Prod.mk.injEq] at h
    rw [asked, ht, ←h.left, ←h.right]

end Link

end FileBroker
