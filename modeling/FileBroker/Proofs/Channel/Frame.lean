import Mathlib
import FileBroker.Proofs.Channel.Reading

namespace FileBroker.Channel

variable {δ : Type}

-- `c` in another state of its own sending.
def sending (c : Channel δ) (o : List (Segment δ) × Option Nat) : Channel δ :=
  { c with sent := o.1, patience := o.2 }

-- An operation that neither looks at what is being sent nor sends anything.
def Silent (step : Channel δ → α × Channel δ) : Prop :=
  ∀ c o, step (c.sending o) = ((step c).1, (step c).2.sending o)

theorem Silent.outgoing {step : Channel δ → α × Channel δ} (h : Silent step) (c : Channel δ) :
    (step c).2.outgoing = c.outgoing :=
  congrArg (·.2.outgoing) (h c c.outgoing)

theorem makeRoom_sending (c : Channel δ) (o : List (Segment δ) × Option Nat) :
    (c.sending o).makeRoom = c.makeRoom.sending o := by
  unfold makeRoom
  split
  case isTrue h  => rw [if_pos (show c.stop < c.capacity from h)]
  case isFalse h =>
    rw [if_neg (show ¬c.stop < c.capacity from h)]
    split
    case isTrue h  => rw [if_pos (show 0 < c.start from h)]; rfl
    case isFalse h => rw [if_neg (show ¬0 < c.start from h)]; rfl

theorem receive_silent : Silent (receive (δ := δ)) := by
  intro c o
  have hr : (c.sending o).inbound.receive ((c.sending o).capacity - (c.sending o).stop) =
      c.inbound.receive (c.capacity - c.stop) := rfl
  simp only [receive, hr]
  obtain ⟨_ | _, _⟩ := c.inbound.receive (c.capacity - c.stop) <;> rfl

theorem fill_silent : Silent (fill (δ := δ)) := by
  intro c o
  rw [fill, makeRoom_sending, receive_silent]
  rfl

theorem readField_silent (ends : UInt8 → Bool) (what : Unfinished) (scanned : Nat) :
    Silent (readField (δ := δ) ends what scanned) := by
  intro c o
  induction hz : c.inbound.size using Nat.strongRecOn generalizing c scanned
  case ind z hi =>
    rw [readField_eq, readField_eq, fill_silent]
    have hh : (c.sending o).held = c.held := rfl
    rw [hh]
    split
    case h_1 => rfl
    case h_2 =>
      rcases hf : c.fill with ⟨_ | _ | _, d⟩
      case error   => rfl
      case ok.zero => rfl
      case ok.succ => exact hi _ (hz ▸ fill_size_lt hf) _ d rfl

theorem readUntil_silent (delimiter : UInt8) : Silent (δ := δ) (readUntil · delimiter) := by
  intro c o
  simp only [readUntil, readField_silent _ _ _ c o]
  obtain ⟨_ | _, _⟩ := c.readField (· == delimiter) .delimited 0 <;> rfl

theorem readMessage_silent : Silent (readMessage (δ := δ)) := by
  intro c o
  have hr : (c.sending o).readUntil 0 = _ := readUntil_silent 0 c o
  simp only [readMessage, hr]
  obtain ⟨_ | _, _⟩ := c.readUntil 0 <;> rfl

theorem readToken_silent : Silent (readToken (δ := δ)) := by
  intro c o
  simp only [readToken, readField_silent _ _ _ c o]
  obtain ⟨_ | _, _⟩ := c.readField (fun b => b == 32 || b == 10) .token 0 <;> rfl

theorem atEnd_silent : Silent (atEnd (δ := δ)) := by
  intro c o
  unfold atEnd
  split
  case isTrue h  => rw [if_pos (show c.start < c.stop from h)]
  case isFalse h =>
    rw [if_neg (show ¬c.start < c.stop from h), fill_silent]
    obtain ⟨_ | _, _⟩ := c.fill <;> rfl

theorem readExact_silent (count : Nat) : Silent (δ := δ) (readExact · count) := by
  intro c o
  dsimp only
  induction hz : c.inbound.size using Nat.strongRecOn generalizing c count
  case ind z hi =>
    have hh : (c.sending o).held = c.held := rfl
    by_cases hl : count ≤ c.held.length
    case pos =>
      rw [readExact_of_le hl, readExact_of_le (hh ▸ hl)]
      rfl
    case neg =>
      have hl := Nat.not_le.mp hl
      have hc : (c.sending o).consume c.held.length = (c.consume c.held.length).sending o := rfl
      rw [readExact_of_lt hl, readExact_of_lt (hh ▸ hl), hh, hc, fill_silent]
      rcases hf : (c.consume c.held.length).fill with ⟨_ | _ | _, d⟩
      case error   => rfl
      case ok.zero => rfl
      case ok.succ =>
        have := hi _ (hz ▸ fill_size_lt (c := c.consume _) hf) (count - c.held.length) d rfl
        simp only [this]
        obtain ⟨_ | _, _⟩ := d.readExact (count - c.held.length) <;> rfl

-- A send gets through until the patience of the other end is used up.
theorem send_ok {c : Channel δ} (hp : c.patience ≠ some 0) (s : Segment δ) :
    c.send s = (.ok (), c.sending (c.sent ++ [s], c.patience.map (· - 1))) := by
  unfold send
  split
  case h_1 h   => exact absurd h hp
  case h_2 n h => simp [sending, h]
  case h_3 h   => simp [sending, h]

theorem send_broken {c : Channel δ} (hp : c.patience = some 0) (s : Segment δ) : c.send s = (.error .brokenPipe, c) := by
  simp only [send, hp]

end FileBroker.Channel
