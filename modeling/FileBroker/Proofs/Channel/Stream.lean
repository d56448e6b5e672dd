import Mathlib
import FileBroker.Channel.Basic

namespace FileBroker

-- A byte with the descriptors that arrive with it.
abbrev Cell (δ : Type) := UInt8 × List δ

structure Stream (δ : Type) where
  cells : List (Cell δ)
  -- Descriptors that came with bytes read before, and that nobody has claimed.
  loose : List δ := []
  ended : Bool := false
  reset : Bool := false
  deriving DecidableEq, Repr

variable {δ : Type}

namespace Stream

def bytes (s : Stream δ) : Bytes :=
  s.cells.map (·.1)

-- The stream after its next `n` bytes have been read.
def advance (s : Stream δ) (n : Nat) : Stream δ :=
  { s with cells := s.cells.drop n, loose := s.loose ++ (s.cells.take n).flatMap (·.2) }

-- The stream after all of it has been read.
def spent (s : Stream δ) : Stream δ :=
  s.advance s.cells.length

-- What becomes of a read that needs more bytes than there are. A reset is reported only once.
def shortage (s : Stream δ) (what : Unfinished) : IoError :=
  if s.reset then .reset else if s.ended then .closedDuring what else .wouldBlock

def warned (s : Stream δ) : Stream δ :=
  { s with reset := false }

-- What a receive says when there is nothing to receive.
def silence (s : Stream δ) : Except IoError Nat :=
  if s.reset then .error .reset else if s.ended then .ok 0 else .error .wouldBlock

-- A reader takes the end of the stream for a failure of its own.
theorem silence_cases (s : Stream δ) (what : Unfinished) :
    s.silence = .error (s.shortage what) ∨
      (s.silence = .ok 0 ∧ s.shortage what = .closedDuring what) := by
  unfold silence shortage
  cases s.reset <;> cases s.ended <;> simp

@[simp] theorem advance_zero (s : Stream δ) : s.advance 0 = s := by
  simp [advance]

@[simp] theorem advance_bytes (s : Stream δ) (n : Nat) : (s.advance n).bytes = s.bytes.drop n := by
  simp [advance, bytes]

theorem advance_advance (s : Stream δ) (m n : Nat) :
    (s.advance m).advance n = s.advance (m + n) := by
  simp [advance, List.take_add]

theorem advance_spent {s : Stream δ} (h : n ≤ s.cells.length) : (s.advance n).spent = s.spent := by
  rw [spent, advance_advance, spent]
  simp [advance, Nat.add_sub_cancel' h]

@[simp] theorem advance_shortage (s : Stream δ) (n : Nat) (what : Unfinished) :
    (s.advance n).shortage what = s.shortage what := rfl

theorem bytes_length (s : Stream δ) : s.bytes.length = s.cells.length := by
  simp [bytes]

end Stream

def Segment.cells (s : Segment δ) : List (Cell δ) :=
  match s.bytes with
  | []        => []
  | b :: rest => (b, s.fds.take Inbound.maxDescriptors) :: rest.map (·, [])

namespace Segment

theorem cells_bytes (s : Segment δ) : s.cells.map (·.1) = s.bytes := by
  unfold cells
  split <;> simp_all [Function.comp_def]

theorem cells_fds {s : Segment δ} (h : s.bytes ≠ []) :
    s.cells.flatMap (·.2) = s.fds.take Inbound.maxDescriptors := by
  unfold cells
  split
  case h_1 hb => exact absurd hb h
  case h_2    => simp [List.flatMap_map]

theorem cells_plain (bytes : Bytes) : ({ bytes } : Segment δ).cells = bytes.map (·, []) := by
  cases bytes <;> simp [cells]

end Segment

namespace Inbound

variable {queue : List (Segment δ)} {room : Nat}

def cells (i : Inbound δ) : List (Cell δ) :=
  i.queue.flatMap (·.cells)

theorem leftover_cells (bytes : Bytes) (queue : List (Segment δ)) :
    (leftover bytes queue).flatMap (·.cells) = bytes.map (·, []) ++ queue.flatMap (·.cells) := by
  unfold leftover
  split
  case isTrue h => simp_all [List.isEmpty_iff]
  case isFalse  => simp [Segment.cells_plain]

theorem leftover_bytes_ne (bytes : Bytes) (h : ∀ s ∈ queue, s.bytes ≠ []) :
    ∀ s ∈ leftover bytes queue, s.bytes ≠ [] := by
  unfold leftover
  split
  case isTrue => exact h
  case isFalse hb => simp_all [List.isEmpty_iff]

-- Only the first byte of a segment has descriptors, so that taking one takes them all.
theorem cells_split {s : Segment δ} (hs : s.bytes ≠ []) (hr : 0 < room) :
    ∃ taken, s.cells = taken ++ (s.bytes.drop room).map (·, []) ∧
      taken.map (·.1) = s.bytes.take room ∧ taken.flatMap (·.2) = s.fds.take maxDescriptors := by
  obtain ⟨b, rest, hb⟩ := List.exists_cons_of_ne_nil hs
  obtain ⟨n, rfl⟩ := Nat.exists_eq_succ_of_ne_zero (Nat.ne_of_gt hr)
  exists (b, s.fds.take maxDescriptors) :: (rest.take n).map (·, [])
  refine ⟨?_, ?_, ?_⟩
  · simp [Segment.cells, hb]
  · simp [hb, Function.comp_def]
  · rw [List.flatMap_cons, List.flatMap_map]
    simp

theorem gather_cells (hq : ∀ s ∈ queue, s.bytes ≠ []) (hr : 0 < room) :
    ∃ taken, queue.flatMap (·.cells) = taken ++ (gather room queue).2.2.flatMap (·.cells) ∧
      taken.map (·.1) = (gather room queue).1 ∧
      taken.flatMap (·.2) = (gather room queue).2.1.take maxDescriptors := by
  induction queue generalizing room
  case nil => exists []
  case cons s queue hi =>
    obtain ⟨hs, hq⟩ := List.forall_mem_cons.mp hq
    unfold gather
    split
    case isTrue =>
      obtain ⟨taken, h, hb, hf⟩ := cells_split hs hr
      exists taken
      simp [leftover_cells, h, hb, hf]
    case isFalse h =>
      simp only [Bool.not_eq_true, Bool.not_eq_false', List.isEmpty_iff, not_or, Nat.not_le] at h
      obtain ⟨taken, hc, hb, hf⟩ := hi hq <| Nat.sub_pos_of_lt h.right
      exists s.cells ++ taken
      simp [hc, hb, hf, Segment.cells_bytes, Segment.cells_fds hs, h.left]

theorem gather_bytes_ne (hq : ∀ s ∈ queue, s.bytes ≠ []) (room : Nat) :
    ∀ s ∈ (gather room queue).2.2, s.bytes ≠ [] := by
  induction queue generalizing room
  case nil => simp [gather]
  case cons s queue hi =>
    obtain ⟨_, hq⟩ := List.forall_mem_cons.mp hq
    unfold gather
    split
    case isTrue  => exact leftover_bytes_ne _ hq
    case isFalse => exact hi hq _

theorem gather_ne_nil (hq : ∀ s ∈ queue, s.bytes ≠ []) (hn : queue ≠ []) (hr : 0 < room) :
    (gather room queue).1 ≠ [] := by
  obtain ⟨s, queue, rfl⟩ := List.exists_cons_of_ne_nil hn
  have hs := hq s List.mem_cons_self
  unfold gather
  split
  · simp [hs, Nat.ne_of_gt hr]
  · simp [hs]

theorem receive_nil {i : Inbound δ} (h : i.queue = []) (room : Nat) :
    i.receive room =
      if i.reset then (.error .reset, { i with reset := false })
      else if i.ended then (.ok ([], []), i) else (.error .wouldBlock, i) := by
  simp [receive, h]

theorem paced_pos {i : Inbound δ} (h : 0 < room) : 0 < i.paced room := by
  unfold paced
  split
  · exact h
  · omega

theorem receive_cons {i : Inbound δ} (hq : ∀ s ∈ i.queue, s.bytes ≠ []) (hn : i.queue ≠ [])
    (hr : 0 < room) :
    ∃ taken j, i.receive room = (.ok (taken.map (·.1), taken.flatMap (·.2)), j) ∧ taken ≠ [] ∧
      i.cells = taken ++ j.cells ∧ (∀ s ∈ j.queue, s.bytes ≠ []) ∧
      j.ended = i.ended ∧ j.reset = i.reset := by
  have hp := paced_pos (i := i) hr
  have ⟨taken, hc, hb, hf⟩ := gather_cells hq hp
  exists taken, { i with queue := (gather (i.paced room) i.queue).2.2, pace := i.pace.tail }
  refine ⟨?_, ?_, hc, gather_bytes_ne hq _, rfl, rfl⟩
  · unfold receive
    split
    case h_1 => contradiction
    case h_2 => rw [hb, hf]
  · intro h
    exact gather_ne_nil hq hn hp <| by rw [←hb, h, List.map_nil]

theorem push_cells (i : Inbound δ) (s : Segment δ) : (i.push s).cells = i.cells ++ s.cells := by
  unfold push
  split
  case isTrue h  => simp [List.isEmpty_iff.mp h, Segment.cells]
  case isFalse   => simp [cells]

theorem push_bytes_ne {i : Inbound δ} (h : ∀ s ∈ i.queue, s.bytes ≠ []) (s : Segment δ) :
    ∀ t ∈ (i.push s).queue, t.bytes ≠ [] := by
  intro t ht
  unfold push at ht
  split at ht
  case isTrue => exact h t ht
  case isFalse hs =>
    simp only [List.mem_append, List.mem_singleton] at ht
    cases ht
    case inl ht => exact h t ht
    case inr ht => simpa [ht] using hs

theorem pushAll_cells (segments : List (Segment δ)) (i : Inbound δ) :
    (segments.foldl push i).cells = i.cells ++ segments.flatMap (·.cells) := by
  induction segments generalizing i
  case nil => simp
  case cons s segments hi => simp [hi, push_cells]

theorem pushAll_bytes_ne (segments : List (Segment δ)) {i : Inbound δ}
    (h : ∀ s ∈ i.queue, s.bytes ≠ []) : ∀ s ∈ (segments.foldl push i).queue, s.bytes ≠ [] := by
  induction segments generalizing i
  case nil => exact h
  case cons s segments hi => exact hi <| push_bytes_ne h s

theorem push_eq (i : Inbound δ) (s : Segment δ) : ∃ queue, i.push s = { i with queue } := by
  unfold push
  split
  · exact ⟨_, rfl⟩
  · exact ⟨_, rfl⟩

-- What is pushed is queued, and changes nothing else.
theorem pushAll_eq (segments : List (Segment δ)) (i : Inbound δ) :
    ∃ queue, segments.foldl push i = { i with queue } := by
  induction segments generalizing i
  case nil => exact ⟨_, rfl⟩
  case cons s segments hi =>
    have ⟨_, hp⟩ := push_eq i s
    have ⟨queue, hq⟩ := hi (i.push s)
    exact ⟨queue, hq.trans <| by rw [hp]⟩

end Inbound

namespace Channel

structure Wf (c : Channel δ) : Prop where
  start_le     : c.start ≤ c.stop
  stop_le      : c.stop ≤ c.capacity
  capacity_pos : 0 < c.capacity
  bytes_ne     : ∀ s ∈ c.inbound.queue, s.bytes ≠ []

theorem Wf.held_length {c : Channel δ} (h : c.Wf) : c.held.length = c.stop - c.start := by
  have := h.stop_le
  simp only [held, List.length_drop, List.length_take, capacity] at this ⊢
  omega

-- What receiving has no part in.
def outgoing (c : Channel δ) : List (Segment δ) × Option Nat :=
  (c.sent, c.patience)

-- `early` is the part of the stream that has been received. Its descriptors are pending already.
structure Carries (c : Channel δ) (s : Stream δ) : Prop extends c.Wf where
  cells : ∃ early, early.map (·.1) = c.held ∧ early ++ c.inbound.cells = s.cells ∧
    c.pending = s.loose ++ early.flatMap (·.2)
  ended : c.inbound.ended = s.ended
  reset : c.inbound.reset = s.reset

variable {c d : Channel δ} {s : Stream δ}

theorem Carries.held_prefix (h : c.Carries s) : c.held <+: s.bytes := by
  have ⟨early, hb, hc, _⟩ := h.cells
  exact ⟨c.inbound.cells.map (·.1), by simp [Stream.bytes, ←hc, ←hb]⟩

theorem Carries.held_eq (h : c.Carries s) : c.held = s.bytes.take c.held.length :=
  List.prefix_iff_eq_take.mp h.held_prefix

theorem makeRoom_held (h : c.Wf) : c.makeRoom.held = c.held := by
  have hs := h.held_length
  have := h.start_le
  unfold makeRoom
  split
  case isTrue  => rfl
  case isFalse =>
    split
    case isTrue =>
      change ((c.held ++ _).take (c.stop - c.start)).drop 0 = c.held
      rw [←hs, List.take_left, List.drop_zero]
    case isFalse hf _ =>
      have := h.stop_le
      simp only [held, capacity] at *
      rw [List.take_append_of_le_length (by omega)]

theorem makeRoom_wf (h : c.Wf) : c.makeRoom.Wf ∧ c.makeRoom.stop < c.makeRoom.capacity := by
  have hl := h.held_length
  have ⟨hs, hc, hp, hb⟩ := h
  unfold makeRoom
  split
  case isTrue hr => exact ⟨h, hr⟩
  case isFalse hr =>
    split
    case isTrue hn =>
      refine ⟨⟨Nat.zero_le _, ?_, ?_, hb⟩, ?_⟩
      all_goals
        simp only [capacity, List.length_append, List.length_drop, hl] at *
        omega
    case isFalse =>
      refine ⟨⟨hs, ?_, ?_, hb⟩, ?_⟩
      all_goals
        simp only [capacity, List.length_append, List.length_replicate] at *
        omega

theorem makeRoom_pending : c.makeRoom.pending = c.pending := by
  unfold makeRoom
  split
  · rfl
  · split <;> rfl

theorem makeRoom_outgoing : c.makeRoom.outgoing = c.outgoing := by
  unfold makeRoom
  split
  · rfl
  · split <;> rfl

theorem Carries.makeRoom (h : c.Carries s) : c.makeRoom.Carries s where
  toWf  := (makeRoom_wf h.toWf).left
  cells := by simpa only [makeRoom_held h.toWf, makeRoom_inbound, makeRoom_pending] using h.cells
  ended := (congrArg _ makeRoom_inbound).trans h.ended
  reset := (congrArg _ makeRoom_inbound).trans h.reset

theorem accept_held (h : c.Wf) (bytes : Bytes) (fds : List δ) :
    (c.accept bytes fds).held = c.held ++ bytes := by
  have := h.start_le
  have := h.stop_le
  simp only [accept, held, capacity] at *
  have hl : (c.buf.take c.stop).length = c.stop := by rw [List.length_take]; omega
  have hn : (c.buf.take c.stop ++ bytes).length = c.stop + bytes.length := by
    rw [List.length_append, hl]
  rw [List.take_left' hn, List.drop_append_of_le_length (by omega)]

theorem accept_wf (h : c.Wf) : (c.accept bytes fds).Wf := by
  have ⟨hs, hc, hp, hq⟩ := h
  refine ⟨?_, ?_, ?_, hq⟩
  all_goals
    simp only [accept, capacity, List.length_append, List.length_take, List.length_drop] at *
    omega

-- With nothing on its way all of the stream has been received.
theorem Carries.held_of_queue_nil (h : c.Carries s) (hq : c.inbound.queue = []) :
    c.held = s.bytes := by
  have ⟨early, hb, hc, _⟩ := h.cells
  simp [Stream.bytes, ←hc, ←hb, Inbound.cells, hq]

theorem accept_nil (c : Channel δ) : c.accept [] [] = c := by
  simp [accept]

-- Nothing is on its way.
theorem Carries.receive_nil (h : c.Carries s) (hq : c.inbound.queue = []) :
    c.receive = (s.silence, { c with inbound.reset := false }) := by
  unfold receive
  rw [Inbound.receive_nil hq]
  unfold Stream.silence
  rw [h.reset, h.ended]
  have he := h.ended
  have hr := h.reset
  obtain ⟨_, _, _, _, ⟨_, _, _, _⟩, _, _⟩ := c
  cases hs : s.reset <;> cases ht : s.ended <;> simp_all [accept_nil]

theorem Carries.warned (h : c.Carries s) : { c with inbound.reset := false }.Carries s.warned where
  start_le     := h.start_le
  stop_le      := h.stop_le
  capacity_pos := h.capacity_pos
  bytes_ne     := h.bytes_ne
  cells        := h.cells
  ended        := h.ended
  reset        := rfl

-- Something is on its way.
theorem Carries.receive_cons (h : c.Carries s) (hr : c.stop < c.capacity)
    (hq : c.inbound.queue ≠ []) :
    ∃ n d, c.receive = (.ok (n + 1), d) ∧ d.Carries s ∧ d.outgoing = c.outgoing ∧
      d.held.length = c.held.length + (n + 1) := by
  have ⟨early, hb, hc, hp⟩ := h.cells
  have ⟨taken, j, hj, hn, hi, hjb, hje, hjr⟩ :=
    Inbound.receive_cons h.bytes_ne hq (Nat.sub_pos_of_lt hr)
  have ⟨n, hn⟩ := Nat.exists_eq_succ_of_ne_zero <| mt List.length_eq_zero_iff.mp hn
  have hw : { c with inbound := j }.Wf := ⟨h.start_le, h.stop_le, h.capacity_pos, hjb⟩
  exists n, { c with inbound := j }.accept (taken.map Prod.fst) (taken.flatMap Prod.snd)
  refine ⟨?_, ⟨accept_wf hw, ⟨early ++ taken, ?_, ?_, ?_⟩, ?_, ?_⟩, rfl, ?_⟩
  · simp [receive, hj, hn]
  · rw [accept_held hw, List.map_append, hb]
    rfl
  · rw [←hc, hi, List.append_assoc]
    rfl
  · simp [accept, hp]
  · exact hje.trans h.ended
  · exact hjr.trans h.reset
  · rw [accept_held hw, List.length_append, List.length_map, hn]
    rfl

-- Filling the buffer either says that there is nothing more, or receives some of the stream.
theorem Carries.fill (h : c.Carries s) :
    (∃ d, c.fill = (s.silence, d) ∧ d.Carries s.warned ∧ d.outgoing = c.outgoing ∧
      c.held = s.bytes ∧ d.held = c.held) ∨
    (∃ n d, c.fill = (.ok (n + 1), d) ∧ d.Carries s ∧ d.outgoing = c.outgoing ∧
      d.held.length = c.held.length + (n + 1)) := by
  have hm := h.makeRoom
  have hh := makeRoom_held h.toWf
  rw [←makeRoom_outgoing, ←hh]
  by_cases hq : c.makeRoom.inbound.queue = []
  case pos =>
    exact .inl ⟨_, hm.receive_nil hq, hm.warned, rfl, hm.held_of_queue_nil hq, rfl⟩
  case neg =>
    exact .inr <| hm.receive_cons (makeRoom_wf h.toWf).right hq

theorem consume_held (c : Channel δ) (n : Nat) : (c.consume n).held = c.held.drop n := by
  simp [consume, held]

theorem Carries.consume (h : c.Carries s) (hn : n ≤ c.held.length) :
    (c.consume n).Carries (s.advance n) := by
  have ⟨early, hb, hc, hp⟩ := h.cells
  have hl : early.length = c.held.length := by rw [←hb, List.length_map]
  refine ⟨⟨?_, h.stop_le, h.capacity_pos, h.bytes_ne⟩, ⟨early.drop n, ?_, ?_, ?_⟩, h.ended, h.reset⟩
  · have := h.held_length
    have := h.start_le
    simp only [Channel.consume]
    omega
  · rw [List.map_drop, hb]
    simp [Channel.consume, held]
  · rw [Stream.advance, ←hc, List.drop_append_of_le_length (hl ▸ hn)]
    rfl
  · change c.pending = _
    rw [hp, Stream.advance, ←hc, List.take_append_of_le_length (hl ▸ hn), List.append_assoc,
      ←List.flatMap_append, List.take_append_drop]

-- A channel that has read all it had received is at the end of the stream if nothing more comes.
theorem Carries.fill_consumed (h : c.Carries s) :
    (∃ d, (c.consume c.held.length).fill = (s.silence, d) ∧
      d.Carries s.spent.warned ∧ d.outgoing = c.outgoing ∧
      c.held = s.bytes ∧ d.held = []) ∨
    (∃ n d, (c.consume c.held.length).fill = (.ok (n + 1), d) ∧ d.Carries (s.advance c.held.length) ∧
      d.outgoing = c.outgoing ∧ d.inbound.size < c.inbound.size) := by
  have hd := consume_held c c.held.length
  rw [List.drop_length] at hd
  obtain ⟨d, hf, hdc, hdo, hh, hdh⟩ | ⟨n, d, hf, hdc, hdo, _⟩ := (h.consume (Nat.le_refl _)).fill
  case inl =>
    have hs : c.held = s.bytes := by
      rw [hd, Stream.advance_bytes] at hh
      exact h.held_eq.trans <| List.take_of_length_le <| List.drop_eq_nil_iff.mp hh.symm
    have hl : c.held.length = s.cells.length := hs ▸ s.bytes_length
    rw [hl] at hdc
    exact .inl ⟨d, hf, hdc, hdo, hs, hdh.trans hd⟩
  case inr =>
    exact .inr ⟨n, d, hf, hdc, hdo, fill_size_lt (c := c.consume _) hf⟩

theorem Carries.held_of_cells_nil (h : c.Carries s) (hs : s.cells = []) :
    c.held = [] ∧ c.inbound.queue = [] ∧ c.pending = s.loose := by
  have ⟨early, hb, hc, hp⟩ := h.cells
  have ⟨he, hi⟩ := List.append_eq_nil_iff.mp (hc.trans hs)
  subst he
  refine ⟨hb.symm, ?_, by simpa using hp⟩
  refine List.eq_nil_iff_forall_not_mem.mpr fun g hg => h.bytes_ne g hg ?_
  rw [←Segment.cells_bytes, List.flatMap_eq_nil_iff.mp hi g hg, List.map_nil]

-- All that has arrived or is on its way, and has not been read.
def unread (c : Channel δ) : Bytes :=
  c.held ++ c.inbound.queue.flatMap (·.bytes)

theorem Carries.unread_eq (h : c.Carries s) : c.unread = s.bytes := by
  have ⟨early, hb, hc, _⟩ := h.cells
  simp [unread, Stream.bytes, ←hc, ←hb, Inbound.cells, List.map_flatMap, Segment.cells_bytes]

-- What a channel has yet to read, when no more is known of what has been received.
def stream (c : Channel δ) : Stream δ where
  cells := c.held.map (·, []) ++ c.inbound.cells
  loose := c.pending
  ended := c.inbound.ended
  reset := c.inbound.reset

theorem Wf.carries (h : c.Wf) : c.Carries c.stream where
  toWf  := h
  cells := by
    have hn : c.held.flatMap (fun _ => ([] : List δ)) = [] :=
      List.flatMap_eq_nil_iff.mpr fun _ _ => rfl
    exact ⟨c.held.map (·, []), by simp [Function.comp_def], rfl, by simp [stream, List.flatMap_map, hn]⟩
  ended := rfl
  reset := rfl

theorem Wf.stream_bytes (h : c.Wf) : c.stream.bytes = c.unread :=
  h.carries.unread_eq.symm

theorem fresh_carries (pace : List Nat) (ended : Bool) :
    ({ inbound := { pace, ended } } : Channel δ).Carries { cells := [], ended } where
  start_le     := Nat.le_refl _
  stop_le      := Nat.zero_le _
  capacity_pos := by rw [capacity, List.length_replicate]; decide
  bytes_ne     := by simp
  cells        := ⟨[], rfl, rfl, rfl⟩
  ended        := rfl
  reset        := rfl

-- Segments that are sent extend the stream.
theorem Carries.pushAll (h : c.Carries s) (segments : List (Segment δ)) :
    { c with inbound := segments.foldl Inbound.push c.inbound }.Carries
      { s with cells := s.cells ++ segments.flatMap Segment.cells } := by
  have ⟨early, hb, hc, hp⟩ := h.cells
  have ⟨queue, hq⟩ := Inbound.pushAll_eq segments c.inbound
  refine ⟨⟨h.start_le, h.stop_le, h.capacity_pos, Inbound.pushAll_bytes_ne segments h.bytes_ne⟩,
    ⟨early, hb, ?_, hp⟩, ?_, ?_⟩
  · simp only [Inbound.pushAll_cells, ←hc, List.append_assoc]
  · rw [hq]
    exact h.ended
  · rw [hq]
    exact h.reset

end Channel

end FileBroker
