import FileBroker.Failure

namespace FileBroker

structure Segment (δ : Type) where
  bytes : Bytes
  fds   : List δ := []
  deriving DecidableEq, Repr

-- What is on its way to one end of a stream socket. Descriptors ride on the first byte of their segment.
structure Inbound (δ : Type) where
  queue : List (Segment δ) := []
  -- How many bytes the next receives find there at most, when arrival is slower than reading.
  pace  : List Nat := []
  -- Nothing more will be sent.
  ended : Bool := false
  -- The other end went away without reading all it was sent, which is reported once.
  reset : Bool := false
  deriving DecidableEq, Repr

namespace Inbound

variable {δ : Type}

-- The descriptors that fit beside one receive; the others are lost.
def maxDescriptors : Nat := 4

def size (i : Inbound δ) : Nat :=
  (i.queue.flatMap (·.bytes)).length

-- A segment of no bytes leaves no trace in a stream.
def push (i : Inbound δ) (s : Segment δ) : Inbound δ :=
  if s.bytes.isEmpty then i else { i with queue := i.queue ++ [s] }

-- The unread part of a segment. Its descriptors have gone with its first byte.
def leftover (bytes : Bytes) (queue : List (Segment δ)) : List (Segment δ) :=
  if bytes.isEmpty then queue else { bytes } :: queue

-- Takes bytes across segments, but never past one that carries descriptors.
def gather : (room : Nat) → List (Segment δ) → Bytes × List δ × List (Segment δ)
  | _,    []         => ([], [], [])
  | room, s :: queue =>
    if !s.fds.isEmpty ∨ room ≤ s.bytes.length then
      (s.bytes.take room, s.fds, leftover (s.bytes.drop room) queue)
    else
      let rest := gather (room - s.bytes.length) queue
      (s.bytes ++ rest.1, rest.2)

def paced (i : Inbound δ) (room : Nat) : Nat :=
  match i.pace with
  | []     => room
  | n :: _ => min room (max 1 n)

def receive (i : Inbound δ) (room : Nat) : Except IoError (Bytes × List δ) × Inbound δ :=
  match i.queue with
  | [] =>
    if i.reset then (.error .reset, { i with reset := false })
    else if i.ended then (.ok ([], []), i)
    else (.error .wouldBlock, i)
  | _ =>
    let (bytes, fds, queue) := gather (i.paced room) i.queue
    (.ok (bytes, fds.take maxDescriptors), { i with queue, pace := i.pace.tail })

theorem leftover_size (bytes : Bytes) (queue : List (Segment δ)) :
    ((leftover bytes queue).flatMap (·.bytes)).length =
      bytes.length + (queue.flatMap (·.bytes)).length := by
  unfold leftover
  split
  case isTrue h => simp_all [List.isEmpty_iff]
  case isFalse => simp

theorem gather_size (room : Nat) (queue : List (Segment δ)) :
    (gather room queue).1.length + ((gather room queue).2.2.flatMap (·.bytes)).length =
      (queue.flatMap (·.bytes)).length := by
  induction queue generalizing room
  case nil => simp [gather]
  case cons s queue hi =>
    unfold gather
    split
    · simp only [leftover_size, List.length_take, List.length_drop, List.flatMap_cons,
        List.length_append]
      omega
    · have := hi (room - s.bytes.length)
      simp only [List.length_append, List.flatMap_cons] at this ⊢
      omega

theorem receive_size {i j : Inbound δ} (h : i.receive room = (.ok (bytes, fds), j)) :
    bytes.length + j.size = i.size := by
  unfold receive at h
  split at h
  case h_1 hq =>
    split at h
    · simp at h
    · split at h
      · simp only [Prod.mk.injEq, Except.ok.injEq] at h
        obtain ⟨⟨rfl, _⟩, rfl⟩ := h
        simp
      · simp at h
  case h_2 =>
    simp only [Prod.mk.injEq, Except.ok.injEq] at h
    obtain ⟨⟨rfl, _⟩, rfl⟩ := h
    exact gather_size _ i.queue

end Inbound

end FileBroker
