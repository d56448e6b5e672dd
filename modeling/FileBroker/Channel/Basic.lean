import FileBroker.Channel.Inbound

namespace FileBroker

def Channel.initialCapacity : Nat := 512

-- One end of the control stream. Every reading operation returns it as it was left, also on a failure: a
-- failed search keeps all it has received, a failed fixed-size read has consumed what it took.
structure Channel (δ : Type) where
  -- The unread bytes are those of `buf` from `start` up to `stop`.
  buf      : Bytes := List.replicate Channel.initialCapacity 0
  start    : Nat := 0
  stop     : Nat := 0
  pending  : List δ := []
  inbound  : Inbound δ := {}
  -- Segments sent and not yet handed to the other end.
  sent     : List (Segment δ) := []
  -- How many more segments the other end takes before it is gone; `none` is no limit.
  patience : Option Nat := none
  deriving DecidableEq, Repr

namespace Channel

variable {δ : Type}

def capacity (c : Channel δ) : Nat :=
  c.buf.length

-- The bytes received and not yet read.
def held (c : Channel δ) : Bytes :=
  (c.buf.take c.stop).drop c.start

-- Makes sure that a full buffer has room again: unread bytes move to the front, and a buffer that
-- is unread from its first byte on doubles.
def makeRoom (c : Channel δ) : Channel δ :=
  if c.stop < c.capacity then c
  else if 0 < c.start then
    { c with
      buf   := c.held ++ c.buf.drop c.held.length
      start := 0
      stop  := c.stop - c.start }
  else
    { c with buf := c.buf ++ List.replicate c.capacity 0 }

-- Puts what has arrived behind what is there.
def accept (c : Channel δ) (bytes : Bytes) (fds : List δ) : Channel δ :=
  { c with
    buf     := c.buf.take c.stop ++ bytes ++ c.buf.drop (c.stop + bytes.length)
    stop    := c.stop + bytes.length
    pending := c.pending ++ fds }

-- One receive into the free end of the buffer. The number is that of the bytes it brought, and zero
-- at the end of the stream.
def receive (c : Channel δ) : Except IoError Nat × Channel δ :=
  match c.inbound.receive (c.capacity - c.stop) with
  | (.error e, inbound)         => (.error e, { c with inbound })
  | (.ok (bytes, fds), inbound) => (.ok bytes.length, { c with inbound }.accept bytes fds)

def fill (c : Channel δ) : Except IoError Nat × Channel δ :=
  c.makeRoom.receive

def consume (c : Channel δ) (n : Nat) : Channel δ :=
  { c with start := c.start + n }

theorem makeRoom_inbound {c : Channel δ} : c.makeRoom.inbound = c.inbound := by
  unfold makeRoom
  split
  · rfl
  · split <;> rfl

theorem fill_size {c d : Channel δ} (h : c.fill = (.ok n, d)) :
    n + d.inbound.size = c.inbound.size := by
  unfold fill receive at h
  split at h
  case h_1 => simp at h
  case h_2 hr =>
    simp only [Prod.mk.injEq, Except.ok.injEq] at h
    obtain ⟨rfl, rfl⟩ := h
    exact makeRoom_inbound (c := c) ▸ Inbound.receive_size hr

theorem fill_size_lt {c d : Channel δ} (h : c.fill = (.ok (n + 1), d)) :
    d.inbound.size < c.inbound.size := by
  have := fill_size h
  omega

-- Reads up to the first byte that `ends` accepts and consumes that byte too. The first `scanned`
-- unread bytes are known to hold none.
def readField (ends : UInt8 → Bool) (what : Unfinished) (scanned : Nat) (c : Channel δ) :
    Except IoError (Bytes × UInt8) × Channel δ :=
  match (c.held.drop scanned).findIdx? ends with
  | some i =>
    (.ok (c.held.take (scanned + i), c.held.getD (scanned + i) 0), c.consume (scanned + i + 1))
  | none =>
    match _h : c.fill with
    | (.error e, d)    => (.error e, d)
    | (.ok 0, d)       => (.error (.closedDuring what), d)
    | (.ok (_ + 1), d) => d.readField ends what c.held.length
termination_by c.inbound.size
decreasing_by exact fill_size_lt ‹_›

def readUntil (c : Channel δ) (delimiter : UInt8) : Except IoError Bytes × Channel δ :=
  match c.readField (· == delimiter) .delimited 0 with
  | (.ok (bytes, _), d) => (.ok bytes, d)
  | (.error e, d)       => (.error e, d)

inductive TokenEnd
  | space | newline
  deriving DecidableEq, Repr

def readToken (c : Channel δ) : Except IoError (Bytes × TokenEnd) × Channel δ :=
  match c.readField (fun b => b == 32 || b == 10) .token 0 with
  | (.ok (bytes, last), d) => (.ok (bytes, if last = 32 then .space else .newline), d)
  | (.error e, d)          => (.error e, d)

-- A message ends with NUL.
def readMessage (c : Channel δ) : Except IoError String × Channel δ :=
  match c.readUntil 0 with
  | (.ok bytes, d) => (.ok (Utf8.decodeLossy bytes), d)
  | (.error e, d)  => (.error e, d)

def atEnd (c : Channel δ) : Except IoError Bool × Channel δ :=
  if c.start < c.stop then (.ok false, c) else
  match c.fill with
  | (.ok n, d)    => (.ok (n = 0), d)
  | (.error e, d) => (.error e, d)

def readMessage? (c : Channel δ) : Except IoError (Option String) × Channel δ :=
  match c.atEnd with
  | (.ok true, d)  => (.ok none, d)
  | (.ok false, d) =>
    match d.readMessage with
    | (.ok text, d) => (.ok (some text), d)
    | (.error e, d) => (.error e, d)
  | (.error e, d)  => (.error e, d)

def readExact (c : Channel δ) (count : Nat) : Except IoError Bytes × Channel δ :=
  let taken := c.held.take count
  let c' := c.consume taken.length
  if taken.length = count then (.ok taken, c') else
  match _h : c'.fill with
  | (.error e, d)    => (.error e, d)
  | (.ok 0, d)       => (.error (.closedDuring .fixed), d)
  | (.ok (_ + 1), d) =>
    match d.readExact (count - taken.length) with
    | (.ok more, d) => (.ok (taken ++ more), d)
    | (.error e, d) => (.error e, d)
termination_by c.inbound.size
decreasing_by exact fill_size_lt (c := c') ‹_›

-- Feeds what arrives to `take`, which returns its new state and the number of bytes it took, until
-- `done` holds of the state.
def readWith (take : σ → Bytes → σ × Nat) (done : σ → Bool) (s : σ) (c : Channel δ) :
    Except IoError σ × Channel δ :=
  let fed := if c.start < c.stop then take s c.held else (s, 0)
  let c' := c.consume fed.2
  if c.start < c.stop ∧ done fed.1 then (.ok fed.1, c') else
  match _h : c'.fill with
  | (.error e, d)    => (.error e, d)
  | (.ok 0, d)       => (.error (.closedDuring .record), d)
  | (.ok (_ + 1), d) => d.readWith take done fed.1
termination_by c.inbound.size
decreasing_by exact fill_size_lt (c := c') ‹_›

-- The one descriptor that arrived. Any other number of them is discarded.
def takeFd (c : Channel δ) : Option δ × Channel δ :=
  match c.pending with
  | [fd] => (some fd, { c with pending := [] })
  | _    => (none, { c with pending := [] })

-- The first descriptors in order of arrival, at most `count`.
def takeFds (c : Channel δ) (count : Nat) : List δ × Channel δ :=
  (c.pending.take count, { c with pending := c.pending.drop count })

def discardFds (c : Channel δ) : Channel δ :=
  { c with pending := [] }

-- Drops all that is unread and all that arrives until the stream ends; the number counts the bytes.
def drain (c : Channel δ) : Except IoError Nat × Channel δ :=
  go c.held.length { c with start := 0, stop := 0 }
where
  go (total : Nat) (c : Channel δ) : Except IoError Nat × Channel δ :=
    match _h : c.fill with
    | (.error e, d)    => (.error e, d)
    | (.ok 0, d)       => (.ok total, { d with start := 0, stop := 0, pending := [] })
    | (.ok (n + 1), d) => go (total + (n + 1)) { d with start := 0, stop := 0, pending := [] }
  termination_by c.inbound.size
  decreasing_by exact fill_size_lt ‹_›

-- One send. Whatever it carries arrives as one segment.
def send (c : Channel δ) (s : Segment δ) : Except IoError Unit × Channel δ :=
  match c.patience with
  | some 0       => (.error .brokenPipe, c)
  | some (n + 1) => (.ok (), { c with sent := c.sent ++ [s], patience := some n })
  | none         => (.ok (), { c with sent := c.sent ++ [s] })

-- Writing nothing succeeds whatever the state of the other end.
def write (c : Channel δ) (bytes : Bytes) : Except IoError Unit × Channel δ :=
  if bytes.isEmpty then (.ok (), c) else c.send { bytes }

def sendWithFd (c : Channel δ) (bytes : Bytes) (fd : δ) : Except IoError Unit × Channel δ :=
  if bytes.isEmpty then (.error .bareDescriptor, c) else c.send { bytes, fds := [fd] }

-- The byte that travels with a descriptor when nothing else does.
def marker : UInt8 := 1

def sendFd (c : Channel δ) (fd : δ) : Except IoError Unit × Channel δ :=
  c.sendWithFd [marker] fd

-- Sends descriptors in slot order, up to the first absent one, and counts them.
def sendFds (c : Channel δ) : List (Option δ) → Except IoError Nat × Channel δ
  | some fd :: slots =>
    match c.sendFd fd with
    | (.ok (), d)   =>
      match d.sendFds slots with
      | (.ok n, d)    => (.ok (n + 1), d)
      | (.error e, d) => (.error e, d)
    | (.error e, d) => (.error e, d)
  | _ => (.ok 0, c)

-- A receive that goes past the buffer.
def receiveRaw (c : Channel δ) (room : Nat) : Except IoError (Bytes × List δ) × Channel δ :=
  match c.inbound.receive room with
  | (r, inbound) => (r, { c with inbound })

def receiveFd (c : Channel δ) : Except IoError (Option δ) × Channel δ :=
  match c.receiveRaw 1 with
  | (.ok ([], []), d)  => (.error .closedBeforeDescriptor, d)
  | (.ok (_, [fd]), d) => (.ok (some fd), d)
  | (.ok _, d)         => (.ok none, d)
  | (.error e, d)      => (.error e, d)

end Channel

end FileBroker
