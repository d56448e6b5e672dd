import FileBroker.Peer
import FileBroker.Proxy.Error

namespace FileBroker

inductive Item (δ : Type)
  | request (id : Nat) (e : Encoded δ)
  | stop
  -- Nobody is left to hand in anything.
  | hangUp
  deriving DecidableEq, Repr

def Item.isStop : Item δ → Bool
  | .stop => true
  | _     => false

structure Publication (δ : Type) where
  id     : Nat
  result : Except Breakage (Answer δ)
  -- Whether the link was marked as broken when this became visible.
  broken : Bool

-- What becomes of a reply. There is room for one at a time.
inductive Uptake
  | taken
  -- The one before it is not collected in time.
  | missed
  -- Nobody is left to collect it.
  | gone
  deriving DecidableEq, Repr

structure Dispatcher (ω δ : Type) where
  link     : Link ω δ
  -- The link is gone. That is marked before the failure that shows it is published.
  broken   : Bool := false
  finished : Bool := false
  -- How many times it has been handed a stop, whether or not it still ran.
  stops    : Nat := 0

-- A channel that nobody holds any more: nothing comes out of it and nothing gets in.
def Channel.dropped : Channel δ where
  inbound  := { ended := true }
  patience := some 0

namespace Dispatcher

variable {ω δ : Type}

def finish (d : Dispatcher ω δ) : Dispatcher ω δ :=
  { d with link.channel := .dropped, broken := true, finished := true }

-- Reads and discards until the helper has closed its end, or until it falls silent.
def drain (d : Dispatcher ω δ) : Dispatcher ω δ :=
  { d with link.channel := d.link.channel.drain.2 }

-- Waits for room. A reply that is not collected in time is abandoned, and the loop goes on.
def publish (u : Uptake) (p : Publication δ) (d : Dispatcher ω δ) :
    Option (Publication δ) × Dispatcher ω δ :=
  match u with
  | .taken  => (some p, d)
  | .missed => (none, d)
  | .gone   => (none, d.finish)

-- Does not wait for room.
def tryPublish (u : Uptake) (p : Publication δ) : Option (Publication δ) :=
  match u with
  | .taken          => some p
  | .missed | .gone => none

def serve (peer : Peer ω δ) (u : Uptake) (d : Dispatcher ω δ) (id : Nat) (e : Encoded δ) :
    Option (Publication δ) × Dispatcher ω δ :=
  let (answer, link) := d.link.exchange peer e
  let d := { d with link }
  match answer with
  | .ok a => d.publish u { id, result := .ok a, broken := d.broken }
  | .error (.io e) =>
    -- With nothing to read yet the loop goes on waiting.
    if e = .wouldBlock then (none, d) else
    let d := { d with broken := true }
    (tryPublish u { id, result := .error (.disconnected e), broken := d.broken }, d.finish)
  | .error e => d.publish u { id, result := .error (.undecodable e), broken := d.broken }

-- Takes one item, and publishes at most one reply to it. A loop that has come to its end takes
-- none.
def take (peer : Peer ω δ) (d : Dispatcher ω δ) (item : Item δ) (u : Uptake := .taken) :
    Option (Publication δ) × Dispatcher ω δ :=
  let d := { d with stops := d.stops + item.isStop.toNat }
  if d.finished then (none, d) else
  match item with
  | .request id e => d.serve peer u id e
  | .stop         => (none, d.drain.finish)
  | .hangUp       => (none, d.finish)

theorem take_request {d : Dispatcher ω δ} (h : d.finished = false) (peer : Peer ω δ) (id : Nat)
    (e : Encoded δ) (u : Uptake) : d.take peer (.request id e) u = d.serve peer u id e := by
  unfold take
  exact if_neg (by simp [h])

theorem take_finished {d : Dispatcher ω δ} (h : d.finished = true) (peer : Peer ω δ) (item : Item δ)
    (u : Uptake) : d.take peer item u = (none, { d with stops := d.stops + item.isStop.toNat }) := by
  unfold take
  exact if_pos h

-- What is published for a sequence of items, when every reply is collected.
def run (peer : Peer ω δ) : List (Item δ) → Dispatcher ω δ → List (Publication δ) × Dispatcher ω δ
  | [],            d => ([], d)
  | item :: items, d =>
    let (published, d) := d.take peer item
    let (more, d) := d.run peer items
    (published.toList ++ more, d)

end Dispatcher

end FileBroker
