import FileBroker.Reply

namespace FileBroker

structure Reaction (δ : Type) where
  segments : List (Segment δ) := []
  -- How slowly the segments arrive.
  pace     : List Nat := []
  -- Nothing more will come.
  ended    : Bool := false
  -- Some of what was sent will never be read.
  reset    : Bool := false
  -- How many more sends get through; `none` is no limit.
  patience : Option Nat := none
  deriving DecidableEq, Repr

-- Going away for good.
def Reaction.leave (segments : List (Segment δ) := []) : Reaction δ :=
  { segments, ended := true, patience := some 0 }

-- Whoever is at the far end of a channel. It is shown what was sent to it, and reacts to that.
structure Peer (ω δ : Type) where
  react : List (Segment δ) → ω → Reaction δ × ω

def Channel.arrive (c : Channel δ) (r : Reaction δ) : Channel δ :=
  { c with
    inbound := { r.segments.foldl Inbound.push c.inbound with
      pace  := c.inbound.pace ++ r.pace
      ended := c.inbound.ended || r.ended
      reset := c.inbound.reset || r.reset }
    patience := r.patience }

structure Link (ω δ : Type) where
  channel : Channel δ := {}
  far     : ω

namespace Link

variable {ω δ : Type}

-- Shows the peer what was sent and takes in what comes of it. A peer that was sent nothing does
-- nothing.
def settle (peer : Peer ω δ) (l : Link ω δ) : Link ω δ :=
  if l.channel.sent.isEmpty then l else
  let (reaction, far) := peer.react l.channel.sent l.far
  { channel := { l.channel with sent := [] }.arrive reaction, far }

-- Sends a request and reads the reply to it. A send that fails half way has still sent something.
def exchange (peer : Peer ω δ) (l : Link ω δ) (e : Encoded δ) :
    Except FrameError (Answer δ) × Link ω δ :=
  let (sent, channel) := l.channel.transmit e
  let l := { l with channel }.settle peer
  match sent with
  | .error e => (.error (.io e), l)
  | .ok () =>
    let (answer, channel) := l.channel.readAnswer e.operation.reply
    (answer, { l with channel })

end Link

end FileBroker
