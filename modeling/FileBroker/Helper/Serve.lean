import FileBroker.Helper.Execute

namespace FileBroker

-- Why the loop ends before the stream does. A failed operation is no reason.
inductive HelperError
  | connect (address : String) (cause : IoError)
  | terminal (text : String)
  | release (line : String)
  | frame (error : FrameError)
  | io (error : IoError)
  deriving DecidableEq, Repr

def HelperError.message : HelperError → String
  | connect address cause => s!"cannot connect to {address}: {cause.message}"
  | terminal text         => s!"terminal setup failed: {text}"
  | release line          => s!"expected release line, got {Quoted.text line}"
  | frame error           => s!"control channel: {error.message}"
  | io error              => error.message

-- Whether the helper may serve already.
inductive Gate
  -- It waits for a line at its terminal, where this was typed so far.
  | waiting (typed : Bytes)
  | released
  | refused (e : HelperError)
  deriving DecidableEq, Repr

structure Server (σ δ : Type) where
  channel : Channel δ
  world   : σ
  gate    : Gate := .released
  -- How many requests have been answered.
  served  : Nat := 0

namespace Server

variable {σ δ : Type}

-- One turn of the loop: `none` at the end of the stream.
def turn (k : Kernel σ δ) (s : Server σ δ) : Except HelperError (Option Unit) × Server σ δ :=
  match s.channel.readRecord with
  | (.error e, channel)      => (.error (.frame e), { s with channel })
  | (.ok none, channel)      => (.ok none, { s with channel })
  | (.ok (some r), channel) =>
    let (reply, world) := (r.execute k).run s.world
    match channel.sendReply reply with
    | (.error e, channel) => (.error (.io e), { s with channel, world })
    | (.ok (), channel)   =>
      (.ok (some ()), { s with channel, world, served := s.served + 1 })

-- Every turn but the last takes a record off the stream, so `bound` turns are enough for a stream
-- of fewer bytes.
def serveWithin (k : Kernel σ δ) : (bound : Nat) → Server σ δ → Except HelperError Nat × Server σ δ
  | 0,         s => (.ok s.served, s)
  | bound + 1, s =>
    match s.turn k with
    | (.error e, t)        => (.error e, t)
    | (.ok none, t)        => (.ok t.served, t)
    | (.ok (some ()), t)   => serveWithin k bound t

-- The bytes that the helper can still read.
def unread (s : Server σ δ) : Nat :=
  s.channel.held.length + s.channel.inbound.size

def serve (k : Kernel σ δ) (s : Server σ δ) : Except HelperError Nat × Server σ δ :=
  serveWithin k (s.unread + 1) s

end Server

end FileBroker
