import FileBroker.Launch.Bootstrap
import FileBroker.Record

namespace FileBroker

inductive Cue (δ : Type)
  | answer (segments : List (Segment δ)) (leaves : Bool)
  | stall
  deriving DecidableEq, Repr

namespace Cue

variable {δ : Type}

def reply (r : Reply δ) : Cue δ :=
  answer [r.segment] false

def leave : Cue δ :=
  answer [] true

-- The same, and then going away.
def leaving : Cue δ → Cue δ
  | answer segments _ => answer segments true
  | stall             => leave

def reaction : Cue δ → Reaction δ
  | answer segments leaves => if leaves then .leave segments else { segments }
  | stall                  => {}

end Cue

structure Script (δ : Type) where
  channel  : Channel δ := {}
  cues     : List (Cue δ)
  -- Once there are no more cues it goes away, or else falls silent.
  leaves   : Bool := true
  -- The requests that reached it.
  seen     : List (Record δ) := []
  -- The descriptors it handed out that cannot be written to.
  readOnly : List δ := []
  -- What was written to the others.
  written  : List (δ × Bytes) := []

namespace Script

variable {δ : Type}

def react (sent : List (Segment δ)) (s : Script δ) : Reaction δ × Script δ :=
  let channel := { s.channel with inbound := sent.foldl Inbound.push s.channel.inbound }
  match channel.readRecord with
  | (.ok (some r), channel) =>
    let cue := s.cues.headD (if s.leaves then .leave else .stall)
    (cue.reaction, { s with channel, cues := s.cues.tail, seen := s.seen ++ [r] })
  | (_, channel) => (.leave, { s with channel })

def peer : Peer (Script δ) δ where
  react := react

def writer [DecidableEq δ] : Writer (Script δ) δ where
  write fd data s :=
    if s.readOnly.contains fd then (.error (.os Errno.badf), s)
    else (.ok (), { s with written := s.written ++ [(fd, data)] })

-- The link to a helper that has sent something before it is asked anything, or has gone away again.
def link (s : Script δ) (greeting : Option (Segment δ)) : Link (Script δ) δ :=
  match greeting with
  | some segment => { channel := { inbound := Inbound.push {} segment }, far := s }
  | none         => { channel := { inbound := { ended := true }, patience := some 0 }, far := s }

-- The same helper going away right after its last reply instead of waiting for a request.
def impatient (s : Script δ) : Script δ :=
  { s with cues := s.cues.dropLast ++ s.cues.getLast?.toList.map .leaving }

def writtenTo [DecidableEq δ] (s : Script δ) (fd : δ) : Bytes :=
  (s.written.filter (·.1 = fd)).flatMap (·.2)

end Script

end FileBroker
