import FileBroker.Record
import FileBroker.Stat

namespace FileBroker

inductive Reply (δ : Type)
  | ready
  | readyWithFd (fd : δ)
  | readyWithText (text : Bytes)
  | failure (text : String)
  | stat (s : Snapshot)
  | statFailure (text : String)
  | watchId (id : Int32)
  deriving DecidableEq, Repr

-- The status of every success.
def readyStatus : String := "READY"

namespace Reply

variable {δ : Type}

def isSuccess : Reply δ → Bool
  | failure _ | statFailure _ => false
  | _                         => true

def terminated (bytes : Bytes) : Bytes :=
  bytes ++ [0]

def readyBytes : Bytes :=
  terminated (Utf8.encode readyStatus)

def segment : Reply δ → Segment δ
  | ready              => { bytes := readyBytes }
  | readyWithFd fd     => { bytes := readyBytes, fds := [fd] }
  | readyWithText text => { bytes := readyBytes ++ terminated text }
  | failure text       => { bytes := terminated (Utf8.encode text) }
  | stat s             => { bytes := s.reply }
  | statFailure text   => { bytes := Snapshot.failureReply text }
  | watchId id         => { bytes := terminated (Utf8.encode (Decimal.text id.toInt)) }

end Reply

def Channel.sendReply (c : Channel δ) (r : Reply δ) : Except IoError Unit × Channel δ :=
  c.send r.segment

inductive Payload
  | stat (s : Snapshot)
  | text (s : String)
  deriving DecidableEq, Repr

-- A reply as its receiver sees it.
structure Answer (δ : Type) where
  fd      : Option δ := none
  -- The success status, a number, or an error text.
  message : String
  data    : Option Payload := none
  deriving DecidableEq, Repr

namespace Answer

variable {δ : Type}

def isReady (a : Answer δ) : Bool :=
  a.message = readyStatus

open Reading Channel

def readStat : Reading δ FrameError StatOutcome := do
  let decoder ← io (readWith StatDecoder.feed (·.outcome.isSome) {})
  match decoder.outcome with
  | some outcome => return outcome
  | none         => malformed (.other "stat reply ended early")

-- A descriptor that no reply of this shape brings is dropped.
def read : ReplyShape → Reading δ FrameError (Answer δ)
  | .status | .watchId => do
    let message ← io readMessage
    modify discardFds
    return { message }
  | .statusWithDescriptor => do
    let message ← io readMessage
    let fd ← (modifyGet takeFd : Reading δ FrameError (Option δ))
    return { message, fd }
  | .statusWithText => do
    let message ← io readMessage
    let data ← if message = readyStatus then some <$> Payload.text <$> io readMessage else pure none
    modify discardFds
    return { message, data }
  | .snapshot => do
    match ← readStat with
    | .snapshot s =>
      modify discardFds
      return { message := readyStatus, data := some (.stat s) }
    | .errorFollows =>
      let message ← io readMessage
      modify discardFds
      return { message }

end Answer

def Channel.readAnswer (shape : ReplyShape) (c : Channel δ) :
    Except FrameError (Answer δ) × Channel δ :=
  Answer.read shape c

end FileBroker
