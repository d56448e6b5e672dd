import FileBroker.Helper.Serve
import FileBroker.Launch.Bootstrap
import FileBroker.Text.CharClass

namespace FileBroker

namespace Typed

abbrev endOfInput : UInt8 := 0x04
abbrev newline    : UInt8 := 0x0A
abbrev enter      : UInt8 := 0x0D
abbrev start      : UInt8 := 0x11
abbrev stop       : UInt8 := 0x13
abbrev kill       : UInt8 := 0x15
abbrev erase      : UInt8 := 0x7F

-- Reads one line, once it is complete: up to a newline, or up to an end of input with nothing
-- before it. `sent` can no longer be edited, and `edited` can.
def line? (sent edited : Bytes) : Bytes → Option Bytes
  | []        => none
  | b :: rest =>
    if b = newline ∨ b = enter then some (sent ++ edited ++ [newline])
    else if b = endOfInput then
      if edited.isEmpty then some sent else line? (sent ++ edited) [] rest
    else if b = erase then line? sent edited.dropLast rest
    else if b = kill then line? sent [] rest
    else if b = start ∨ b = stop then line? sent edited rest
    else line? sent (edited ++ [b]) rest

end Typed

def notText : IoError := .other "stream did not contain valid UTF-8"

-- Blanks at the end of the line do not matter.
def Gate.ofLine (line : Bytes) : Gate :=
  match Utf8.decode? line with
  | none      => .refused (.io notText)
  | some text =>
    if Utf8.encode (trimEnd text) = releaseLine.dropLast then .released
    else .refused (.release text)

def Gate.type (data : Bytes) : Gate → Gate
  | .waiting typed =>
    match Typed.line? [] [] (typed ++ data) with
    | some line => ofLine line
    | none      => .waiting (typed ++ data)
  | gate => gate

namespace Server

variable {σ δ : Type}

def type (data : Bytes) (s : Server σ δ) : Server σ δ :=
  { s with gate := s.gate.type data }

-- The whole life of a helper that has been connected.
def live (k : Kernel σ δ) (s : Server σ δ) : Except HelperError Nat × Server σ δ :=
  match s.gate with
  | .refused e => (.error e, s)
  | .waiting _ => (.error (.io .wouldBlock), s)
  | .released  => s.serve k

def isWaiting : Except HelperError Nat → Bool
  | .error (.frame (.io e)) => e = .wouldBlock
  | .error (.io e)          => e = .wouldBlock
  | _                       => false

-- Serves whatever has reached the helper, once it is released. It leaves when its loop ends.
def react (k : Kernel σ δ) (sent : List (Segment δ)) (s : Server σ δ) :
    Reaction δ × Server σ δ :=
  let channel := { s.channel with inbound := sent.foldl Inbound.push s.channel.inbound }
  let (result, s) := { s with channel }.live k
  let segments := s.channel.sent
  let s := { s with channel.sent := [] }
  if isWaiting result then ({ segments }, s) else (.leave segments, s)

def peer (k : Kernel σ δ) : Peer (Server σ δ) δ where
  react := react k

end Server

end FileBroker
