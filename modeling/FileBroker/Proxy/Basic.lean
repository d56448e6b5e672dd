import FileBroker.Dispatch
import FileBroker.FileService.Basic
import FileBroker.Guard
import FileBroker.Proxy.Call
import FileBroker.Syscall

namespace FileBroker

-- Paths are relative to the helper's working directory.
open Syscall in
def FileCall.call : FileCall δ α → Call δ α
  | openFile path flags => .openFile none path flags
  | create path mode    => .create path mode
  | makeDir path mode   => .makeDir none path mode
  | unlink path flags   => .unlink none path flags
  | rename old new      => .rename none old none new 0
  | link old new        => .link none old none new 0
  | readLink path       => .readLink none path
  | access path mode    => .access none path mode
  | statFd fd           => .statFd fd
  | stat path follow    => .stat none path (if follow then 0 else atNoFollow.toInt32)

structure Proxy (ω δ : Type) where
  dispatcher : Dispatcher ω δ
  closed     : Bool := false
  nextId     : Nat := 1
  helperPid  : Option UInt32 := none
  teardown   : Guard := { label := "privileged-proxy" }
  -- How often the session has been shut down.
  shutdowns  : Nat := 0
  -- The working directory.
  cwd        : δ
  attempts   : Call.Duplications := []

namespace Proxy

variable {ω δ : Type}

def isClosed (p : Proxy ω δ) : Bool :=
  p.closed || p.dispatcher.broken

-- Stops the loop, if it still runs.
def shutDown (peer : Peer ω δ) (s : Dispatcher ω δ × Nat) : Ending × Dispatcher ω δ × Nat :=
  (.finished, (s.1.take peer .stop).2, s.2 + 1)

def close (peer : Peer ω δ) (p : Proxy ω δ) : Proxy ω δ :=
  if p.closed then p else
  let (_, teardown, dispatcher, shutdowns) :=
    p.teardown.run (shutDown peer) (p.dispatcher, p.shutdowns)
  { p with closed := true, teardown, dispatcher, shutdowns }

-- The proxy goes away. Its teardown runs now if it never did.
def drop (peer : Peer ω δ) (p : Proxy ω δ) : Proxy ω δ :=
  let p := p.close peer
  let (dispatcher, shutdowns) := p.teardown.drop (shutDown peer) (p.dispatcher, p.shutdowns)
  { p with teardown := { p.teardown with done := true }, dispatcher, shutdowns }

-- Closes the proxy if the result says that it is broken.
def settle (peer : Peer ω δ) (p : Proxy ω δ) : Except ProxyError α → Except ProxyError α × Proxy ω δ
  | .ok a    => (.ok a, p)
  | .error e => (.error e, if e.isBroken then p.close peer else p)

-- Hands a request to the loop and waits for the reply with its number.
def exchange (peer : Peer ω δ) (p : Proxy ω δ) (e : Encoded δ) :
    Except Breakage (Answer δ) × Proxy ω δ :=
  let (published, dispatcher) := p.dispatcher.take peer (.request p.nextId e)
  let p := { p with dispatcher, nextId := p.nextId + 1 }
  match published with
  | some publication => (publication.result, p)
  | none             => (.error (.timedOut e.operation), p)

def run (peer : Peer ω δ) (c : Call δ α) (p : Proxy ω δ) : Except ProxyError α × Proxy ω δ :=
  match (c.request p.cwd).run.run p.attempts with
  | (.error e, attempts) => (.error e, { p with attempts })
  | (.ok r, attempts) =>
    let p := { p with attempts }
    if p.isClosed then (.error (.broken .closed), p) else
    match r.encode with
    | .error e => (.error (.invalidArgument (.unencodable e)), p)
    | .ok e =>
      match p.exchange peer e with
      | (.error cause, p) => p.settle peer (.error (.broken cause))
      | (.ok answer, p)   => p.settle peer (c.outcome answer)

def text (p : Proxy ω δ) : String :=
  let pid := match p.helperPid with
    | none     => "None"
    | some pid => s!"Some({Decimal.text pid.toNat})"
  s!"PrivilegedProxy \x7b helper_pid: {pid}, closed: {p.isClosed} \x7d"

def service (peer : Peer ω δ) : FileService (Proxy ω δ) δ where
  call c p := p.run peer c.call

end Proxy

end FileBroker
