import FileBroker.Config.Basic
import FileBroker.Greeting
import FileBroker.Peer
import FileBroker.Shell.Words

namespace FileBroker

-- The life of a helper as its proxy sees it.
inductive HelperState
  | spawning
  | awaitingGreeting
  | awaitingTerminal
  | bootstrapping
  | ready
  | serving
  | draining
  | terminated
  deriving DecidableEq, Repr

namespace HelperState

def all : List HelperState :=
  [spawning, awaitingGreeting, awaitingTerminal, bootstrapping, ready, serving, draining,
   terminated]

def name : HelperState → String
  | spawning         => "spawning"
  | awaitingGreeting => "awaiting-greeting"
  | awaitingTerminal => "awaiting-terminal"
  | bootstrapping    => "bootstrapping"
  | ready            => "ready"
  | serving          => "serving"
  | draining         => "draining"
  | terminated       => "terminated"

end HelperState

-- Who is at the other end of a connection. Not every system tells the process.
structure Credentials where
  pid? : Option Int32
  uid  : UInt32
  deriving DecidableEq, Repr

def Credentials.isOf (c : Credentials) (uid pid : UInt32) : Bool :=
  c.uid = uid && c.pid?.all fun p => p.toUInt32 = pid

structure Connection (ω δ : Type) where
  credentials : Credentials
  link        : Link ω δ

-- What came of running the elevation command. Times are milliseconds after its start.
structure Child (ω δ : Type) where
  output      : List (Nat × Bytes) := []
  -- When it ended, and with which status.
  exit?       : Option (Nat × Nat) := none
  -- The connections that were made to us, in order.
  connections : List (Connection ω δ) := []

namespace Child

variable {ω δ : Type}

-- Everything up to the first NUL, or up to the end. Later than the deadline does not count.
def greeting (deadline : Nat) (c : Child ω δ) : Except StartupFailure String :=
  let intime := (c.output.filter (·.1 < deadline)).flatMap (·.2)
  let ended := c.exit?.any (·.1 < deadline)
  if deadline = 0 then .error .timedOut
  else if intime.contains 0 || ended then .ok (Utf8.decodeLossy (intime.takeWhile (· ≠ 0)))
  else .error .greetingTimeout

-- The first connection by the process with that number. Others are turned away.
def accept (config : Config) (pid : UInt32) (c : Child ω δ) : Except StartupFailure (Link ω δ) :=
  match c.connections.find? (·.credentials.isOf config.expectedUid pid) with
  | some connection => .ok connection.link
  | none =>
    match c.exit?.filter (·.1 < config.handshakeTimeout.toNat) with
    | some (_, status) => .error (.exited status)
    | none             => .error .timedOut

def meet (config : Config) (c : Child ω δ) : Except StartupFailure (UInt32 × Link ω δ) := do
  let pid ← Greeting.helperPid (← c.greeting config.handshakeTimeout.toNat)
  return (pid, ← c.accept config pid)

end Child

end FileBroker
