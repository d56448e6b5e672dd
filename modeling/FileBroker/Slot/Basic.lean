import FileBroker.Proxy.Basic

namespace FileBroker

structure Connector (τ ω δ : Type) where
  -- How the helpers behave that it starts.
  peer    : Peer ω δ
  connect : τ → Except ProxyError (Proxy ω δ) × τ

-- Proxies are known by the order in which they were built, so that one that was handed out can still be
-- used after the slot has forgotten it.
structure Slot (τ ω δ : Type) where
  source   : τ
  built    : List (Proxy ω δ) := []
  current  : Option Nat := none
  -- How often the connector was asked for a proxy.
  attempts : Nat := 0

namespace Slot

variable {τ ω δ : Type}

def update (s : Slot τ ω δ) (i : Nat) (p : Proxy ω δ) : Slot τ ω δ :=
  { s with built := s.built.set i p }

def isOpen (s : Slot τ ω δ) (i : Nat) : Bool :=
  match s.built[i]? with
  | some p => !p.isClosed
  | none   => false

-- The proxy in the slot, unless it is closed.
def live? (s : Slot τ ω δ) : Option Nat :=
  s.current.filter s.isOpen

-- The live proxy. If there is none the connector is asked for one; a failure changes nothing else.
def get (k : Connector τ ω δ) (s : Slot τ ω δ) : Except ProxyError Nat × Slot τ ω δ :=
  match s.live? with
  | some i => (.ok i, s)
  | none =>
    match k.connect s.source with
    | (.error e, source) => (.error e, { s with source, attempts := s.attempts + 1 })
    | (.ok p, source) =>
      (.ok s.built.length,
        { s with
          source
          built    := s.built ++ [p]
          current  := some s.built.length
          attempts := s.attempts + 1 })

def closeAt (peer : Peer ω δ) (s : Slot τ ω δ) (i : Nat) : Slot τ ω δ :=
  { s with built := s.built.modify i (·.close peer) }

-- Closes and forgets whatever proxy is in the slot.
def invalidate (peer : Peer ω δ) (s : Slot τ ω δ) : Slot τ ω δ :=
  match s.current with
  | some i => { s.closeAt peer i with current := none }
  | none   => s

-- The slot goes away, and with it what it holds.
def drop (peer : Peer ω δ) (s : Slot τ ω δ) : Slot τ ω δ :=
  s.invalidate peer

-- A call on a proxy that the slot once handed out.
def runOn (peer : Peer ω δ) (i : Nat) (c : Call δ α) (s : Slot τ ω δ) :
    Except ProxyError α × Slot τ ω δ :=
  match s.built[i]? with
  | some p =>
    let (r, p) := p.run peer c
    (r, s.update i p)
  | none => (.error (.broken .closed), s)

-- What the one who made a call does about its result.
def conclude (peer : Peer ω δ) (s : Slot τ ω δ) : Except ProxyError α → Slot τ ω δ
  | .ok _    => s
  | .error e => if e.isBroken then s.invalidate peer else s

def run (k : Connector τ ω δ) (c : Call δ α) (s : Slot τ ω δ) : Except ProxyError α × Slot τ ω δ :=
  match s.get k with
  | (.error e, s) => (.error e, s)
  | (.ok i, s) =>
    let (r, s) := s.runOn k.peer i c
    (r, s.conclude k.peer r)

def service (k : Connector τ ω δ) : FileService (Slot τ ω δ) δ where
  call c s := s.run k c.call

end Slot

end FileBroker
