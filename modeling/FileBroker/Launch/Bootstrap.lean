import FileBroker.Launch.Basic
import FileBroker.Proxy.Basic

namespace FileBroker

-- How to write to a descriptor that came over a link.
structure Writer (ω δ : Type) where
  write : δ → Bytes → ω → Except IoError Unit × ω

def releaseLine : Bytes := Utf8.encode "GO\n"

-- Written to the file of the first reply, to see that it can be.
def selfTestText : Bytes := Utf8.encode "privfs self-test\n"

namespace Link

variable {ω δ : Type}

abbrev BootM (ω δ : Type) := ExceptT StartupFailure (StateM (Link ω δ))

def receiveTerminal : BootM ω δ δ :=
  ExceptT.mk fun l =>
    let (received, channel) := l.channel.receiveFd
    let result := match received with
      | .ok (some fd) => .ok fd
      | .ok none      => .error .noTerminal
      | .error e      => .error (.terminal e)
    (result, { l with channel })

def writeTo (w : Writer ω δ) (fd : δ) (data : Bytes) (failed : IoError → StartupFailure) :
    BootM ω δ Unit :=
  ExceptT.mk fun l =>
    let (r, far) := w.write fd data l.far
    (r.mapError failed, { l with far })

-- Sends the first request and reads the reply to it.
def greetBack (peer : Peer ω δ) : BootM ω δ (Answer δ) :=
  ExceptT.mk fun l =>
    match (Request.init (δ := δ)).encode with
    | .error e => (.error (.other e.message), l)
    | .ok e =>
      let (sent, channel) := l.channel.transmit e
      let l := { l with channel }.settle peer
      match sent with
      | .error cause => (.error (.selfTestRequest cause), l)
      | .ok () =>
        let (answer, channel) := l.channel.readAnswer e.operation.reply
        (answer.mapError .selfTestReply, { l with channel })

def bootstrap (peer : Peer ω δ) (w : Writer ω δ) : BootM ω δ Unit := do
  let terminal ← receiveTerminal
  writeTo w terminal releaseLine .release
  let answer ← greetBack peer
  if answer.isReady then
    if let some fd := answer.fd then
      -- A file that cannot be written shows nothing about the helper.
      let _ ← ExceptT.mk fun l =>
        let (_, far) := w.write fd selfTestText l.far
        (.ok (), { l with far })

end Link

-- The end of starting a helper. The link is there if one was made, as far as it got.
structure Launched (ω δ : Type) where
  result : Except StartupFailure UInt32
  link?  : Option (Link ω δ) := none

def Child.establish (peer : Peer ω δ) (w : Writer ω δ) (config : Config) (c : Child ω δ) :
    Launched ω δ :=
  match c.meet config with
  | .error e       => { result := .error e }
  | .ok (pid, link) =>
    let (r, link) := (Link.bootstrap peer w).run link
    { result := r.map fun () => pid, link? := some link }

-- A proxy on an established link.
def Proxy.launched (pid : UInt32) (link : Link ω δ) (cwd : δ) : Proxy ω δ :=
  { dispatcher := { link }, helperPid := some pid, cwd }

end FileBroker
