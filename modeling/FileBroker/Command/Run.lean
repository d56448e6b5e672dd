import FileBroker.Command.Basic
import FileBroker.FileService.Basic
import FileBroker.Stat.Json
import FileBroker.Syscall

namespace FileBroker

inductive CommandError
  | config (e : ConfigError)
  | call (attempt : String) (e : ProxyError)
  | copying (e : IoError)
  deriving DecidableEq, Repr

-- An error and what is behind it.
def ProxyError.chain (e : ProxyError) : List String :=
  match e with
  | .io cause => [e.message, cause.message]
  | _         => [e.message]

namespace CommandError

-- From the outermost cause to the innermost.
def chain : CommandError → List String
  | config e       => ["cannot load configuration", e.message]
  | call attempt e => attempt :: e.chain
  | copying e      => [e.message]

def message (e : CommandError) : String :=
  ": ".intercalate e.chain

def top (e : CommandError) : String :=
  e.chain.headD ""

-- Whether the session with the helper was lost.
def isBroken : CommandError → Bool
  | call _ e => e.isBroken
  | _        => false

end CommandError

-- What is left to read of a file that a service has opened.
structure Contents (σ δ : Type) where
  read : δ → σ → Except IoError Bytes × σ

def Contents.on (c : Contents σ δ) (get : τ → σ) (set : τ → σ → τ) : Contents τ δ where
  read fd t :=
    let (r, part) := c.read fd (get t)
    (r, set t part)

namespace Snapshot

def typeTitle (s : Snapshot) : String :=
  s.fileType.name.capitalize

def report (s : Snapshot) (path : String) : String :=
  s!"  File: {path}\n  Type: {s.typeTitle}\n" ++
  s!"  Size: {Decimal.text s.size.toInt}\tIO Block: {Decimal.text s.blksize.toInt}\n" ++
  s!"Device: {Decimal.text s.dev.toNat}\tInode: {Decimal.text s.ino.toNat}\n"

end Snapshot

namespace Command

variable {σ δ : Type}

abbrev RunM (σ : Type) := ExceptT CommandError (StateM σ)

def ask (fs : FileService σ δ) (attempt : String) (c : FileCall δ α) : RunM σ α :=
  ExceptT.mk fun s =>
    let (r, s) := fs.call c s
    (r.mapError (.call attempt), s)

def oReadOnly : Int32 := 0

def removeFlags (dir : Bool) : Int32 :=
  if dir then Syscall.atRemoveDir.toInt32 else 0

def perform (fs : FileService σ δ) (contents : Contents σ δ) : Command → RunM σ Bytes
  | cat path => do
    let fd ← ask fs s!"cannot open {path}" (.openFile (Utf8.encode path) oReadOnly)
    ExceptT.mk fun s =>
      let (r, s) := contents.read fd s
      (r.mapError .copying, s)
  | stat path noFollow json => do
    let s ← ask fs s!"cannot stat {path}" (.stat (Utf8.encode path) !noFollow)
    return Utf8.encode (if json then s.json.pretty "" ++ "\n" else s.report path)
  | mkdir path mode => do
    ask fs s!"cannot create directory {path}" (.makeDir (Utf8.encode path) mode)
    return []
  | rm path dir => do
    ask fs s!"cannot remove {path}" (.unlink (Utf8.encode path) (removeFlags dir))
    return []
  | mv source target => do
    ask fs s!"cannot move {source} to {target}"
      (.rename (Utf8.encode source) (Utf8.encode target))
    return []
  | ln source target => do
    ask fs s!"cannot link {target} to {source}" (.link (Utf8.encode source) (Utf8.encode target))
    return []
  | readlink path => do
    let target ← ask fs s!"cannot read link {path}" (.readLink (Utf8.encode path))
    return Utf8.encode (Utf8.decodeLossy target ++ "\n")
  | access path mode => do
    let granted ← ask fs s!"cannot check {path}" (.access (Utf8.encode path) mode)
    return Utf8.encode (if granted then "granted\n" else "denied\n")

-- What the command prints, or why it failed.
def run (fs : FileService σ δ) (contents : Contents σ δ) (c : Command) (s : σ) :
    Except CommandError Bytes × σ :=
  (c.perform fs contents).run s

end Command

-- The service that a command line asks for.
def CommonOptions.service (o : CommonOptions) (plain privileged : FileService σ δ) :
    FileService σ δ :=
  if o.noLocal then privileged else .escalating plain privileged

end FileBroker
