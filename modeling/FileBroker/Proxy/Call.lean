import FileBroker.ErrorText
import FileBroker.Proxy.Error
import FileBroker.Reply

namespace FileBroker

-- The calls that a proxy offers, each with the type of its result.
inductive Call (δ : Type) : Type → Type
  | openFile (base : Option δ) (path : Bytes) (flags : Int32) : Call δ δ
  | create (path : Bytes) (mode : UInt32) : Call δ δ
  | makeDir (base : Option δ) (path : Bytes) (mode : UInt32) : Call δ Unit
  | unlink (base : Option δ) (path : Bytes) (flags : Int32) : Call δ Unit
  | makeNode (base : Option δ) (path : Bytes) (mode : UInt32) (dev : UInt64) : Call δ Unit
  | readLink (base : Option δ) (path : Bytes) : Call δ Bytes
  | rename (oldBase : Option δ) (oldPath : Bytes) (newBase : Option δ) (newPath : Bytes)
    (flags : UInt32) : Call δ Unit
  | link (oldBase : Option δ) (oldPath : Bytes) (newBase : Option δ) (newPath : Bytes)
    (flags : Int32) : Call δ Unit
  | access (base : Option δ) (path : Bytes) (mode : Int32) : Call δ Bool
  -- An empty path means the base itself.
  | stat (base : Option δ) (path : Bytes) (flags : Int32) : Call δ Snapshot
  | addWatch (inotify : δ) (base : Option δ) (path : Bytes) (mask : UInt32) : Call δ Int32
  | init : Call δ (Option δ)
  | cleanup : Call δ Unit

namespace Call

variable {δ : Type}

def statFd (fd : δ) : Call δ Snapshot :=
  stat (some fd) [] 0

-- What comes of the next attempts to duplicate a descriptor of ours. All further ones succeed.
abbrev Duplications := List (Option IoError)

abbrev Preparing := ExceptT ProxyError (StateM Duplications)

-- A request has descriptors of its own.
def duplicate (fd : δ) : Preparing δ :=
  ExceptT.mk fun
    | some e :: attempts => (.error (.io e), attempts)
    | none :: attempts   => (.ok fd, attempts)
    | []                 => (.ok fd, [])

def duplicate? : Option δ → Preparing (Option δ)
  | some fd => return some (← duplicate fd)
  | none    => return none

def withoutNul (path : Bytes) : Except ProxyError Bytes :=
  if path.contains 0 then .error (.invalidArgument .nulInPath) else .ok path

def checked (path : Bytes) : Except ProxyError Bytes :=
  if path.isEmpty then .error (.invalidArgument .emptyPath) else withoutNul path

-- Only leading descriptors can be sent. The working directory `cwd` takes the place of a first base
-- that is missing beside a second one.
def bases (cwd : δ) (first second : Option δ) : Preparing (Option δ × Option δ) := do
  let second ← duplicate? second
  let first ← duplicate? (first <|> second.map fun _ => cwd)
  return (first, second)

def request (cwd : δ) : Call δ α → Preparing (Request δ)
  | openFile base path flags         =>
    return .openFile (← duplicate? base) (← checked path) flags
  | create path mode                 => return .create (← checked path) mode
  | makeDir base path mode           => return .makeDir (← duplicate? base) (← checked path) mode
  | unlink base path flags           => return .unlink (← duplicate? base) (← checked path) flags
  | makeNode base path mode dev      =>
    return .makeNode (← duplicate? base) (← checked path) mode dev
  | readLink base path               => return .readLink (← duplicate? base) (← checked path)
  | rename oldBase old newBase new flags => do
    let (oldBase, newBase) ← bases cwd oldBase newBase
    return .rename oldBase (← checked old) newBase (← checked new) flags
  | link oldBase old newBase new flags   => do
    let (oldBase, newBase) ← bases cwd oldBase newBase
    return .link oldBase (← checked old) newBase (← checked new) flags
  | access base path mode            => return .access (← duplicate? base) (← checked path) mode
  | stat base path flags             => do
    let path ← withoutNul path
    return .stat (← duplicate (base.getD cwd)) path flags
  | addWatch inotify base path mask  =>
    return .addWatch (← duplicate inotify) (← duplicate? base) (← checked path) mask
  | init                             => return .init
  | cleanup                          => return .cleanup

-- The call that makes a request, as long as its paths pass the checks.
def ofRequest : Request δ → (α : Type) × Call δ α
  | .openFile base path flags            => ⟨_, openFile base path flags⟩
  | .create path mode                    => ⟨_, create path mode⟩
  | .makeDir base path mode              => ⟨_, makeDir base path mode⟩
  | .unlink base path flags              => ⟨_, unlink base path flags⟩
  | .makeNode base path mode dev         => ⟨_, makeNode base path mode dev⟩
  | .readLink base path                  => ⟨_, readLink base path⟩
  | .rename oldBase old newBase new mode => ⟨_, rename oldBase old newBase new mode⟩
  | .link oldBase old newBase new flags  => ⟨_, link oldBase old newBase new flags⟩
  | .access base path mode               => ⟨_, access base path mode⟩
  | .stat target path flags              => ⟨_, stat (some target) path flags⟩
  | .addWatch inotify base path mask     => ⟨_, addWatch inotify base path mask⟩
  | .init                                => ⟨_, init⟩
  | .cleanup                             => ⟨_, cleanup⟩

-- A text that reports no error number says that the conversation itself has failed.
def refusal (text : String) : ProxyError :=
  match ErrorText.parse text with
  | .errno code message => .errno code message
  | .protocol text      => .broken (.reported text)

def ready (a : Answer δ) : Except ProxyError Unit :=
  if a.isReady then .ok () else .error (refusal a.message)

def outcome (a : Answer δ) : Call δ α → Except ProxyError α
  | openFile .. | create .. => do
    ready a
    match a.fd with
    | some fd => return fd
    | none    => throw (.broken .noDescriptor)
  | makeDir .. | unlink .. | makeNode .. | rename .. | link .. | cleanup => ready a
  | readLink .. => do
    ready a
    match a.data with
    | some (.text target) => return Utf8.encode target
    | _                   => throw (.broken .noTarget)
  | access .. =>
    match ready a with
    | .ok ()                => .ok true
    | .error (.errno code t) =>
      if code = Errno.acces then .ok false else .error (.errno code t)
    | .error e              => .error e
  | stat .. =>
    match a.data with
    | some (.stat s) => .ok s
    | _              => .error (refusal a.message)
  | addWatch .. =>
    match Decimal.int32? a.message.toList with
    | some id => if 0 ≤ id then .ok id else .error (refusal a.message)
    | none    => .error (refusal a.message)
  | init => do
    ready a
    return a.fd

end Call

end FileBroker
