import FileBroker.Proxy.Error
import FileBroker.Stat

namespace FileBroker

-- File operations by path, whoever carries them out.
inductive FileCall (δ : Type) : Type → Type
  | openFile (path : Bytes) (flags : Int32) : FileCall δ δ
  -- Creates a file, or empties the one that is there, for writing.
  | create (path : Bytes) (mode : UInt32) : FileCall δ δ
  | makeDir (path : Bytes) (mode : UInt32) : FileCall δ Unit
  | unlink (path : Bytes) (flags : Int32) : FileCall δ Unit
  | rename (old new : Bytes) : FileCall δ Unit
  | link (old new : Bytes) : FileCall δ Unit
  | readLink (path : Bytes) : FileCall δ Bytes
  -- Whether access is granted.
  | access (path : Bytes) (mode : Int32) : FileCall δ Bool
  | statFd (fd : δ) : FileCall δ Snapshot
  | stat (path : Bytes) (follow : Bool) : FileCall δ Snapshot

structure FileService (σ δ : Type) where
  call : {α : Type} → FileCall δ α → σ → Except ProxyError α × σ

-- A service on a part of a larger state.
def FileService.on (s : FileService σ δ) (get : τ → σ) (set : τ → σ → τ) : FileService τ δ where
  call c t :=
    let (r, part) := s.call c (get t)
    (r, set t part)

namespace FileService

-- Only a denial is worth a second try: an error that says so, or the answer that access is not granted.
def isDenied : FileCall δ α → Except ProxyError α → Bool
  | .access .., .ok granted => !granted
  | _,          .ok _       => false
  | _,          .error e    => e.isPermissionDenied

def escalating (plain privileged : FileService σ δ) : FileService σ δ where
  call c s :=
    let (r, s) := plain.call c s
    if isDenied c r then privileged.call c s else (r, s)

end FileService

end FileBroker
