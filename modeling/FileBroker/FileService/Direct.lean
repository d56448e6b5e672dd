import FileBroker.FileService.Basic
import FileBroker.Proxy.Call
import FileBroker.Syscall

namespace FileBroker

open Syscall

namespace FileService

variable {σ δ : Type}

-- A name in a system call cannot hold NUL. Only opening and checking access count that as a mistake
-- of the caller.
def plainName (path : Bytes) : Except ProxyError Bytes :=
  if path.contains 0 then .error (.ofIo .nulInName) else .ok path

def openName (path : Bytes) : Except ProxyError Bytes :=
  if path.contains 0 then .error (.invalidArgument .nulInPath) else .ok path

def directCreateMode : UInt32 := 0o666

abbrev DirectM (σ : Type) := ExceptT ProxyError (StateM σ)

def attempt (k : Kernel σ δ) (c : Syscall δ α) : DirectM σ α :=
  ExceptT.mk fun s =>
    match k.call c s with
    | (.ok a, s)       => (.ok a, s)
    | (.error code, s) => (.error (.ofErrno code), s)

-- Sizes come as words without a sign here.
def metadata (s : Status) : Snapshot where
  dev      := s.dev
  ino      := s.ino
  size     := s.size.toUInt64.toInt64
  fileType := s.fileType
  blksize  := s.blksize.toUInt64.toUInt32.toInt32

-- `attempts` is what comes of duplicating a descriptor in this call.
def perform (k : Kernel σ δ) (attempts : Call.Duplications) : FileCall δ α → DirectM σ α
  | .openFile path flags => do
    let flags := (flags.toUInt32 ||| oCloseExec).toInt32
    attempt k (.openAt none (← openName path) flags directCreateMode)
  | .create path mode => do
    let flags := (oCreate ||| oWriteOnly ||| oTruncate ||| oCloseExec).toInt32
    attempt k (.openAt none (← plainName path) flags mode)
  | .makeDir path mode => do attempt k (.mkdirAt none (← plainName path) mode)
  | .unlink path flags => do
    let flags := if hasBits flags atRemoveDir then atRemoveDir.toInt32 else 0
    attempt k (.unlinkAt none (← plainName path) flags)
  | .rename old new => do
    attempt k (.renameAt none (← plainName old) none (← plainName new) 0)
  | .link old new => do
    attempt k (.linkAt none (← plainName old) none (← plainName new) 0)
  | .readLink path => do attempt k (.readlinkAt none (← plainName path))
  | .access path mode => do
    let path ← openName path
    try
      attempt k (.accessAt none path mode)
      return true
    catch e =>
      if e.code? = some Errno.acces then return false
      throw e
  | .statFd fd => do
    let fd ← ((Call.duplicate fd).run attempts).1
    return metadata (← attempt k (.statFd fd))
  | .stat path follow => do
    let flags := if follow then 0 else atNoFollow.toInt32
    return metadata (← attempt k (.statAt none (← plainName path) flags))

def direct (k : Kernel σ δ) (attempts : Call.Duplications := []) : FileService σ δ where
  call c s := (perform k attempts c).run s

end FileService

end FileBroker
