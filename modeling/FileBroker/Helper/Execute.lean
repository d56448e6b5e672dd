import FileBroker.ErrorText
import FileBroker.Reply
import FileBroker.Syscall

namespace FileBroker

namespace Record

variable {σ δ : Type}

-- The mode of files that opening creates.
def openCreateMode : UInt32 := 0o666

-- A path as an argument of a system call, which cannot hold NUL.
def nameOf (path : Bytes) : Except Errno.Code Bytes :=
  if path.contains 0 then .error Errno.inval else .ok path

def pathArg (r : Record δ) (i : Nat) : Except Errno.Code Bytes :=
  nameOf (r.path i)

def requiredFd (r : Record δ) (i : Nat) : Except Errno.Code δ :=
  match r.fd? i with
  | some fd => .ok fd
  | none    => .error Errno.badf

def wordArg (r : Record δ) (i : Nat) : UInt32 :=
  (r.arg i).toUInt32

-- What is watched. That call has no base, so that a relative path is made one below the base.
def watched (k : Kernel σ δ) (r : Record δ) : Bytes :=
  match r.fd? 1 with
  | some dir => if (r.path 0).head? = some pathSeparator then r.path 0 else k.pathBelow dir (r.path 0)
  | none     => r.path 0

open Syscall

def perform (k : Kernel σ δ) (r : Record δ) : KernelM σ (Reply δ) := do
  match r.operation with
  | .openFile =>
    return .readyWithFd (← k.run (.openAt (r.fd? 0) (← r.pathArg 0) (r.arg 0) openCreateMode))
  | .create =>
    let flags := (oCreate ||| oWriteOnly ||| oTruncate).toInt32
    return .readyWithFd (← k.run (.openAt none (← r.pathArg 0) flags (r.wordArg 0)))
  | .makeDir =>
    k.run (.mkdirAt (r.fd? 0) (← r.pathArg 0) (r.wordArg 0))
    return .ready
  | .unlink =>
    k.run (.unlinkAt (r.fd? 0) (← r.pathArg 0) (r.arg 0))
    return .ready
  | .makeNode =>
    k.run (.mknodAt (r.fd? 0) (← r.pathArg 0) (r.wordArg 0) (r.wordArg 1))
    return .ready
  | .readLink =>
    return .readyWithText ((← k.run (.readlinkAt (r.fd? 0) (← r.pathArg 0))).take 4096)
  | .rename =>
    k.run (.renameAt (r.fd? 0) (← r.pathArg 0) (r.fd? 1) (← r.pathArg 1) (r.wordArg 0))
    return .ready
  | .link =>
    k.run (.linkAt (r.fd? 0) (← r.pathArg 0) (r.fd? 1) (← r.pathArg 1) (r.arg 0))
    return .ready
  | .access =>
    k.run (.accessAt (r.fd? 0) (← r.pathArg 0) (r.arg 0))
    return .ready
  | .stat =>
    let target ← r.requiredFd 0
    let path ← r.pathArg 0
    if path.isEmpty then
      return .stat (.ofStatus (← k.run (.statFd target)))
    else
      -- A path that is there must be looked up, whatever the flags say.
      let flags := (r.wordArg 0 &&& ~~~atEmptyPath).toInt32
      return .stat (.ofStatus (← k.run (.statAt (some target) path flags)))
  | .addWatch =>
    let inotify ← r.requiredFd 0
    return .watchId (← k.run (.watch inotify (← nameOf (r.watched k)) (r.wordArg 0)))
  | .init    => return .readyWithFd (← k.run .temporary)
  | .cleanup => return .ready

-- A failed stat is answered in the shape of its own replies.
def failure (o : Operation) (code : Errno.Code) : Reply δ :=
  match o with
  | .stat => .statFailure (ErrorText.render code)
  | _     => .failure (ErrorText.render code)

def execute (k : Kernel σ δ) (r : Record δ) : StateM σ (Reply δ) := do
  match ← (r.perform k).run with
  | .ok reply   => return reply
  | .error code => return failure r.operation code

end Record

end FileBroker
