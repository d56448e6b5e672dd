import FileBroker.Failure

namespace FileBroker

inductive Breakage
  | closed
  | disconnected (cause : IoError)
  | undecodable (error : FrameError)
  | timedOut (operation : Operation)
  | noDescriptor
  | noTarget
  -- The helper's own words.
  | reported (text : String)
  deriving DecidableEq, Repr

def Breakage.text : Breakage → String
  | closed             => "proxy is closed"
  | disconnected cause => s!"Disconnected: {cause.message}"
  | undecodable error  => error.message
  | timedOut operation => s!"timed out waiting for {operation.keyword} reply"
  | noDescriptor       => "received no descriptor from helper"
  | noTarget           => "readlink reply without target"
  | reported text      => text

inductive StartupFailure
  | elevation (command : String) (cause : IoError)
  | noHelperPid
  | greetingTimeout
  | timedOut
  | exited (code : Nat)
  | terminal (cause : IoError)
  | noTerminal
  | release (cause : IoError)
  | selfTestRequest (cause : IoError)
  | selfTestReply (error : FrameError)
  | other (text : String)
  deriving DecidableEq, Repr

def StartupFailure.text : StartupFailure → String
  | elevation command cause =>
    s!"cannot run elevation command {Quoted.text command}: {cause.message}"
  | noHelperPid           => "Can't get helper PID"
  | greetingTimeout       => "timed out waiting for helper greeting"
  | timedOut              => "handshake timed out"
  | exited code           => s!"helper exited during handshake (exit status: {Decimal.text code})"
  | terminal cause        => s!"failed to receive terminal descriptor: {cause.message}"
  | noTerminal            => "helper did not send a terminal descriptor"
  | release cause         => s!"cannot release helper: {cause.message}"
  | selfTestRequest cause => s!"self-test request failed: {cause.message}"
  | selfTestReply error   => s!"self-test reply failed: {error.message}"
  | other text            => text

inductive InvalidArgument
  | emptyPath
  | nulInPath
  | unencodable (error : FrameError)
  | other (text : String)
  deriving DecidableEq, Repr

def InvalidArgument.text : InvalidArgument → String
  | emptyPath         => "empty path"
  | nulInPath         => "path contains a NUL byte"
  | unencodable error => error.message
  | other text        => text

-- A failed operation is an `errno`. A `broken` proxy never works again.
inductive ProxyError
  | errno (code : Errno.Code) (text : String)
  | broken (cause : Breakage)
  | startup (cause : StartupFailure)
  | invalidArgument (cause : InvalidArgument)
  | io (error : IoError)
  deriving DecidableEq, Repr

namespace ProxyError

def message : ProxyError → String
  | errno code text       => s!"{text} (errno {Decimal.text code.toInt})"
  | broken cause          => s!"privileged proxy is broken: {cause.text}"
  | startup cause         => s!"could not establish privileged session: {cause.text}"
  | invalidArgument cause => s!"invalid argument: {cause.text}"
  | io error              => s!"I/O error: {error.message}"

def code? : ProxyError → Option Errno.Code
  | errno code _ => some code
  | io error     => error.code?
  | _            => none

def isBroken : ProxyError → Bool
  | broken _ => true
  | _        => false

-- A failure that more privilege may turn into a success.
def isPermissionDenied (e : ProxyError) : Bool :=
  e.code? = some Errno.acces || e.code? = some Errno.perm

-- A failed system call of our own. Its number is kept if it has one.
def ofIo : IoError → ProxyError
  | .os code => errno code (Errno.describe code)
  | e        => io e

def ofErrno (code : Errno.Code) : ProxyError :=
  ofIo (.os code)

def toIo : ProxyError → IoError
  | errno code _ => .os code
  | io error     => error
  | e            => .other e.message

end ProxyError

end FileBroker
