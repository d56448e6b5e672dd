import FileBroker.Command.Line
import FileBroker.Command.Run
import FileBroker.Host.Basic
import FileBroker.Log.File

namespace FileBroker

structure ProgramEnd where
  status   : Nat
  out      : Bytes := []
  -- What was said on the standard error.
  messages : List String := []
  deriving DecidableEq, Repr

def FileSystem.fileContent? (fs : FileSystem) (path : String) : Option Bytes :=
  match fs.resolve true none (Utf8.encode path) with
  | .error _ => none
  | .ok i    =>
    match fs.content? i with
    | some (.regular content) => some content
    | _                       => none

def Host.files (h : Host) (fs : FileSystem) : Config.Files :=
  fun path => match h.unreadable path with
    | some e => some (.error e)
    | none   => (fs.fileContent? path).map .ok

def FileSystem.contents : Contents FileSystem Fd where
  read fd fs :=
    let (r, fs) := fs.readAll fd
    (r.mapError .os, fs)

namespace CommandLine

def run (h : Host) (env : Environment) (line : CommandLine) (fs : FileSystem) :
    Except CommandError Bytes × FileSystem :=
  match line.proxyConfig (h.files fs) env with
  | .error e   => (.error (.config e), fs)
  | .ok config =>
    let service := line.service (Workplace.plain FileSystem.kernel)
      (Workplace.privileged (h.connector config))
    let contents := FileSystem.contents.on Workplace.world fun w world => { w with world }
    let (r, w) := line.command.run service contents (.ofWorld fs)
    (r, w.world)

def programName : String := "privfs"
def version : String := "0.1.0"
def component : String := "privfs-cli"

def say (text : String) : String :=
  s!"{programName}: {text}"

def failure (e : CommandError) : ProgramEnd where
  status   := 1
  messages := say e.message :: (if e.isBroken then
    [say "the privileged session was lost; run the command again to re-elevate"] else [])

def refusal (e : UsageError) : ProgramEnd where
  status := e.status
  out    := if e = .versionWanted then Utf8.encode s!"{programName} {version}\n" else []

-- A program that cannot log says so and goes on.
def program (h : Host) (env : Environment) (words : List String) (fs : FileSystem) :
    ProgramEnd × FileSystem :=
  match read env words with
  | .error e => (refusal e, fs)
  | .ok line =>
    let (started, fs) := (line.logging.start FileSystem.kernel env component).run fs
    let warnings := match started with
      | .ok ()   => []
      | .error e => [say s!"cannot initialize logging: {IoError.message (.os e)}"]
    let (r, fs) := line.run h env fs
    let ending : ProgramEnd := match r with
      | .ok out  => { status := 0, out }
      | .error e => failure e
    ({ ending with messages := warnings ++ ending.messages }, fs)

end CommandLine

end FileBroker
