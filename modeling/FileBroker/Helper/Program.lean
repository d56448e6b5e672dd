import FileBroker.FileSystem.Calls
import FileBroker.Helper.Address
import FileBroker.Helper.Terminal
import FileBroker.Log.File
import FileBroker.Usage.Parts

namespace FileBroker

structure HelperLine where
  address : String
  logging : LogOptions
  deriving DecidableEq, Repr

open Form in
def HelperLine.usage : Usage HelperLine where
  form    := (HelperLine.mk <$> word aText <*> Form.logging).helped.versioned
  letters := exitLetters

inductive HelperEnd
  | usage (e : UsageError)
  | logging (e : Errno.Code)
  | failed (e : HelperError)
  | served (count : Nat)
  deriving DecidableEq, Repr

namespace HelperEnd

def status : HelperEnd → Nat
  | usage e   => e.status
  | served _  => 0
  | _         => 1

-- Whether the greeting was given.
def hasGreeted : HelperEnd → Bool
  | failed _ | served _ => true
  | _                   => false

def message? : HelperEnd → Option String
  | logging e => some s!"Error: {IoError.message (.os e)}"
  | failed e  => some s!"Error: {e.message}"
  | _         => none

end HelperEnd

namespace HelperProgram

def component : String := "privfs-helper"

-- `typed` is what the proxy writes to the terminal, and `inbound` what it sends.
def run (env : Environment) (l : Listeners) (typed : Bytes) (inbound : Inbound Fd)
    (words : List String) (fs : FileSystem) : HelperEnd × Server FileSystem Fd :=
  let server (fs : FileSystem) : Server FileSystem Fd :=
    { channel := { inbound }, world := fs, gate := .waiting [] }
  match HelperLine.usage.read words with
  | .error e => (.usage e, server fs)
  | .ok line =>
    match (line.logging.start FileSystem.kernel env component).run fs with
    | (.error e, fs) => (.logging e, server fs)
    | (.ok (), fs)   =>
      match Address.connect fs l line.address with
      | .error e => (.failed e, server fs)
      | .ok ()   =>
        match ((server fs).type typed).live FileSystem.kernel with
        | (.error e, s) => (.failed e, s)
        | (.ok n, s)    => (.served n, s)

end HelperProgram

end FileBroker
