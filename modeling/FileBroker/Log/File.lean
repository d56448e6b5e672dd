import FileBroker.Log.Basic
import FileBroker.Syscall

namespace FileBroker.LogOptions

open Syscall

variable {σ δ : Type}

def isDir (k : Kernel σ δ) (path : String) : StateM σ Bool := do
  match ← (k.run (.statAt none (Utf8.encode path) 0)).run with
  | .ok s    => return s.fileType = .directory
  | .error _ => return false

def makeDir (k : Kernel σ δ) (path : String) : KernelM σ Unit := do
  try
    k.run (.mkdirAt none (Utf8.encode path) 0o777)
  catch e =>
    if e = Errno.noent || !(← isDir k path) then throw e

-- Makes a directory, and above it what is missing. There are no more than `bound` to make.
def makeDirs (k : Kernel σ δ) : (bound : Nat) → (path : String) → KernelM σ Unit
  | 0,         _    => return ()
  | bound + 1, path => do
    if path.isEmpty then return
    try
      makeDir k path
    catch e =>
      match if e = Errno.noent then PathText.parent? path else none with
      | none       => throw e
      | some above =>
        makeDirs k bound above
        makeDir k path

def fileMode : UInt32 := 0o666

def openLog (k : Kernel σ δ) (path : String) : KernelM σ δ := do
  if let some above := PathText.parent? path then
    makeDirs k (above.length + 1) above
  let flags := (oWriteOnly ||| oCreate ||| oAppend ||| oCloseExec).toInt32
  k.run (.openAt none (Utf8.encode path) flags fileMode)

-- Gets logging ready. Nothing has to be done for it unless it goes to a file.
def start (o : LogOptions) (k : Kernel σ δ) (env : Environment) (component : String) :
    KernelM σ Unit := do
  if o.isToFile then
    let _ ← openLog k (o.path env component)

end FileBroker.LogOptions
