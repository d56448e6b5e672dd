import FileBroker.Log.Basic
import FileBroker.Usage.Read

namespace FileBroker

def UsageError.ofOption (e : UsageError) : Option α → Except UsageError α
  | some a => .ok a
  | none   => .error e

namespace Form

def aText (w : String) : Except UsageError String :=
  .ok w

def aPath (w : String) : Except UsageError String :=
  if w.isEmpty then .error .badValue else .ok w

def checked (read : String → Except String α) (w : String) : Except UsageError α :=
  (read w).mapError fun _ => .refusedValue

def helped (form : Form α) : Form α :=
  form <* leaving "help" .helpWanted

def versioned (form : Form α) : Form α :=
  form <* leaving "version" .versionWanted

def exitLetters : List (Char × String) := [('h', "help"), ('V', "version")]

def logging : Form LogOptions :=
  LogOptions.mk <$> value? "log-level" (fun w => UsageError.badValue.ofOption (LogLevel.ofName? w))
    <*> value? "log-format" (fun w => UsageError.badValue.ofOption (LogFormat.ofName? w))
    <*> value? "log-dir" aText <*> value? "log-file" aText

end Form

-- The status that a program ends with instead of doing anything.
def UsageError.status : UsageError → Nat
  | .helpWanted | .versionWanted => 0
  | _                            => 2

end FileBroker
