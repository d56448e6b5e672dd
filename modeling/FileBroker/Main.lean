import FileBroker.Command.Program
import FileBroker.FileSystem.Change

-- The files that the command line names are read in, the command is run on them, and then the same is
-- done to the files on the disk. Links count as what they lead to.
namespace FileBroker.Disk

-- What there is under a name. A directory is nothing to read, and nor is it missing.
inductive Found
  | entry (kind : EntryKind)
  | unreadable (e : IoError)
  | nothing

-- All variables that are text, as the system lists them.
def environment : IO Environment := do
  let listed ← IO.FS.readBinFile "/proc/self/environ"
  return (listed.toList.splitOn 0).filterMap fun entry =>
    match (Utf8.decode? entry).map String.toList with
    | none      => none
    | some text =>
      let name := text.takeWhile (· ≠ '=')
      if name.isEmpty || name.length = text.length then none
      else some (String.ofList name, String.ofList (text.drop (name.length + 1)))

-- Whether a name leads to a file, though not into it. That is known when nothing can be below it.
def isFile (path : String) : IO Bool := do
  match ← (IO.FS.readBinFile (path ++ "/.")).toBaseIO with
  | .error (.inappropriateType ..) => return true
  | _                              => return false

def find (path : String) : IO Found := do
  match ← (IO.FS.readBinFile path).toBaseIO with
  | .ok content                         => return .entry (.file content.toList)
  | .error (.inappropriateType ..)      => return .entry .directory
  | .error (.permissionDenied _ code _) =>
    if ← isFile path then return .unreadable (.os code.toInt32) else return .nothing
  | .error _                            => return .nothing

-- A path after those that lead to it.
def leading (path : String) : List String :=
  let parts := path.splitOn "/"
  (List.range parts.length).map fun n => "/".intercalate (parts.take (n + 1))

def add (path : String) (kind : EntryKind) (fs : FileSystem) : FileSystem :=
  (fs.create { path := Utf8.encode path, kind }).toOption.getD fs

def empty (cwd : String) : FileSystem :=
  let fs := (leading cwd).foldl (fun fs path => add path .directory fs) .empty
  { fs with cwd := (fs.resolve true none (Utf8.encode cwd)).toOption.getD fs.cwd }

-- The files that could be read, and those that are there and could not.
structure Loaded where
  files      : FileSystem
  unreadable : List (String × IoError) := []

def load (l : Loaded) (path : String) : IO Loaded := do
  (leading path).foldlM (fun l path => return match ← find path with
    | .entry kind   => { l with files := add path kind l.files }
    | .unreadable e => { l with unreadable := (path, e) :: l.unreadable }
    | .nothing      => l) l

-- A configuration file is looked for under a second name, too.
def named (words : List String) (env : Environment) : List String :=
  let isOurs (name : String) : Bool :=
    name = "HOME" || name = "XDG_DATA_HOME" || (Settings.lower name).startsWith Settings.variablePrefix
  let names := words.flatMap (·.splitOn "=") ++ (env.filter (isOurs ·.1)).map (·.2)
  names ++ names.map (· ++ ".toml")

def listing (fs : FileSystem) : List Listed :=
  (fs.below fs.inodes.length fs.root [pathSeparator]).mergeSort fun a b => a.path ≤ b.path

def carryOut : Change → IO Unit
  | .makeDir path       => IO.FS.createDir (Utf8.decodeLossy path)
  | .write path content => IO.FS.writeBinFile (Utf8.decodeLossy path) ⟨content.toArray⟩
  | .removeDir path     => IO.FS.removeDir (Utf8.decodeLossy path)
  | .remove path        => IO.FS.removeFile (Utf8.decodeLossy path)

end FileBroker.Disk

open FileBroker in
def main (words : List String) : IO UInt32 := do
  let env ← Disk.environment
  let start : Disk.Loaded := { files := Disk.empty (← IO.currentDir).toString }
  let disk ← (Disk.named words env).foldlM Disk.load start
  let host : Host := { unreadable := fun path => disk.unreadable.lookup path }
  let (ending, after) := CommandLine.program host env words disk.files
  try
    (changes (Disk.listing disk.files) (Disk.listing after)).forM Disk.carryOut
  catch e =>
    IO.eprintln (CommandLine.say e.toString)
    return 1
  (← IO.getStdout).write ⟨ending.out.toArray⟩
  ending.messages.forM IO.eprintln
  return ending.status.toUInt32
