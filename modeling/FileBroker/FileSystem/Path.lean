import FileBroker.FileSystem.Basic
import FileBroker.Syscall

namespace FileBroker

structure Path where
  absolute : Bool
  parts    : List Bytes
  -- The path ends in a slash.
  slash    : Bool
  deriving DecidableEq, Repr

namespace Path

def maxLength : Nat := 4095
def maxName : Nat := 255
def maxLinks : Nat := 40

def ofBytes (bytes : Bytes) : Path where
  absolute := bytes.head? = some pathSeparator
  parts    := (bytes.splitOn pathSeparator).filter (!·.isEmpty)
  slash    := bytes.getLast? = some pathSeparator

end Path

-- The last component of a path, seen from the directory it is in.
inductive Last
  | root
  | here
  | up
  | name (n : Bytes)
  deriving DecidableEq, Repr

def Last.ofPart (part : Bytes) : Last :=
  if part = [46] then here else if part = [46, 46] then up else name part

-- Where a path leads: a directory, and a last component in it. `found` is what has that name.
structure Spot where
  dir   : Ino
  last  : Last
  slash : Bool
  found : Option Ino := none
  deriving DecidableEq, Repr

namespace FileSystem

def lookup (fs : FileSystem) (dir : Ino) (name : Bytes) : Except Errno.Code (Option Ino) :=
  if Path.maxName < name.length then .error Errno.nametoolong else .ok (fs.child? dir name)

-- One component that is not the last: the directory it leads to, or the target of a symbolic link.
inductive Step
  | into (dir : Ino)
  | follow (target : Path)

def step (fs : FileSystem) (dir : Ino) (part : Bytes) : Except Errno.Code Step :=
  match Last.ofPart part with
  | .root | .here => .ok (.into dir)
  | .up           => .ok (.into (fs.parent dir))
  | .name n => do
    match ← fs.lookup dir n with
    | none   => throw Errno.noent
    | some i =>
      match fs.symlink? i with
      | some target => return .follow (.ofBytes target)
      | none        => if fs.isDir i then return .into i else throw Errno.notdir

-- The directory that holds the last component. That component itself is not looked at.
def locate (fs : FileSystem) (links : Nat) (dir : Ino) (parts : List Bytes) (slash : Bool) :
    Except Errno.Code Spot :=
  match parts with
  | []     => .ok { dir, last := .root, slash, found := some dir }
  | [part] => .ok { dir, last := .ofPart part, slash }
  | part :: next :: rest =>
    match fs.step dir part with
    | .error e        => .error e
    | .ok (.into dir) => fs.locate links dir (next :: rest) slash
    | .ok (.follow target) =>
      match links with
      | 0         => .error Errno.loop
      | links + 1 =>
        fs.locate links (if target.absolute then fs.root else dir) (target.parts ++ next :: rest)
          slash
termination_by (links, parts.length)

-- What to do about the last component.
structure Ending where
  -- A symbolic link there is followed.
  follow : Bool
  -- Something may be created there, so that it need not exist but must not end in a slash.
  create : Bool := false

-- Follows a path to its end.
def walk (fs : FileSystem) (ending : Ending) (links : Nat) (dir : Ino) (parts : List Bytes)
    (slash : Bool) : Except Errno.Code Spot :=
  match parts with
  | []     => .ok { dir, last := .root, slash, found := some dir }
  | [part] =>
    match Last.ofPart part with
    | .root   => .ok { dir, last := .root, slash, found := some dir }
    | .here   => .ok { dir, last := .here, slash, found := some dir }
    | .up     => .ok { dir, last := .up, slash, found := some (fs.parent dir) }
    | .name n =>
      if ending.create && slash then .error Errno.isdir else
      match fs.lookup dir n with
      | .error e  => .error e
      | .ok found =>
        match found.bind fs.symlink?, ending.follow || slash with
        | some target, true =>
          let target := Path.ofBytes target
          match links with
          | 0         => .error Errno.loop
          | links + 1 =>
            fs.walk ending links (if target.absolute then fs.root else dir) target.parts
              (slash || target.slash)
        | _, _ => .ok { dir, last := .name n, slash, found }
  | part :: next :: rest =>
    match fs.step dir part with
    | .error e        => .error e
    | .ok (.into dir) => fs.walk ending links dir (next :: rest) slash
    | .ok (.follow target) =>
      match links with
      | 0         => .error Errno.loop
      | links + 1 =>
        fs.walk ending links (if target.absolute then fs.root else dir)
          (target.parts ++ next :: rest) slash
termination_by (links, parts.length)

-- The directory that a path starts from, once the path is known to be one.
def start (fs : FileSystem) (base : Option Fd) (path : Bytes) : Except Errno.Code Ino :=
  if path.isEmpty then .error Errno.noent
  else if Path.maxLength < path.length then .error Errno.nametoolong
  else if (Path.ofBytes path).absolute then .ok fs.root
  else
    match base with
    | none    => .ok fs.cwd
    | some fd =>
      match fs.files[fd]? with
      | none                 => .error Errno.badf
      | some (.file i _ _ _) => if fs.isDir i then .ok i else .error Errno.notdir
      | some _               => .error Errno.notdir

def parentOf (fs : FileSystem) (base : Option Fd) (path : Bytes) : Except Errno.Code Spot := do
  let dir ← fs.start base path
  let p := Path.ofBytes path
  fs.locate Path.maxLinks dir p.parts p.slash

def spotOf (fs : FileSystem) (ending : Ending) (base : Option Fd) (path : Bytes) :
    Except Errno.Code Spot := do
  let dir ← fs.start base path
  let p := Path.ofBytes path
  fs.walk ending Path.maxLinks dir p.parts p.slash

-- The existing file that a spot stands for.
def target (fs : FileSystem) (spot : Spot) : Except Errno.Code Ino :=
  match spot.found with
  | none   => .error Errno.noent
  | some i => if spot.slash && !fs.isDir i then .error Errno.notdir else .ok i

def resolve (fs : FileSystem) (follow : Bool) (base : Option Fd) (path : Bytes) :
    Except Errno.Code Ino := do
  fs.target (← fs.spotOf { follow } base path)

end FileSystem

end FileBroker
