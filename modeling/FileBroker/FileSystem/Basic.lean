import FileBroker.Errno
import FileBroker.Stat

namespace FileBroker

abbrev Ino := Nat
abbrev Fd := Nat

inductive Special
  | fifo | socket | charDevice | blockDevice
  deriving DecidableEq, Repr

inductive Content
  | directory (entries : List (Bytes × Ino)) (parent : Ino)
  | regular (bytes : Bytes)
  | symlink (target : Bytes)
  | special (kind : Special)
  deriving DecidableEq, Repr

structure Inode where
  content : Content
  -- The twelve permission bits.
  mode    : Nat
  -- How many names lead here. A directory has one until it is removed.
  links   : Nat := 1
  deriving DecidableEq, Repr

inductive Access
  | read | write | readWrite | path
  deriving DecidableEq, Repr

inductive OpenFile
  | file (ino : Ino) (access : Access) (append : Bool) (offset : Nat)
  | inotify
  | terminal
  deriving DecidableEq, Repr

-- Inode and descriptor numbers are never used twice.
structure FileSystem where
  inodes    : List (Ino × Inode)
  nextIno   : Ino
  root      : Ino
  cwd       : Ino
  files     : List OpenFile := []
  watches   : List (Ino × Int32) := []
  lastWatch : Int32 := 0
  deriving DecidableEq, Repr

namespace FileSystem

def inode? (fs : FileSystem) (i : Ino) : Option Inode :=
  fs.inodes.lookup i

def content? (fs : FileSystem) (i : Ino) : Option Content :=
  (fs.inode? i).map (·.content)

def modify (fs : FileSystem) (i : Ino) (f : Inode → Inode) : FileSystem :=
  { fs with inodes := fs.inodes.map fun (j, n) => if j = i then (j, f n) else (j, n) }

def allocate (fs : FileSystem) (n : Inode) : Ino × FileSystem :=
  (fs.nextIno, { fs with inodes := (fs.nextIno, n) :: fs.inodes, nextIno := fs.nextIno + 1 })

def entries (fs : FileSystem) (dir : Ino) : List (Bytes × Ino) :=
  match fs.content? dir with
  | some (.directory entries _) => entries
  | _                           => []

def parent (fs : FileSystem) (dir : Ino) : Ino :=
  match fs.content? dir with
  | some (.directory _ parent) => parent
  | _                          => dir

def isDir (fs : FileSystem) (i : Ino) : Bool :=
  match fs.content? i with
  | some (.directory ..) => true
  | _                    => false

def symlink? (fs : FileSystem) (i : Ino) : Option Bytes :=
  match fs.content? i with
  | some (.symlink target) => some target
  | _                      => none

def child? (fs : FileSystem) (dir : Ino) (name : Bytes) : Option Ino :=
  (fs.entries dir).lookup name

def setEntries (fs : FileSystem) (dir : Ino) (f : List (Bytes × Ino) → List (Bytes × Ino)) :
    FileSystem :=
  fs.modify dir fun n =>
    match n.content with
    | .directory entries parent => { n with content := .directory (f entries) parent }
    | _                         => n

def addEntry (fs : FileSystem) (dir : Ino) (name : Bytes) (i : Ino) : FileSystem :=
  fs.setEntries dir ((name, i) :: ·)

def removeEntry (fs : FileSystem) (dir : Ino) (name : Bytes) : FileSystem :=
  fs.setEntries dir (·.filter (·.1 ≠ name))

def setParent (fs : FileSystem) (i parent : Ino) : FileSystem :=
  fs.modify i fun n =>
    match n.content with
    | .directory entries _ => { n with content := .directory entries parent }
    | _                    => n

-- Takes one name away. Watches end with the last name.
def unlinked (fs : FileSystem) (i : Ino) : FileSystem :=
  let fs := fs.modify i fun n => { n with links := n.links - 1 }
  match fs.inode? i with
  | some n => if n.links = 0 then { fs with watches := fs.watches.filter (·.1 ≠ i) } else fs
  | none   => fs

-- A directory that was removed is still there for those who have it open, but takes no new names.
def isRemoved (fs : FileSystem) (dir : Ino) : Bool :=
  match fs.inode? dir with
  | some n => n.links = 0
  | none   => true

def makeNode (fs : FileSystem) (dir : Ino) (name : Bytes) (content : Content) (mode : Nat) :
    Ino × FileSystem :=
  let (i, fs) := fs.allocate { content, mode }
  (i, fs.addEntry dir name i)

-- Whether `i` is `dir` or lies above it. The bound is the number of directories there can be.
def isAbove (fs : FileSystem) (i dir : Ino) : Bool :=
  go fs.inodes.length dir
where
  go : Nat → Ino → Bool
    | 0,         dir => dir = i
    | bound + 1, dir => dir = i || (fs.parent dir ≠ dir && go bound (fs.parent dir))

def openFile (fs : FileSystem) (f : OpenFile) : Fd × FileSystem :=
  (fs.files.length, { fs with files := fs.files ++ [f] })

-- The bits of a mode that tell what kind of file it is.
def typeBits (fs : FileSystem) (i : Ino) : Nat :=
  match fs.content? i with
  | some (.directory ..)         => 0o040000
  | some (.regular _)            => 0o100000
  | some (.symlink _)            => 0o120000
  | some (.special .fifo)        => 0o010000
  | some (.special .socket)      => 0o140000
  | some (.special .charDevice)  => 0o020000
  | some (.special .blockDevice) => 0o060000
  | none                         => 0

def fileType (fs : FileSystem) (i : Ino) : FileType :=
  .ofMode (UInt32.ofNat (fs.typeBits i))

def size (fs : FileSystem) (i : Ino) : Nat :=
  match fs.content? i with
  | some (.regular bytes)  => bytes.length
  | some (.symlink target) => target.length
  | _                      => 0

-- All files are on one device with blocks of one size.
def status (fs : FileSystem) (i : Ino) : Status where
  dev     := 1
  ino     := UInt64.ofNat i
  size    := Int64.ofNat (fs.size i)
  mode    := UInt32.ofNat (fs.typeBits i ||| ((fs.inode? i).map (·.mode)).getD 0)
  blksize := 4096

-- Puts `data` into a file's bytes. A gap before it fills with zeros.
def splice (bytes : Bytes) (offset : Nat) (data : Bytes) : Bytes :=
  bytes.take offset ++ List.replicate (offset - bytes.length) 0 ++ data ++
    bytes.drop (offset + data.length)

def write (fs : FileSystem) (fd : Fd) (data : Bytes) : Except Errno.Code Unit × FileSystem :=
  match fs.files[fd]? with
  | some (.file i access append offset) =>
    if access = .read ∨ access = .path then (.error Errno.badf, fs) else
    match fs.content? i with
    | some (.regular bytes) =>
      let offset := if append then bytes.length else offset
      let fs := fs.modify i ({ · with content := .regular (splice bytes offset data) })
      (.ok (), { fs with files := fs.files.set fd (.file i access append (offset + data.length)) })
    | _ => (.error Errno.inval, fs)
  | _ => (.error Errno.badf, fs)

-- Everything from the current position on.
def readAll (fs : FileSystem) (fd : Fd) : Except Errno.Code Bytes × FileSystem :=
  match fs.files[fd]? with
  | some (.file i access append offset) =>
    if access = .write ∨ access = .path then (.error Errno.badf, fs) else
    match fs.content? i with
    | some (.regular bytes) =>
      (.ok (bytes.drop offset),
        { fs with files := fs.files.set fd (.file i access append (max offset bytes.length)) })
    | some (.directory ..) => (.error Errno.isdir, fs)
    | _ => (.ok [], fs)
  | _ => (.error Errno.badf, fs)

end FileSystem

end FileBroker
