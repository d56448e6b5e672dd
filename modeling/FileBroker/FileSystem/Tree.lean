import FileBroker.FileSystem.Calls

namespace FileBroker

inductive EntryKind
  | directory
  | file (content : Bytes)
  | symlink (target : Bytes)
  | hard (existing : Bytes)
  deriving DecidableEq, Repr

-- Something to create. Without a mode it gets the usual one.
structure NewEntry where
  path : Bytes
  kind : EntryKind
  mode : Option Nat := none
  deriving DecidableEq, Repr

-- Something that is there, by its path from the working directory.
structure Listed where
  path  : Bytes
  inode : Inode
  deriving DecidableEq, Repr

namespace FileSystem

def rootIno : Ino := 1
def parentIno : Ino := 2
def cwdIno : Ino := 3

-- An empty working directory two levels below the root.
def empty : FileSystem where
  inodes := [
    (rootIno, { content := .directory [([116, 109, 112], parentIno)] rootIno, mode := 0o755 }),
    (parentIno, { content := .directory [([119], cwdIno)] rootIno, mode := 0o1777 }),
    (cwdIno, { content := .directory [] parentIno, mode := 0o755 })]
  nextIno := 4
  root    := rootIno
  cwd     := cwdIno

def create (fs : FileSystem) (e : NewEntry) : Except Errno.Code FileSystem :=
  match e.kind with
  | .hard existing => (fs.linkCall none existing none e.path 0).map (·.2)
  | .directory     => node (.directory [] 0) 0o755
  | .file content  => node (.regular content) 0o644
  | .symlink t     => node (.symlink t) 0o777
where
  node (content : Content) (mode : Nat) : Except Errno.Code FileSystem := do
    let (dir, n) ← fs.newSpot none e.path true
    let (i, fs) := fs.makeNode dir n content (e.mode.getD mode)
    return fs.setParent i dir

def build (tree : List NewEntry) : Except Errno.Code FileSystem :=
  tree.foldlM create empty

-- Everything below a directory. The bound is the depth that is looked at.
def below (fs : FileSystem) : (bound : Nat) → (dir : Ino) → (under : Bytes) → List Listed
  | 0,         _,   _     => []
  | bound + 1, dir, under =>
    (fs.entries dir).flatMap fun (n, i) =>
      match fs.inode? i with
      | none       => []
      | some inode =>
        { path := under ++ n, inode } :: fs.below bound i (under ++ n ++ [pathSeparator])

def list (fs : FileSystem) : List Listed :=
  (fs.below fs.inodes.length fs.cwd []).mergeSort fun a b => a.path ≤ b.path

end FileSystem

end FileBroker
