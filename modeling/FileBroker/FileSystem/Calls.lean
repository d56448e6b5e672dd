import FileBroker.FileSystem.Path
import FileBroker.Syscall

namespace FileBroker.FileSystem

open Syscall

-- A value and the file system as it is then.
abbrev After (α : Type) := α × FileSystem

def creationMask : Nat := 0o022

def masked (mode : UInt32) (bits : Nat) : Nat :=
  (mode.toNat &&& bits) &&& (0o7777 ^^^ creationMask)

-- A new name in a directory. Only a directory may be asked for with a slash.
def newSpot (fs : FileSystem) (base : Option Fd) (path : Bytes) (wantDir : Bool) :
    Except Errno.Code (Ino × Bytes) := do
  let spot ← fs.parentOf base path
  match spot.last with
  | .name n =>
    if (← fs.lookup spot.dir n).isSome then throw Errno.exist
    if (spot.slash && !wantDir) || fs.isRemoved spot.dir then throw Errno.noent
    return (spot.dir, n)
  | _ => throw Errno.exist

def accessOf (flags : Int32) : Access :=
  if hasBits flags oPath then .path
  else if hasBits flags oReadWrite then .readWrite
  else if hasBits flags oWriteOnly then .write
  else .read

-- Opening what exists. `created` says that this call made it.
def openExisting (fs : FileSystem) (flags : Int32) (i : Ino) (created : Bool) :
    Except Errno.Code (After Fd) := do
  let access := accessOf flags
  let truncate := hasBits flags oTruncate && !created
  let writes := access = .write || access = .readWrite || truncate
  let opened (fs : FileSystem) : Fd × FileSystem :=
    fs.openFile (.file i access (hasBits flags oAppend) 0)
  match fs.content? i with
  | some (.symlink _)       => throw Errno.loop
  | some (.directory ..)    => if writes && !created then throw Errno.isdir else return opened fs
  | some (.special .socket) => throw Errno.nxio
  | some (.special .fifo)   =>
    if access = .write && hasBits flags oNonBlock then throw Errno.nxio else return opened fs
  | some (.special _)       => throw Errno.nxio
  | some (.regular _)       =>
    if truncate then
      return opened (fs.modify i ({ · with content := .regular [] }))
    else
      return opened fs
  | none => throw Errno.noent

def openTemporary (fs : FileSystem) (base : Option Fd) (path : Bytes) (flags : Int32)
    (mode : UInt32) : Except Errno.Code (After Fd) := do
  if !hasBits flags oDirectory || hasBits flags oCreate then throw Errno.inval
  let access := accessOf flags
  if access = .read then throw Errno.inval
  let i ← fs.resolve (!hasBits flags oNoFollow) base path
  if !fs.isDir i then throw Errno.notdir
  let (j, fs) := fs.allocate
    { content := .regular [], mode := masked mode 0o7777, links := 0 }
  return fs.openFile (.file j access (hasBits flags oAppend) 0)

def openPath (fs : FileSystem) (base : Option Fd) (path : Bytes) (flags : Int32) :
    Except Errno.Code (After Fd) := do
  let i ← fs.resolve (!hasBits flags oNoFollow) base path
  if hasBits flags oDirectory && !fs.isDir i then throw Errno.notdir
  return fs.openFile (.file i .path false 0)

def openCreating (fs : FileSystem) (base : Option Fd) (path : Bytes) (flags : Int32)
    (mode : UInt32) : Except Errno.Code (After Fd) := do
  if hasBits flags oDirectory then throw Errno.inval
  let exclusive := hasBits flags oExclusive
  let follow := !exclusive && !hasBits flags oNoFollow
  let spot ← fs.spotOf { follow, create := true } base path
  match spot.found, spot.last with
  | some i, _ =>
    if exclusive then throw Errno.exist
    if fs.isDir i then throw Errno.isdir
    fs.openExisting flags i false
  | none, .name n =>
    if fs.isRemoved spot.dir then throw Errno.noent
    let (i, fs) := fs.makeNode spot.dir n (.regular []) (masked mode 0o7777)
    fs.openExisting flags i true
  | none, _ => throw Errno.noent

def openAtCall (fs : FileSystem) (base : Option Fd) (path : Bytes) (flags : Int32)
    (mode : UInt32) : Except Errno.Code (After Fd) := do
  if hasBits flags oPath then fs.openPath base path flags
  else if hasBits flags oTemporary then fs.openTemporary base path flags mode
  else if hasBits flags oCreate then fs.openCreating base path flags mode
  else
    let i ← fs.resolve (!hasBits flags oNoFollow) base path
    if hasBits flags oDirectory && !fs.isDir i then throw Errno.notdir
    fs.openExisting flags i false

-- Below a directory whose group is inherited, new directories pass that on.
def mkdirCall (fs : FileSystem) (base : Option Fd) (path : Bytes) (mode : UInt32) :
    Except Errno.Code (After Unit) := do
  let (dir, n) ← fs.newSpot base path true
  let inherited := ((fs.inode? dir).map (·.mode &&& 0o2000)).getD 0
  let (_, fs) := fs.makeNode dir n (.directory [] dir) (masked mode 0o1777 ||| inherited)
  return ((), fs)

def removeDir (fs : FileSystem) (base : Option Fd) (path : Bytes) :
    Except Errno.Code (After Unit) := do
  let spot ← fs.parentOf base path
  match spot.last with
  | .up     => throw Errno.notempty
  | .here   => throw Errno.inval
  | .root   => throw Errno.busy
  | .name n =>
    match ← fs.lookup spot.dir n with
    | none   => throw Errno.noent
    | some i =>
      if !fs.isDir i then throw Errno.notdir
      if !(fs.entries i).isEmpty then throw Errno.notempty
      return ((), (fs.removeEntry spot.dir n).unlinked i)

def removeFile (fs : FileSystem) (base : Option Fd) (path : Bytes) :
    Except Errno.Code (After Unit) := do
  let spot ← fs.parentOf base path
  match spot.last with
  | .name n =>
    match ← fs.lookup spot.dir n with
    | none   => throw Errno.noent
    | some i =>
      if fs.isDir i then throw Errno.isdir
      if spot.slash then throw Errno.notdir
      return ((), (fs.removeEntry spot.dir n).unlinked i)
  | _ => throw Errno.isdir

def unlinkCall (fs : FileSystem) (base : Option Fd) (path : Bytes) (flags : Int32) :
    Except Errno.Code (After Unit) :=
  if flags.toUInt32 &&& ~~~atRemoveDir != 0 then .error Errno.inval
  else if hasBits flags atRemoveDir then fs.removeDir base path
  else fs.removeFile base path

-- What a mode's type bits ask for. Directories and symbolic links have calls of their own.
def nodeContent (mode : UInt32) : Except Errno.Code Content :=
  match (mode &&& 0o170000).toNat with
  | 0        => .ok (.regular [])
  | 0o100000 => .ok (.regular [])
  | 0o010000 => .ok (.special .fifo)
  | 0o140000 => .ok (.special .socket)
  | 0o020000 => .ok (.special .charDevice)
  | 0o060000 => .ok (.special .blockDevice)
  | 0o040000 => .error Errno.perm
  | _        => .error Errno.inval

def mknodCall (fs : FileSystem) (base : Option Fd) (path : Bytes) (mode : UInt32) :
    Except Errno.Code (After Unit) := do
  let content ← nodeContent mode
  let (dir, n) ← fs.newSpot base path false
  let (_, fs) := fs.makeNode dir n content (masked mode 0o7777)
  return ((), fs)

-- An empty path reads the link that the base itself is open on.
def readlinkCall (fs : FileSystem) (base : Option Fd) (path : Bytes) :
    Except Errno.Code (After Bytes) := do
  if path.isEmpty then
    match base.bind (fs.files[·]?) with
    | some (.file i ..) =>
      match fs.symlink? i with
      | some target => return (target, fs)
      | none        => throw Errno.noent
    | _ => throw Errno.noent
  else
    match fs.symlink? (← fs.resolve false base path) with
    | some target => return (target, fs)
    | none        => throw Errno.inval

-- Moves a name, taking away what had the new one.
def move (fs : FileSystem) (source : Ino) (oldDir : Ino) (old : Bytes) (newDir : Ino)
    (new : Bytes) (replaced : Option Ino) : FileSystem :=
  let fs := fs.removeEntry oldDir old
  let fs := match replaced with
    | some i => (fs.removeEntry newDir new).unlinked i
    | none   => fs
  (fs.addEntry newDir new source).setParent source newDir

def exchange (fs : FileSystem) (source : Ino) (oldDir : Ino) (old : Bytes) (newDir : Ino)
    (new : Bytes) (other : Ino) : FileSystem :=
  let fs := (fs.removeEntry oldDir old).removeEntry newDir new
  let fs := (fs.addEntry newDir new source).addEntry oldDir old other
  (fs.setParent source newDir).setParent other oldDir

def renameCall (fs : FileSystem) (oldBase : Option Fd) (oldPath : Bytes) (newBase : Option Fd)
    (newPath : Bytes) (flags : UInt32) : Except Errno.Code (After Unit) := do
  let noReplace := flags &&& renameNoReplace != 0
  let exchanging := flags &&& renameExchange != 0
  if flags &&& ~~~(renameNoReplace ||| renameExchange) != 0 then throw Errno.inval
  if noReplace && exchanging then throw Errno.inval
  let oldSpot ← fs.parentOf oldBase oldPath
  let newSpot ← fs.parentOf newBase newPath
  match oldSpot.last, newSpot.last with
  | .name old, .name new =>
    let oldFound ← fs.lookup oldSpot.dir old
    let some source := oldFound | throw Errno.noent
    let target ← fs.lookup newSpot.dir new
    if noReplace && target.isSome then throw Errno.exist
    if exchanging then
      match target with
      | none   => throw Errno.noent
      | some i => if !fs.isDir i && newSpot.slash then throw Errno.notdir
    if !fs.isDir source then
      if oldSpot.slash then throw Errno.notdir
      if !exchanging && newSpot.slash then throw Errno.notdir
    if fs.isAbove source newSpot.dir then throw Errno.inval
    match target with
    | none =>
      if fs.isRemoved newSpot.dir then throw Errno.noent
      return ((), fs.move source oldSpot.dir old newSpot.dir new none)
    | some i =>
      if fs.isAbove i oldSpot.dir then
        throw (if exchanging then Errno.inval else Errno.notempty)
      if i = source then return ((), fs)
      if exchanging then return ((), fs.exchange source oldSpot.dir old newSpot.dir new i)
      match fs.isDir source, fs.isDir i with
      | true, false => throw Errno.notdir
      | false, true => throw Errno.isdir
      | true, true  => if !(fs.entries i).isEmpty then throw Errno.notempty
      | _, _        => pure ()
      return ((), fs.move source oldSpot.dir old newSpot.dir new (some i))
  | .name _, _ => throw (if noReplace then Errno.exist else Errno.busy)
  | _, _ => throw Errno.busy

-- The file to link. With an empty path it is the one that the base is open on.
def linkSource (fs : FileSystem) (base : Option Fd) (path : Bytes) (flags : Int32) :
    Except Errno.Code Ino :=
  if path.isEmpty && hasBits flags atEmptyPath then
    match base with
    | none => .ok fs.cwd
    | some fd =>
      match fs.files[fd]? with
      | some (.file i ..) => .ok i
      | _                 => .error Errno.badf
  else
    fs.resolve (hasBits flags atFollow) base path

def linkCall (fs : FileSystem) (oldBase : Option Fd) (oldPath : Bytes) (newBase : Option Fd)
    (newPath : Bytes) (flags : Int32) : Except Errno.Code (After Unit) := do
  if flags.toUInt32 &&& ~~~(atFollow ||| atEmptyPath) != 0 then throw Errno.inval
  let i ← fs.linkSource oldBase oldPath flags
  let (dir, n) ← fs.newSpot newBase newPath false
  if fs.isDir i then throw Errno.perm
  match fs.inode? i with
  | none => throw Errno.noent
  | some node =>
    if node.links = 0 then throw Errno.noent
    return ((), (fs.addEntry dir n i).modify i fun n => { n with links := n.links + 1 })

-- Nothing is denied but running a file that nobody may run.
def accessCall (fs : FileSystem) (base : Option Fd) (path : Bytes) (mode : Int32) :
    Except Errno.Code (After Unit) := do
  if mode.toUInt32 &&& ~~~7 != 0 then throw Errno.inval
  let i ← fs.resolve true base path
  match fs.inode? i with
  | some n =>
    if hasBits mode 1 && !fs.isDir i && n.mode &&& 0o111 = 0 then throw Errno.acces
    return ((), fs)
  | none => throw Errno.noent

def statFdCall (fs : FileSystem) (fd : Fd) : Except Errno.Code (After Status) :=
  match fs.files[fd]? with
  | some (.file i ..) => .ok (fs.status i, fs)
  | some _            =>
    .ok ({ dev := 1, ino := 1, size := 0, mode := 0o600, blksize := 4096 }, fs)
  | none              => .error Errno.badf

def statAtCall (fs : FileSystem) (base : Option Fd) (path : Bytes) (flags : Int32) :
    Except Errno.Code (After Status) := do
  if flags.toUInt32 &&& ~~~(atNoFollow ||| atNoAutomount ||| atEmptyPath ||| atStatSync) != 0 then
    throw Errno.inval
  if path.isEmpty && hasBits flags atEmptyPath then
    match base with
    | none    => return (fs.status fs.cwd, fs)
    | some fd => fs.statFdCall fd
  else
    return (fs.status (← fs.resolve (!hasBits flags atNoFollow) base path), fs)

namespace Watch

abbrev known      : UInt32 := 0xF700EFFF
abbrev onlyDir    : UInt32 := 0x01000000
abbrev dontFollow : UInt32 := 0x02000000
abbrev create     : UInt32 := 0x10000000
abbrev add        : UInt32 := 0x20000000

end Watch

-- The descriptor in a path that leads through the table of those that are open, and what is behind it.
def throughTable? (path : Bytes) : Option (Fd × Bytes) := do
  guard (descriptorTable.isPrefixOf path)
  let (number, rest) := (path.drop descriptorTable.length).span (· ≠ pathSeparator)
  guard (!rest.isEmpty)
  let fd ← Decimal.nat? 31 (number.map fun b => Char.ofNat b.toNat)
  return (fd, rest.dropWhile (· = pathSeparator))

-- The inode that a watch goes to. Nothing else is known of the directory that holds the table.
def watched (fs : FileSystem) (path : Bytes) (mask : UInt32) : Except Errno.Code Ino := do
  let follow := mask &&& Watch.dontFollow = 0
  match throughTable? path with
  | none            => fs.resolve follow none path
  | some (fd, rest) =>
    if Path.maxLength < path.length then throw Errno.nametoolong
    match fs.files[fd]? with
    | none              => throw Errno.noent
    | some (.file i ..) =>
      if !fs.isDir i then throw Errno.notdir
      if rest.isEmpty then return i
      fs.resolve follow (some fd) rest
    | some _            => throw Errno.notdir

def watchCall (fs : FileSystem) (inotify : Fd) (path : Bytes) (mask : UInt32) :
    Except Errno.Code (After Int32) := do
  if mask &&& Watch.known = 0 then throw Errno.inval
  match fs.files[inotify]? with
  | none          => throw Errno.badf
  | some .inotify =>
    if mask &&& Watch.add != 0 && mask &&& Watch.create != 0 then throw Errno.inval
    let i ← fs.watched path mask
    if mask &&& Watch.onlyDir != 0 && !fs.isDir i then throw Errno.notdir
    match fs.watches.lookup i with
    | some id => if mask &&& Watch.create != 0 then throw Errno.exist else return (id, fs)
    | none =>
      let id := fs.lastWatch + 1
      return (id, { fs with watches := (i, id) :: fs.watches, lastWatch := id })
  | some _ => throw Errno.inval

def temporaryCall (fs : FileSystem) : Except Errno.Code (After Fd) :=
  let (i, fs) := fs.allocate { content := .regular [], mode := 0o600, links := 0 }
  .ok (fs.openFile (.file i .readWrite false 0))

def effect (fs : FileSystem) : Syscall Fd α → Except Errno.Code (After α)
  | .openAt base path flags mode            => fs.openAtCall base path flags mode
  | .mkdirAt base path mode                 => fs.mkdirCall base path mode
  | .unlinkAt base path flags               => fs.unlinkCall base path flags
  | .mknodAt base path mode _               => fs.mknodCall base path mode
  | .readlinkAt base path                   => fs.readlinkCall base path
  | .renameAt oldBase old newBase new flags => fs.renameCall oldBase old newBase new flags
  | .linkAt oldBase old newBase new flags   => fs.linkCall oldBase old newBase new flags
  | .accessAt base path mode                => fs.accessCall base path mode
  | .statFd fd                              => fs.statFdCall fd
  | .statAt base path flags                 => fs.statAtCall base path flags
  | .watch inotify path mask                => fs.watchCall inotify path mask
  | .temporary                              => fs.temporaryCall

def call (c : Syscall Fd α) (fs : FileSystem) : Except Errno.Code α × FileSystem :=
  match fs.effect c with
  | .ok (a, fs) => (.ok a, fs)
  | .error e    => (.error e, fs)

def kernel : Kernel FileSystem Fd where
  call   := call
  number := id

end FileBroker.FileSystem
