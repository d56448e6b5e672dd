import FileBroker.Failure

namespace FileBroker

abbrev space   : UInt8 := 32
abbrev newline : UInt8 := 10

-- Descriptors are opaque here: `δ` is whatever names an open file.
inductive Request (δ : Type)
  | openFile (base : Option δ) (path : Bytes) (flags : Int32)
  | create (path : Bytes) (mode : UInt32)
  | makeDir (base : Option δ) (path : Bytes) (mode : UInt32)
  | unlink (base : Option δ) (path : Bytes) (flags : Int32)
  | makeNode (base : Option δ) (path : Bytes) (mode : UInt32) (dev : UInt64)
  | readLink (base : Option δ) (path : Bytes)
  | rename (oldBase : Option δ) (oldPath : Bytes) (newBase : Option δ) (newPath : Bytes)
    (flags : UInt32)
  | link (oldBase : Option δ) (oldPath : Bytes) (newBase : Option δ) (newPath : Bytes)
    (flags : Int32)
  | access (base : Option δ) (path : Bytes) (mode : Int32)
  | stat (target : δ) (path : Bytes) (flags : Int32)
  | addWatch (inotify : δ) (base : Option δ) (path : Bytes) (mask : UInt32)
  | init
  | cleanup
  deriving DecidableEq, Repr

-- Collects the bytes of one record.
structure RecordWriter where
  bytes  : Bytes
  fields : Nat := 0
  deriving DecidableEq, Repr

namespace RecordWriter

def start (o : Operation) : RecordWriter where
  bytes := Utf8.encode o.keyword ++ [newline]

-- The first field follows the newline, each later one a space.
def field (w : RecordWriter) (bytes : Bytes) : RecordWriter where
  bytes  := w.bytes ++ (if w.fields = 0 then [] else [space]) ++ bytes
  fields := w.fields + 1

def int (w : RecordWriter) (name : String) (value : Int) : Except FrameError RecordWriter :=
  if Decimal.fits 32 value then
    .ok (w.field (Utf8.encode (Decimal.text value)))
  else
    .error (.overflow name value)

def len (w : RecordWriter) (name : String) (length : Nat) : Except FrameError RecordWriter :=
  w.int name length

-- All paths are one field, and no path is no field.
def paths (w : RecordWriter) : List Bytes → RecordWriter
  | []    => w
  | paths => w.field paths.flatten

def finish (w : RecordWriter) : Bytes :=
  w.bytes ++ [newline]

end RecordWriter

-- A request ready to be sent: its record, and the descriptors that follow it.
structure Encoded (δ : Type) where
  operation : Operation
  bytes     : Bytes
  fds       : List δ
  deriving DecidableEq, Repr

namespace Request

variable {δ : Type}

def operation : Request δ → Operation
  | openFile .. => .openFile
  | create ..   => .create
  | makeDir ..  => .makeDir
  | unlink ..   => .unlink
  | makeNode .. => .makeNode
  | readLink .. => .readLink
  | rename ..   => .rename
  | link ..     => .link
  | access ..   => .access
  | stat ..     => .stat
  | addWatch .. => .addWatch
  | init        => .init
  | cleanup     => .cleanup

def slots : Request δ → List (Option δ)
  | openFile base ..                      => [base]
  | create ..                             => []
  | makeDir base ..                       => [base]
  | unlink base ..                        => [base]
  | makeNode base ..                      => [base]
  | readLink base ..                      => [base]
  | rename oldBase _ newBase ..           => [oldBase, newBase]
  | link oldBase _ newBase ..             => [oldBase, newBase]
  | access base ..                        => [base]
  | stat target ..                        => [some target]
  | addWatch inotify base ..              => [some inotify, base]
  | init | cleanup                        => []

-- Unsigned 32-bit words travel as the signed number with the same bits. A device number is sent by
-- value, so a large one does not fit.
def args : Request δ → List (String × Int)
  | openFile _ _ flags       => [("flags", flags.toInt)]
  | create _ mode            => [("mode", mode.toInt32.toInt)]
  | makeDir _ _ mode         => [("mode", mode.toInt32.toInt)]
  | unlink _ _ flags         => [("flags", flags.toInt)]
  | makeNode _ _ mode dev    => [("mode", mode.toInt32.toInt), ("dev", dev.toNat)]
  | readLink ..              => []
  | rename _ _ _ _ flags     => [("flags", flags.toInt32.toInt)]
  | link _ _ _ _ flags       => [("flags", flags.toInt)]
  | access _ _ mode          => [("mode", mode.toInt)]
  | stat _ _ flags           => [("flags", flags.toInt)]
  | addWatch _ _ _ mask      => [("mask", mask.toInt32.toInt)]
  | init | cleanup           => [("reserved", 0)]

def paths : Request δ → List Bytes
  | openFile _ path _               => [path]
  | create path _                   => [path]
  | makeDir _ path _                => [path]
  | unlink _ path _                 => [path]
  | makeNode _ path ..              => [path]
  | readLink _ path                 => [path]
  | rename _ oldPath _ newPath _    => [oldPath, newPath]
  | link _ oldPath _ newPath _      => [oldPath, newPath]
  | access _ path _                 => [path]
  | stat _ path _                   => [path]
  | addWatch _ _ path _             => [path]
  | init | cleanup                  => []

-- Only the leading descriptors can be sent, because an absent slot has no place on the wire.
def fds (r : Request δ) : List δ :=
  (r.slots.takeWhile (·.isSome)).filterMap id

def encode (r : Request δ) : Except FrameError (Encoded δ) := do
  let w ← (RecordWriter.start r.operation).len "fd_count" r.fds.length
  let w ← r.args.foldlM (fun w (name, value) => w.int name value) w
  let w ← r.paths.foldlM (fun w path => w.len "path_len" path.length) w
  return ⟨r.operation, (w.paths r.paths).finish, r.fds⟩

end Request

end FileBroker
