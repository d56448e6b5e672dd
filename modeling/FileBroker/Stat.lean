import FileBroker.Text.Utf8

namespace FileBroker

namespace LittleEndian

-- Numbers as a little-endian host has them in memory. The host is taken to be one.
def encode : (width : Nat) → Nat → Bytes
  | 0,         _ => []
  | width + 1, n => UInt8.ofNat n :: encode width (n / 256)

def decode : Bytes → Nat
  | []        => 0
  | b :: rest => b.toNat + 256 * decode rest

theorem encode_length : (encode width n).length = width := by
  induction width generalizing n
  case zero => rfl
  case succ hi => simp [encode, hi]

end LittleEndian

inductive FileType
  | regular | directory | symlink | other
  deriving DecidableEq, Repr

namespace FileType

def ordinal : FileType → Int32
  | regular   => 0
  | directory => 1
  | symlink   => 2
  | other     => 3

def ofOrdinal (n : Int32) : FileType :=
  if n = 0 then regular else if n = 1 then directory else if n = 2 then symlink else other

-- The file type is the top four bits of a 16-bit mode.
def ofMode (mode : UInt32) : FileType :=
  match (mode &&& 0o170000).toNat with
  | 0o100000 => regular
  | 0o040000 => directory
  | 0o120000 => symlink
  | _        => other

end FileType

-- What the kernel reports of a file.
structure Status where
  dev     : UInt64
  ino     : UInt64
  size    : Int64
  mode    : UInt32
  blksize : Int64
  deriving DecidableEq, Repr

def Status.fileType (s : Status) : FileType :=
  .ofMode s.mode

structure Snapshot where
  dev      : UInt64
  ino      : UInt64
  size     : Int64
  fileType : FileType
  blksize  : Int32
  deriving DecidableEq, Repr

namespace Snapshot

def ofStatus (s : Status) : Snapshot where
  dev      := s.dev
  ino      := s.ino
  size     := s.size
  fileType := s.fileType
  blksize  := s.blksize.toInt32

def isDir (s : Snapshot) : Bool :=
  s.fileType = .directory

def indicatorLength : Nat := 8
def recordLength : Nat := 32

open LittleEndian in
def record (s : Snapshot) : Bytes :=
  encode 8 s.dev.toNat ++ encode 8 s.ino.toNat ++ encode 8 s.size.toUInt64.toNat ++
    encode 4 s.fileType.ordinal.toUInt32.toNat ++ encode 4 s.blksize.toUInt32.toNat

-- The `width` bytes at `offset` as a number.
def field (record : Bytes) (offset width : Nat) : Nat :=
  LittleEndian.decode ((record.drop offset).take width)

def ofRecord (record : Bytes) : Snapshot where
  dev      := UInt64.ofNat (field record 0 8)
  ino      := UInt64.ofNat (field record 8 8)
  size     := (UInt64.ofNat (field record 16 8)).toInt64
  fileType := .ofOrdinal (UInt32.ofNat (field record 24 4)).toInt32
  blksize  := (UInt32.ofNat (field record 28 4)).toInt32

def successIndicator : Bytes := LittleEndian.encode indicatorLength 0
def failureIndicator : Bytes := LittleEndian.encode indicatorLength 1

def reply (s : Snapshot) : Bytes :=
  successIndicator ++ s.record

def failureReply (text : String) : Bytes :=
  failureIndicator ++ Utf8.encode text ++ [0]

end Snapshot

inductive StatOutcome
  | snapshot (s : Snapshot)
  | errorFollows
  deriving DecidableEq, Repr

-- Decodes a reply that arrives in pieces of any size. It never takes a byte past the reply.
structure StatDecoder where
  indicator : Bytes := []
  record    : Bytes := []
  outcome   : Option StatOutcome := none
  deriving DecidableEq, Repr

namespace StatDecoder

open Snapshot

def fillIndicator (d : StatDecoder) (bytes : Bytes) : StatDecoder :=
  let indicator := d.indicator ++ bytes
  if indicator.length = indicatorLength ∧ LittleEndian.decode indicator ≠ 0 then
    { d with indicator, outcome := some .errorFollows }
  else
    { d with indicator }

def fillRecord (d : StatDecoder) (bytes : Bytes) : StatDecoder :=
  let record := d.record ++ bytes
  if record.length = recordLength then
    { d with record, outcome := some (.snapshot (ofRecord record)) }
  else
    { d with record }

-- The decoder after a chunk, and how many of its bytes were taken.
def feed (d : StatDecoder) (chunk : Bytes) : StatDecoder × Nat :=
  if d.outcome.isSome then (d, 0) else
  let head := chunk.take (indicatorLength - d.indicator.length)
  let d := d.fillIndicator head
  if d.outcome.isSome ∨ d.indicator.length < indicatorLength then (d, head.length) else
  let body := (chunk.drop head.length).take (recordLength - d.record.length)
  (d.fillRecord body, head.length + body.length)

end StatDecoder

end FileBroker
