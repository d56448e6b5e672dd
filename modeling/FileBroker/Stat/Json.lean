import FileBroker.Json.Read
import FileBroker.Stat

namespace FileBroker

namespace FileType

def all : List FileType := [regular, directory, symlink, other]

def name : FileType → String
  | regular   => "regular"
  | directory => "directory"
  | symlink   => "symlink"
  | other     => "other"

def ofName? (name : String) : Option FileType :=
  all.find? (·.name = name)

end FileType

namespace Snapshot

def fieldNames : List String := ["dev", "ino", "size", "file_type", "blksize"]

def json (s : Snapshot) : Json :=
  .object (fieldNames.zip [.integer s.dev.toNat, .integer s.ino.toNat, .integer s.size.toInt,
    .text s.fileType.name, .integer s.blksize.toInt])

def within (low high : Int) (v : JsonValue) : Option Int :=
  v.toInt?.filter fun n => low ≤ n && n ≤ high

def ofJson? (v : JsonValue) : Option Snapshot := do
  match ← v.known? fieldNames with
  | [some dev, some ino, some size, some fileType, some blksize] =>
    return {
      dev      := UInt64.ofNat (← within 0 (UInt64.size - 1) dev).toNat
      ino      := UInt64.ofNat (← within 0 (UInt64.size - 1) ino).toNat
      size     := Int64.ofInt (← within Int64.minValue.toInt Int64.maxValue.toInt size)
      fileType := ← FileType.ofName? (← fileType.toName?)
      blksize  := Int32.ofInt (← within Int32.minValue.toInt Int32.maxValue.toInt blksize) }
  | _ => none

end Snapshot

end FileBroker
