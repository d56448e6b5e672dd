import FileBroker.Errno
import FileBroker.Stat
import FileBroker.Text.Decimal

namespace FileBroker

inductive Syscall (δ : Type) : Type → Type
  | openAt (base : Option δ) (path : Bytes) (flags : Int32) (mode : UInt32) : Syscall δ δ
  | mkdirAt (base : Option δ) (path : Bytes) (mode : UInt32) : Syscall δ Unit
  | unlinkAt (base : Option δ) (path : Bytes) (flags : Int32) : Syscall δ Unit
  | mknodAt (base : Option δ) (path : Bytes) (mode : UInt32) (dev : UInt32) : Syscall δ Unit
  | readlinkAt (base : Option δ) (path : Bytes) : Syscall δ Bytes
  | renameAt (oldBase : Option δ) (old : Bytes) (newBase : Option δ) (new : Bytes)
    (flags : UInt32) : Syscall δ Unit
  | linkAt (oldBase : Option δ) (old : Bytes) (newBase : Option δ) (new : Bytes)
    (flags : Int32) : Syscall δ Unit
  | accessAt (base : Option δ) (path : Bytes) (mode : Int32) : Syscall δ Unit
  | statFd (fd : δ) : Syscall δ Status
  | statAt (base : Option δ) (path : Bytes) (flags : Int32) : Syscall δ Status
  | watch (inotify : δ) (path : Bytes) (mask : UInt32) : Syscall δ Int32
  -- A fresh unnamed file, open for reading and writing.
  | temporary : Syscall δ δ

-- Whatever answers system calls.
structure Kernel (σ δ : Type) where
  call   : {α : Type} → Syscall δ α → σ → Except Errno.Code α × σ
  -- The number that a descriptor has for whoever makes the calls.
  number : δ → Nat

-- A computation that makes system calls and may fail with an error number.
abbrev KernelM (σ : Type) := ExceptT Errno.Code (StateM σ)

def Kernel.run (k : Kernel σ δ) (c : Syscall δ α) : KernelM σ α :=
  ExceptT.mk (k.call c)

abbrev pathSeparator : UInt8 := 47

-- The table of open descriptors, in which each has its number for a name.
def descriptorTable : Bytes :=
  Utf8.encode "/proc/self/fd/"

-- A path below a directory that is open, for a call that has no base.
def Kernel.pathBelow (k : Kernel σ δ) (dir : δ) (path : Bytes) : Bytes :=
  descriptorTable ++ Utf8.encode (Decimal.text (k.number dir)) ++ pathSeparator :: path

namespace Syscall

-- Words of 32 bits whose bits stand for options.
def hasBits (flags : Int32) (bits : UInt32) : Bool :=
  flags.toUInt32 &&& bits != 0

abbrev oWriteOnly : UInt32 := 0x1
abbrev oReadWrite : UInt32 := 0x2
abbrev oCreate    : UInt32 := 0x40
abbrev oExclusive : UInt32 := 0x80
abbrev oTruncate  : UInt32 := 0x200
abbrev oAppend    : UInt32 := 0x400
abbrev oNonBlock  : UInt32 := 0x800
abbrev oDirectory : UInt32 := 0x10000
abbrev oNoFollow  : UInt32 := 0x20000
abbrev oCloseExec : UInt32 := 0x80000
abbrev oPath      : UInt32 := 0x200000
abbrev oTemporary : UInt32 := 0x400000

abbrev atNoFollow    : UInt32 := 0x100
abbrev atRemoveDir   : UInt32 := 0x200
abbrev atFollow      : UInt32 := 0x400
abbrev atNoAutomount : UInt32 := 0x800
abbrev atEmptyPath   : UInt32 := 0x1000
abbrev atStatSync    : UInt32 := 0x6000

abbrev renameNoReplace : UInt32 := 1
abbrev renameExchange  : UInt32 := 2

end Syscall

end FileBroker
