import FileBroker.Channel.Basic
import FileBroker.Request

namespace FileBroker

-- A request as its receiver sees it: bare numbers, paths and descriptors.
structure Record (δ : Type) where
  operation : Operation
  args      : List Int32
  paths     : List Bytes
  -- In slot order. There may be fewer than announced, when the sender attached too few.
  fds       : List δ
  deriving DecidableEq, Repr

-- A computation on a channel that may fail.
abbrev Reading (δ ε : Type) := ExceptT ε (StateM (Channel δ))

namespace Reading

variable {δ : Type}

def io (step : Channel δ → Except IoError α × Channel δ) : Reading δ FrameError α :=
  ExceptT.mk fun c =>
    match step c with
    | (.ok a, d)    => (.ok a, d)
    | (.error e, d) => (.error (.io e), d)

def malformed (cause : Malformed) : Reading δ FrameError α :=
  throw (.malformed cause)

end Reading

namespace Record

variable {δ : Type}

def arg (r : Record δ) (i : Nat) : Int32 := r.args.getD i 0
def path (r : Record δ) (i : Nat) : Bytes := r.paths.getD i []
def fd? (r : Record δ) (i : Nat) : Option δ := r.fds[i]?

def parseField (token : Bytes) : Except FrameError Int32 :=
  match (Utf8.decode? token).bind fun s => Decimal.int64? s.toList with
  | none => .error (.malformed (.notDecimal "field" token))
  | some n =>
    if Decimal.fits 32 n.toInt then .ok (Int32.ofInt n.toInt)
    else .error (.overflow "field" n.toInt)

open Reading Channel

-- Reads one number for each terminator, in order.
def readNumbers (o : Operation) : List TokenEnd → Reading δ FrameError (List Int32)
  | []             => return []
  | wanted :: rest => do
    let (token, last) ← io readToken
    if last ≠ wanted then
      malformed (.layout o)
    let n ← (parseField token : Except FrameError Int32)
    return n :: (← readNumbers o rest)

-- Numbers are separated by spaces. The newline after the last one is there only if no path follows.
def terminators (o : Operation) : List TokenEnd :=
  List.replicate (o.args + o.paths) .space ++ [if o.paths = 0 then .newline else .space]

def readPaths : List Int32 → Reading δ FrameError (List Bytes)
  | []             => return []
  | length :: rest => do
    if length < 0 then
      malformed (.negativeLength length)
    let path ← io (readExact · length.toInt.toNat)
    return path :: (← readPaths rest)

def readKeyword : Reading δ FrameError (Option Operation) := do
  if ← io atEnd then
    return none
  match Utf8.decode? (← io (readUntil · newline)) with
  | none => malformed .keywordNotText
  | some keyword =>
    match Operation.ofKeyword? keyword with
    | none   => malformed (.unknownOperation keyword)
    | some o => return some o

-- The rest of a record, after its keyword.
def readBody (o : Operation) : Reading δ FrameError (Record δ) := do
  let numbers ← readNumbers o (terminators o)
  let count := numbers.headD 0
  if count < 0 ∨ o.slots < count.toInt.toNat then
    malformed (.announces o count)
  let count := count.toInt.toNat
  let paths ← readPaths (numbers.drop (1 + o.args))
  if 0 < o.paths then
    let stray ← io (readUntil · newline)
    if !stray.isEmpty then
      malformed (.stray stray.length o)
  let _ ← io (readExact · count)
  let fds ← (modifyGet (takeFds · count) : Reading δ FrameError (List δ))
  return { operation := o, args := (numbers.drop 1).take o.args, paths, fds }

def read : Reading δ FrameError (Option (Record δ)) := do
  match ← readKeyword with
  | none   => return none
  | some o => return some (← readBody o)

end Record

namespace Channel

variable {δ : Type}

-- Sends the record, then each descriptor with a marker byte.
def transmit (c : Channel δ) (e : Encoded δ) : Except IoError Unit × Channel δ :=
  match c.write e.bytes with
  | (.error e, d) => (.error e, d)
  | (.ok (), d) =>
    match d.sendFds (e.fds.map some) with
    | (.ok _, d)    => (.ok (), d)
    | (.error e, d) => (.error e, d)

def readRecord (c : Channel δ) : Except FrameError (Option (Record δ)) × Channel δ :=
  Record.read c

end Channel

end FileBroker
