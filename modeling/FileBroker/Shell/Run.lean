import FileBroker.Errno
import FileBroker.Shell.Words
import FileBroker.Text.Decimal
import FileBroker.Text.Scan
import FileBroker.Text.Utf8

namespace FileBroker.Shell

inductive Program
  -- Takes commands after `-c`.
  | shell
  | builtin (name : String)
  | script (text : String)
  -- The helper of a proxy. It stays once it has started.
  | helper
  deriving DecidableEq, Repr

structure Run where
  clock   : Nat := 0
  -- What was written to the standard output, and when.
  output  : List (Nat × Bytes) := []
  status  : Nat := 0
  -- Nothing further will be run.
  ended   : Bool := false
  -- When the helper was started.
  helper? : Option Nat := none
  deriving DecidableEq, Repr

namespace Run

def print (r : Run) (text : Bytes) : Run :=
  { r with output := r.output ++ [(r.clock, text)] }

def finish (r : Run) (status : Nat) : Run :=
  { r with status }

def leave (r : Run) (status : Nat) : Run :=
  { r with status, ended := true }

end Run

def isOctalDigit (c : Char) : Bool :=
  '0' ≤ c && c ≤ '7'

-- A character by its octal code.
def octal (digits : List Char) : Bytes :=
  [UInt8.ofNat (Nat.ofDigitChars 8 digits 0)]

-- Escapes in printed text. A number has three digits at most.
def unescape (bound : Nat) (text : List Char) : Bytes :=
  match bound, text with
  | 0, _ | _, [] => []
  | bound + 1, '\\' :: c :: rest =>
    let digits := (c :: rest).take 3 |>.takeWhile isOctalDigit
    if digits.isEmpty then
      let b : Bytes := match c with
        | 'n'  => [10]
        | 't'  => [9]
        | 'r'  => [13]
        | 'a'  => [7]
        | '\\' => [92]
        | _    => 92 :: Utf8.encode (String.singleton c)
      b ++ unescape bound rest
    else octal digits ++ unescape bound ((c :: rest).drop digits.length)
  | bound + 1, c :: rest => Utf8.encode (String.singleton c) ++ unescape bound rest

def unescaped (text : List Char) : Bytes :=
  unescape text.length text

-- A format with its directives filled in. Numbers that are none print as zero.
def fill (bound : Nat) (format : List Char) (args : List String) : Bytes :=
  match bound, format with
  | 0, _ | _, [] => []
  | bound + 1, '%' :: '%' :: rest => 37 :: fill bound rest args
  | bound + 1, '%' :: 's' :: rest =>
    Utf8.encode (args.headD "") ++ fill bound rest args.tail
  | bound + 1, '%' :: 'd' :: rest =>
    let n := (Decimal.parse? (args.headD "").toList).getD 0
    Utf8.encode (Decimal.text n) ++ fill bound rest args.tail
  | bound + 1, _ =>
    let plain := (format.drop 1).takeWhile (· ≠ '%')
    unescaped (format.take 1 ++ plain) ++ fill bound (format.drop (plain.length + 1)) args

-- Milliseconds of a number of seconds that may have a fraction.
def milliseconds (text : String) : Nat :=
  let whole := text.toList.takeWhile Char.isDigit
  let fraction := ((text.toList.drop (whole.length + 1)).takeWhile Char.isDigit).take 3
  let padded := fraction ++ List.replicate (3 - fraction.length) '0'
  Scan.number 10 whole * 1000 + Scan.number 10 padded

def builtins : List String := ["true", "false", ":", "echo", "printf", "sleep", "cat", "read"]

-- Longer than anyone waits for what is run.
def forever : Nat := 1000000000

def runBuiltin (name : String) (args : List String) (r : Run) : Run :=
  match name, args with
  | "false",  _              => r.finish 1
  | "echo",   "-n" :: args   => (r.print (unescaped (" ".intercalate args).toList)).finish 0
  | "echo",   _              =>
    (r.print (unescaped (" ".intercalate args).toList ++ [10])).finish 0
  | "printf", format :: args =>
    (r.print (fill format.length format.toList args)).finish 0
  | "printf", []             => r.finish 2
  | "sleep",  time :: _      => { r with clock := r.clock + milliseconds time, status := 0 }
  -- The standard input stays open, and nothing comes from there.
  | "cat",    []             => { r with clock := r.clock + forever }
  | "cat",    _              => r.finish 1
  | "read",   _              => { r with clock := r.clock + forever }
  | _,        _              => r.finish 0

-- What a shell knows while it runs commands.
structure Context where
  pid  : Nat
  -- The words that the shell itself was started with.
  args : List String
  -- A program by its name, or why it cannot be run.
  find : String → Except Errno.Code Program

-- What stands for `$` and the character after it.
def Context.value? (k : Context) (status : Nat) (c : Char) : Option String :=
  if c = '$' then some (Decimal.text k.pid)
  else if c = '?' then some (Decimal.text status)
  else if c.isDigit then some (k.args.getD (c.toNat - 48) "")
  else none

def Context.expand (k : Context) (status : Nat) : Word → List Char
  | ('$', q) :: (c, q') :: rest =>
    match if q = .bare ∨ q = .double then k.value? status c else none with
    | some text => text.toList ++ k.expand status rest
    | none      => '$' :: k.expand status ((c, q') :: rest)
  | (c, _) :: rest => c :: k.expand status rest
  | []             => []

-- The commands of a line, each as its words.
def commands (tokens : List Token) : List (List Word) :=
  (tokens.splitOnP (· = .stop)).map fun command =>
    command.filterMap fun
      | .word w => some w
      | .stop   => none

def isComment : Word → Bool
  | ('#', .bare) :: _ => true
  | _                 => false

-- The status of a command that could not be run. One that was not found has a status of its own.
def unfitStatus (e : Errno.Code) : Nat :=
  if [Errno.noent, Errno.notdir, Errno.loop, Errno.nametoolong].contains e then 127 else 126

-- One command. `go` runs a program that was found.
def runCommand (go : Program → List String → Run → Run) (k : Context) (r : Run)
    (words : List Word) : Run :=
  if r.ended || words.head?.any isComment then r else
  match words.map fun w => String.ofList (k.expand r.status w) with
  | []                     => r
  | ["exit"]               => r.leave r.status
  | "exit" :: n :: _       => r.leave ((Decimal.parseNat? n.toList).getD 2 % 256)
  | "exec" :: name :: args =>
    let after := start name args
    after.leave after.status
  | name :: args           => start name args
where
  start (name : String) (args : List String) : Run :=
    match k.find name with
    | .error e => r.finish (unfitStatus e)
    | .ok p    => go p args r

-- The commands of a shell of its own, which ends with them unless a helper has taken its place.
def runLines (go : Context → Program → List String → Run → Run) (k : Context) (text : String)
    (r : Run) : Run :=
  match tokens text with
  | none        => r.finish 2
  | some tokens =>
    let after := (commands tokens).foldl (runCommand (go k) k) r
    { after with ended := after.helper?.isSome }

-- `depth` bounds how deep scripts may start scripts.
def runProgram : (depth : Nat) → Context → Program → List String → Run → Run
  | 0,         _, _,             _,                 r => r.leave 2
  | _ + 1,     _, .builtin name, args,              r => runBuiltin name args r
  | _ + 1,     _, .helper,       [_],               r =>
    { r with helper? := some r.clock, ended := true }
  | _ + 1,     _, .helper,       _,                 r => r.finish 2
  | depth + 1, k, .script text,  args,              r =>
    runLines (runProgram depth) { k with args := "" :: args } text r
  | depth + 1, k, .shell,        "-c" :: line :: _, r =>
    runLines (runProgram depth) { k with args := ["sh"] } line r
  | _ + 1,     _, .shell,        _,                 r => r.finish 0

-- How deep scripts start scripts at most.
def maxDepth : Nat := 64

def run (k : Context) (p : Program) (args : List String) : Run :=
  runProgram maxDepth k p args {}

end FileBroker.Shell
