import FileBroker.Usage.Form

namespace FileBroker

structure Usage (α : Type) where
  form     : Form α
  -- Options of one letter, by the names that they are short for.
  letters  : List (Char × String) := []
  -- Words that hand over to another usage.
  commands : List String := []

structure Pending (σ : Type) where
  -- The option that was named; `none` for a word of its own.
  option : Option String
  take   : Take σ
  word   : Option String

-- The value of an option is only looked at when the next option or word has been recognised. So of two
-- mistakes the one in the shape of the command line is found first.
structure Intake (σ : Type) where
  value   : σ
  -- The options that have been taken in.
  given   : List String := []
  pending : Option (Pending σ) := none
  -- How many words have been recognised.
  placed  : Nat := 0

namespace Intake

variable {σ : Type}

def isAwaiting (r : Intake σ) : Bool :=
  r.pending.any (·.word.isNone)

def settle (r : Intake σ) (name : String) (f : σ → Except UsageError σ) :
    Except UsageError (Intake σ) := do
  if r.given.contains name then throw .repeated
  return { r with value := ← f r.value, given := name :: r.given }

-- Takes in what was recognised last.
def resolve (r : Intake σ) : Except UsageError (Intake σ) :=
  match r.pending with
  | none => .ok r
  | some { word := none, .. } => .error .badValue
  | some { option := some name, take, word := some w } =>
    { r with pending := none }.settle name (take w)
  | some { option := none, take, word := some w } => do
    return { r with pending := none, value := ← take w r.value }

def supply (r : Intake σ) (w : String) : Intake σ :=
  { r with pending := r.pending.map ({ · with word := some w }) }

end Intake

namespace Usage

variable {α : Type}

abbrev Progress (u : Usage α) := Intake u.form.State

def start (u : Usage α) : u.Progress :=
  { value := u.form.start }

def useOption (u : Usage α) (name : String) (attached : Option String) (r : u.Progress) :
    Except UsageError u.Progress := do
  match u.form.options.lookup name, attached with
  | none,              _      => throw .unknownOption
  | some (.leave e),   none   => let _ ← r.resolve; throw e
  | some (.flag f),    none   => (← r.resolve).settle name fun s => .ok (f s)
  | some (.leave _),   some _ => throw .unwantedValue
  | some (.flag _),    some _ => throw .unwantedValue
  | some (.value take), some w => (← r.resolve).settle name (take w)
  | some (.value take), none   =>
    return { ← r.resolve with pending := some { option := some name, take, word := none } }

def useWord (u : Usage α) (w : String) (r : u.Progress) : Except UsageError u.Progress := do
  match u.form.words[r.placed]? with
  | some take =>
    return { ← r.resolve with
      pending := some { option := none, take, word := some w }, placed := r.placed + 1 }
  | none => throw (if u.commands.isEmpty then .unknownOption else .unknownCommand)

-- A word after which only words can follow. A command is out of place there.
def useLateWord (u : Usage α) (r : u.Progress) (w : String) : Except UsageError u.Progress :=
  if u.commands.contains w then .error .unknownOption else u.useWord w r

def use (u : Usage α) (w : String) (r : u.Progress) : Except UsageError u.Progress :=
  match w.toList with
  | '-' :: '-' :: rest =>
    let name := rest.takeWhile (· ≠ '=')
    let attached := if rest.contains '=' then some (rest.drop (name.length + 1)) else none
    u.useOption (String.ofList name) (attached.map String.ofList) r
  | '-' :: letter :: _ =>
    -- Every letter stands for an option that leaves, so the first one decides.
    match u.letters.lookup letter with
    | some name => u.useOption name none r
    | none      => .error .unknownOption
  | _ => if r.isAwaiting then .ok (r.supply w) else u.useWord w r

-- Reads up to a command, and gives the command with the words that follow it.
def readOn (u : Usage α) : List String → u.Progress →
    Except UsageError (u.Progress × Option (String × List String))
  | [],        r => .ok (r, none)
  | w :: rest, r =>
    if u.commands.contains w && !r.isAwaiting then .ok (r, some (w, rest))
    else if w = "--" then do return (← rest.foldlM u.useLateWord r, none)
    else do u.readOn rest (← u.use w r)

-- A whole command line without commands.
def read (u : Usage α) (words : List String) : Except UsageError α := do
  let (r, _) ← u.readOn words u.start
  u.form.finish (← r.resolve).value

end Usage

end FileBroker
