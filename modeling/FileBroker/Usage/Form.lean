namespace FileBroker

inductive UsageError
  | helpWanted
  | versionWanted
  | nothingGiven
  | missingCommand
  | missingWord
  | unknownOption
  | unknownCommand
  -- A value that is not there, is empty, or is none of those that there are.
  | badValue
  -- A value that the option itself turns down.
  | refusedValue
  | repeated
  | unwantedValue
  deriving DecidableEq, Repr

-- Takes in a word.
abbrev Take (σ : Type) := String → σ → Except UsageError σ

inductive Switch (σ : Type)
  | flag (set : σ → σ)
  | value (take : Take σ)
  -- The rest of the command line does not matter.
  | leave (e : UsageError)

-- What a command line may say about an `α`: its options, and its words.
structure Form (α : Type) where
  State   : Type
  start   : State
  options : List (String × Switch State)
  -- The words that are not options, each of which has to be there.
  words   : List (Take State)
  finish  : State → Except UsageError α

def Take.within (get : τ → σ) (set : τ → σ → τ) (take : Take σ) : Take τ :=
  fun w t => (take w (get t)).map (set t)

def Switch.within (get : τ → σ) (set : τ → σ → τ) : Switch σ → Switch τ
  | flag f     => flag fun t => set t (f (get t))
  | value take => value (take.within get set)
  | leave e    => leave e

namespace Form

def constant (a : α) : Form α where
  State   := Unit
  start   := ()
  options := []
  words   := []
  finish  := fun _ => .ok a

def map (f : α → β) (x : Form α) : Form β :=
  { x with finish := fun s => (x.finish s).map f }

def both (f : Form (α → β)) (x : Form α) : Form β where
  State   := f.State × x.State
  start   := (f.start, x.start)
  options :=
    f.options.map (fun (name, s) => (name, s.within Prod.fst fun t s => (s, t.2))) ++
    x.options.map (fun (name, s) => (name, s.within Prod.snd fun t s => (t.1, s)))
  words   :=
    f.words.map (·.within Prod.fst fun t s => (s, t.2)) ++
    x.words.map (·.within Prod.snd fun t s => (t.1, s))
  finish  := fun (s, t) => do return (← f.finish s) (← x.finish t)

instance : Applicative Form where
  pure    := constant
  map     := map
  seq f x := both f (x ())

def flag (name : String) : Form Bool where
  State   := Bool
  start   := false
  options := [(name, .flag fun _ => true)]
  words   := []
  finish  := .ok

def value? (name : String) (read : String → Except UsageError α) : Form (Option α) where
  State   := Option α
  start   := none
  options := [(name, .value fun w _ => some <$> read w)]
  words   := []
  finish  := .ok

def value (name : String) (default : α) (read : String → Except UsageError α) : Form α :=
  (value? name read).map (·.getD default)

def word (read : String → Except UsageError α) : Form α where
  State   := Option α
  start   := none
  options := []
  words   := [fun w _ => some <$> read w]
  finish
    | some a => .ok a
    | none   => .error .missingWord

def leaving (name : String) (e : UsageError) : Form Unit where
  State   := Unit
  start   := ()
  options := [(name, .leave e)]
  words   := []
  finish  := .ok

end Form

end FileBroker
