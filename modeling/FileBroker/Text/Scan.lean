namespace FileBroker

abbrev Scan := StateT (List Char) Option

namespace Scan

def peek? : Scan (Option Char) :=
  return (← get).head?

def next : Scan Char := do
  match ← get with
  | []        => failure
  | c :: rest =>
    set rest
    return c

-- Takes `c` if it comes next, and says whether it did.
def accept (c : Char) : Scan Bool := do
  match ← get with
  | d :: rest =>
    if c = d then
      set rest
      return true
    return false
  | [] => return false

def acceptText (text : String) : Scan Bool := do
  let rest ← get
  if text.toList.isPrefixOf rest then
    set (rest.drop text.length)
    return true
  return false

def expect (c : Char) : Scan Unit := do
  guard (← accept c)

def span (p : Char → Bool) : Scan (List Char) := do
  let rest ← get
  set (rest.dropWhile p)
  return rest.takeWhile p

def span1 (p : Char → Bool) : Scan (List Char) := do
  let taken ← span p
  guard !taken.isEmpty
  return taken

-- Exactly `n` characters, all of which satisfy `p`.
def take (n : Nat) (p : Char → Bool) : Scan (List Char) := do
  let rest ← get
  let taken := rest.take n
  guard (taken.length = n && taken.all p)
  set (rest.drop n)
  return taken

def atEnd : Scan Bool :=
  return (← get).isEmpty

-- The value of a whole text.
def all? (s : Scan α) (text : List Char) : Option α :=
  match s text with
  | some (a, []) => some a
  | _            => none

def isHexDigit (c : Char) : Bool :=
  c.isDigit || ('a' ≤ c && c ≤ 'f') || ('A' ≤ c && c ≤ 'F')

def digitValue (c : Char) : Nat :=
  if c.isDigit then c.toNat - 48 else if 'a' ≤ c then c.toNat - 87 else c.toNat - 55

def number (base : Nat) (digits : List Char) : Nat :=
  digits.foldl (fun n c => n * base + digitValue c) 0

end Scan

end FileBroker
