import FileBroker.Text.Scan
import FileBroker.Text.Decimal
import FileBroker.Toml.Basic
import FileBroker.Toml.Moment

namespace FileBroker.Toml

open Scan

def isBlank (c : Char) : Bool :=
  c = ' ' || c = '\t'

-- Control characters stand in no comment and no string.
def isPlain (c : Char) : Bool :=
  c = '\t' || (' ' ≤ c && c ≠ '\x7f')

def blanks : Scan Unit := do
  let _ ← span isBlank

def newline : Scan Bool := do
  if ← accept '\n' then return true
  acceptText "\r\n"

def comment : Scan Unit := do
  if ← accept '#' then
    let _ ← span isPlain

-- Blanks, comments and ends of lines. The bound is on the number of lines.
def gap : (bound : Nat) → Scan Unit
  | 0         => blanks
  | bound + 1 => do
    blanks
    comment
    if ← newline then gap bound

def lineEnd : Scan Unit := do
  blanks
  comment
  if !(← atEnd) then guard (← newline)

def codePoint (digits : Nat) : Scan Char := do
  let n := number 16 (← take digits isHexDigit)
  guard (n < 0xD800 ∨ (0xDFFF < n ∧ n < 0x110000))
  return Char.ofNat n

def escaped : Scan Char := do
  match ← next with
  | 'b'  => return '\x08'
  | 't'  => return '\t'
  | 'n'  => return '\n'
  | 'f'  => return '\x0c'
  | 'r'  => return '\r'
  | '"'  => return '"'
  | '\\' => return '\\'
  | 'u'  => codePoint 4
  | 'U'  => codePoint 8
  | _    => failure

-- The rest of a string on one line.
def basicText : (bound : Nat) → Scan (List Char)
  | 0         => failure
  | bound + 1 => do
    match ← next with
    | '"'  => return []
    | '\\' => return (← escaped) :: (← basicText bound)
    | c    =>
      guard (isPlain c)
      return c :: (← basicText bound)

def literalText : Scan (List Char) := do
  let text ← span (· ≠ '\'')
  expect '\''
  guard (text.all isPlain)
  return text

-- A backslash at the end of a line joins it to the next text there is.
def joins : Scan Bool := do
  let rest ← get
  match rest.dropWhile isBlank with
  | '\n' :: _ | '\r' :: '\n' :: _ =>
    set (rest.dropWhile fun c => isBlank c || c = '\n' || c = '\r')
    return true
  | _ => return false

-- The rest of a string over several lines. Of up to five quotes in a row the last three end it.
def longText (quote : Char) (escapes : Bool) : (bound : Nat) → Scan (List Char)
  | 0         => failure
  | bound + 1 => do
    let quotes ← span (· = quote)
    if 3 ≤ quotes.length then
      guard (quotes.length ≤ 5)
      return quotes.drop 3
    if ← newline then
      return quotes ++ '\n' :: (← longText quote escapes bound)
    let c ← next
    if escapes && c = '\\' then
      if ← joins then return quotes ++ (← longText quote escapes bound)
      return quotes ++ (← escaped) :: (← longText quote escapes bound)
    guard (isPlain c)
    return quotes ++ c :: (← longText quote escapes bound)

def size : Scan Nat :=
  return (← get).length + 1

-- A string on one line, whose first quote has been read.
def shortText (quote : Char) : Scan (List Char) := do
  if quote = '"' then basicText (← size) else literalText

def text (quote : Char) : Scan String := do
  if ← acceptText (String.ofList [quote, quote, quote]) then
    let _ ← newline
    return String.ofList (← longText quote (quote = '"') (← size))
  expect quote
  return String.ofList (← shortText quote)

def isBare (c : Char) : Bool :=
  c.isAlphanum || c = '_' || c = '-'

def simpleKey : Scan String := do
  match ← peek? with
  | some '"'  => let _ ← next; return String.ofList (← shortText '"')
  | some '\'' => let _ ← next; return String.ofList (← shortText '\'')
  | _         => return String.ofList (← span1 isBare)

-- The names before the last dot, and the one after it.
def key : (bound : Nat) → Scan (List String × String)
  | 0         => failure
  | bound + 1 => do
    let name ← simpleKey
    let rest ← get
    blanks
    if ← accept '.' then
      blanks
      let (path, last) ← key bound
      return (name :: path, last)
    set rest
    return ([], name)

-- Digits with single underscores between them.
def ungrouped? (isDigit : Char → Bool) (text : List Char) : Option (List Char) :=
  let groups := text.splitOn '_'
  if groups.all fun g => !g.isEmpty && g.all isDigit then some groups.flatten else none

def noLeadingZero (digits : List Char) : Bool :=
  digits.head? ≠ some '0' || digits.length = 1

def splitSign : List Char → List Char × List Char
  | '-' :: rest => (['-'], rest)
  | '+' :: rest => (['+'], rest)
  | rest        => ([], rest)

def integer? (text : List Char) : Option Int64 :=
  match text with
  | '0' :: 'x' :: rest => based 16 isHexDigit rest
  | '0' :: 'o' :: rest => based 8 (fun c => '0' ≤ c && c ≤ '7') rest
  | '0' :: 'b' :: rest => based 2 (fun c => c = '0' || c = '1') rest
  | text => do
    let (sign, rest) := splitSign text
    let digits ← ungrouped? Char.isDigit rest
    guard (noLeadingZero digits)
    Decimal.int64? (sign ++ digits)
where
  based (base : Nat) (isDigit : Char → Bool) (text : List Char) : Option Int64 := do
    let n := number base (← ungrouped? isDigit text)
    guard (Decimal.fits 64 n)
    return Int64.ofNat n

-- Too large a number is refused, but not if it is negative.
def float? (text : List Char) : Option Binary64 := do
  let (sign, rest) := splitSign text
  let isExponent (c : Char) : Bool := c = 'e' || c = 'E'
  if rest = "inf".toList ∨ rest = "nan".toList then return ← Binary64.parse? text
  let mantissa := rest.takeWhile (!isExponent ·)
  let exponent := rest.dropWhile (!isExponent ·)
  let whole := mantissa.takeWhile (· ≠ '.')
  let digits ← ungrouped? Char.isDigit whole
  guard (noLeadingZero digits)
  let fraction ← match mantissa.dropWhile (· ≠ '.') with
    | []            => pure []
    | _ :: fraction => ('.' :: ·) <$> ungrouped? Char.isDigit fraction
  let power ← match exponent with
    | []        => pure []
    | e :: rest =>
      let (sign, digits) := splitSign rest
      (e :: sign ++ ·) <$> ungrouped? Char.isDigit digits
  guard !(fraction.isEmpty && power.isEmpty)
  let x ← Binary64.parse? (sign ++ digits ++ fraction ++ power)
  guard (x ≠ .infinite false)
  return x

def isWord (c : Char) : Bool :=
  c.isAlphanum || c = '+' || c = '-' || c = '_' || c = '.' || c = ':'

-- A date may be followed by a blank and a time.
def word : Scan (List Char) := do
  let first ← span1 isWord
  if first.length = 10 && (Moment.canonical? first).isSome then
    match ← get with
    | ' ' :: c :: rest =>
      if c.isDigit then
        set (c :: rest)
        return first ++ ' ' :: (← span1 isWord)
      return first
    | _ => return first
  return first

def atom (word : List Char) : Option Value :=
  if word = "true".toList then some (.boolean true)
  else if word = "false".toList then some (.boolean false)
  else
    match integer? word, float? word, Moment.canonical? word with
    | some n, _,      _      => some (.integer n)
    | none,   some x, _      => some (.float x)
    | none,   none,   some m => some (.moment (String.ofList m))
    | none,   none,   none   => none

mutual

def value : (bound : Nat) → Scan Value
  | 0         => failure
  | bound + 1 => do
    match ← peek? with
    | some '"'  => .text <$> text '"'
    | some '\'' => .text <$> text '\''
    | some '['  =>
      let _ ← next
      elements bound
      return .array
    | some '\x7b' =>
      let _ ← next
      blanks
      if !(← accept '\x7d') then members bound []
      return .table
    | _ => atom (← word)

-- The rest of an array. A comma may stand after its last element.
def elements : (bound : Nat) → Scan Unit
  | 0         => failure
  | bound + 1 => do
    gap (← size)
    if ← accept ']' then return
    let _ ← value bound
    gap (← size)
    if ← accept ',' then elements bound else expect ']'

-- The rest of a table in braces, on one line and without a comma after its last member.
def members : (bound : Nat) → Entries → Scan Unit
  | 0,         _       => failure
  | bound + 1, entries => do
    blanks
    let (path, name) ← key (← size)
    blanks
    expect '='
    blanks
    let entries ← entries.insert path name (← value bound)
    blanks
    if ← accept ',' then members bound entries else expect '\x7d'

end

-- What has been read of a document, and the path of the table that is being filled.
structure Document where
  entries : Entries := []
  opened  : List String := []

def header (d : Document) : Scan Document := do
  let list ← accept '['
  blanks
  let (path, name) ← key (← size)
  blanks
  expect ']'
  if list then expect ']'
  let entries ← if list then d.entries.openNext path name else d.entries.openTable path name
  return { entries, opened := path ++ [name] }

def keyValue (d : Document) : Scan Document := do
  let (path, name) ← key (← size)
  blanks
  expect '='
  blanks
  let v ← value (← size)
  return { d with entries := ← d.entries.insertBelow d.opened path name v }

def lines : (bound : Nat) → Document → Scan Document
  | 0,         d => return d
  | bound + 1, d => do
    gap (← size)
    if ← atEnd then return d
    let d ← if ← accept '[' then header d else keyValue d
    lineEnd
    lines bound d

def read? (text : String) : Option Entries := do
  -- A byte order mark may come first.
  let text := match text.toList with
    | '\uFEFF' :: rest => rest
    | text             => text
  let (d, rest) ← lines (text.length + 1) {} text
  guard rest.isEmpty
  return d.entries

end FileBroker.Toml
