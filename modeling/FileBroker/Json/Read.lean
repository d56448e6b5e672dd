import FileBroker.Json.Basic
import FileBroker.Text.Scan

namespace FileBroker

inductive JsonValue
  | null
  | boolean (b : Bool)
  | integer (n : Int)
  -- Any other number, and minus zero.
  | number
  -- `none` is a text with half a surrogate pair in it.
  | text (s : Option String)
  | array (items : List JsonValue)
  | object (fields : List (String × JsonValue))

namespace JsonValue

open Scan

def blank : Scan Unit := do
  let _ ← span fun c => c = ' ' || c = '\t' || c = '\n' || c = '\r'

def unit : Scan Nat := do
  return Scan.number 16 (← take 4 isHexDigit)

def isHighHalf (n : Nat) : Bool := 0xD800 ≤ n && n ≤ 0xDBFF
def isLowHalf (n : Nat) : Bool := 0xDC00 ≤ n && n ≤ 0xDFFF

-- A character given by number, in two halves if it is a large one.
def byNumber : Scan (Option Char) := do
  let n ← unit
  if isLowHalf n then return none
  if !isHighHalf n then return some (Char.ofNat n)
  if !(← acceptText "\\u") then return none
  let low ← unit
  if !isLowHalf low then return none
  return some (Char.ofNat (0x10000 + (n - 0xD800) * 0x400 + (low - 0xDC00)))

def escaped : Scan (Option Char) := do
  match ← next with
  | '"'  => return some '"'
  | '\\' => return some '\\'
  | '/'  => return some '/'
  | 'b'  => return some '\x08'
  | 'f'  => return some '\x0c'
  | 'n'  => return some '\n'
  | 'r'  => return some '\r'
  | 't'  => return some '\t'
  | 'u'  => byNumber
  | _    => failure

-- The rest of a text after its first quote.
def textRest : (bound : Nat) → Scan (Option (List Char))
  | 0         => failure
  | bound + 1 => do
    match ← next with
    | '"'  => return some []
    | '\\' => do
      let c ← escaped
      let rest ← textRest bound
      return do return (← c) :: (← rest)
    | c =>
      guard (32 ≤ c.toNat)
      return (← textRest bound).map (c :: ·)

def smallest : Int := Int64.minValue.toInt
def largest : Int := UInt64.size - 1

def digits : Scan (List Char) := do
  let taken ← span1 Char.isDigit
  guard (taken.length = 1 || taken.head? ≠ some '0')
  return taken

def aNumber : Scan JsonValue := do
  let negative ← accept '-'
  let whole ← digits
  let fraction ← if ← accept '.' then span1 Char.isDigit else pure []
  let power ← if (← peek?) = some 'e' || (← peek?) = some 'E' then do
      let _ ← next
      if !(← accept '+') then let _ ← accept '-'
      span1 Char.isDigit
    else pure []
  let n : Int := Scan.number 10 whole
  let n := if negative then -n else n
  if !fraction.isEmpty || !power.isEmpty || (negative && n = 0) || n < smallest || largest < n then
    return .number
  return .integer n

-- A value. `bound` is more than the number of values and characters that are left.
def value : (bound : Nat) → Scan JsonValue
  | 0         => failure
  | bound + 1 => do
    blank
    match ← peek? with
    | some 'n'  => guard (← acceptText "null"); return .null
    | some 't'  => guard (← acceptText "true"); return .boolean true
    | some 'f'  => guard (← acceptText "false"); return .boolean false
    | some '"'  => do
      expect '"'
      return .text ((← textRest bound).map String.ofList)
    | some '[' => do
      expect '['
      blank
      if ← accept ']' then return .array []
      return .array (← items bound)
    | some '\x7b' => do
      expect '\x7b'
      blank
      if ← accept '\x7d' then return .object []
      return .object (← fields bound)
    | _ => aNumber
where
  items : Nat → Scan (List JsonValue)
    | 0         => failure
    | bound + 1 => do
      let v ← value bound
      blank
      if ← accept ',' then return v :: (← items bound)
      expect ']'
      return [v]
  fields : Nat → Scan (List (String × JsonValue))
    | 0         => failure
    | bound + 1 => do
      blank
      expect '"'
      let some key ← textRest bound | failure
      blank
      expect ':'
      let v ← value bound
      blank
      if ← accept ',' then return (String.ofList key, v) :: (← fields bound)
      expect '\x7d'
      return [(String.ofList key, v)]

def read? (text : String) : Option JsonValue :=
  let chars := text.toList
  let whole : Scan JsonValue := do
    let v ← value (2 * chars.length + 2)
    blank
    return v
  whole.all? chars

-- The values of known fields in their order: from an object that has each at most once, or from an
-- array of exactly as many.
def known? (keys : List String) : JsonValue → Option (List (Option JsonValue))
  | object fields =>
    if keys.all fun key => (fields.filter (·.1 = key)).length ≤ 1 then
      some (keys.map fun key => fields.lookup key)
    else none
  | array items => if items.length = keys.length then some (items.map some) else none
  | _           => none

def toText? : JsonValue → Option String
  | text s => s
  | _      => none

def toInt? : JsonValue → Option Int
  | integer n => some n
  | _         => none

-- One of several names is a text, or an object with that one key and nothing under it.
def toName? : JsonValue → Option String
  | text s               => s
  | object [(key, null)] => some key
  | _                    => none

end JsonValue

end FileBroker
