import FileBroker.Text.Quoted
import FileBroker.Text.Utf8
import FileBroker.Toml.Read

namespace FileBroker

inductive Setting
  | text (s : String)
  | integer (n : Int64)
  | float (x : Binary64)
  | boolean (b : Bool)
  | list
  | table
  deriving DecidableEq, Repr

-- A setting that is not what was wanted.
structure Mismatch where
  found  : String
  wanted : String
  deriving DecidableEq, Repr

namespace Setting

def ofToml : Toml.Value → Setting
  | .text s    => text s
  | .integer n => integer n
  | .float x   => float x
  | .boolean b => boolean b
  | .moment s  => text s
  | .array     => list
  | .table     => table

-- A variable holds text, but text that looks like another scalar is one.
def ofVariable (s : String) : Setting :=
  if s.toLower = "true" then boolean true
  else if s.toLower = "false" then boolean false
  else
    match Decimal.int64? s.toList, Binary64.parse? s.toList with
    | some n, _      => integer n
    | none,   some x => float x
    | none,   none   => text s

def boolText (b : Bool) : String :=
  if b then "true" else "false"

def describe : Setting → String
  | text s    => s!"string {Quoted.text s}"
  | integer n => s!"integer \x60{Decimal.text n.toInt}\x60"
  | float x   => s!"floating point \x60{String.ofList x.render}\x60"
  | boolean b => s!"boolean \x60{boolText b}\x60"
  | list      => "sequence"
  | table     => "map"

def mismatch (s : Setting) (wanted : String) : Except Mismatch α :=
  .error { found := s.describe, wanted }

def toText : Setting → Except Mismatch String
  | text s    => .ok s
  | integer n => .ok (Decimal.text n.toInt)
  | float x   => .ok (String.ofList x.render)
  | boolean b => .ok (boolText b)
  | list      => list.mismatch "a string"
  | table     => table.mismatch "a string"

def truth? (word : String) : Option Bool :=
  if word = "true" ∨ word = "on" ∨ word = "yes" then some true
  else if word = "false" ∨ word = "off" ∨ word = "no" then some false
  else none

def toNat : Setting → Except Mismatch Nat
  | text s =>
    match truth? s.toLower, Decimal.nat? 64 s.toList with
    | some b, _      => .ok b.toNat
    | none,   some n => .ok n
    | none,   none   => (text s).mismatch "an integer"
  | integer n =>
    if 0 ≤ n then .ok n.toInt.toNat
    else (integer n).mismatch "an unsigned 64 bit or less integer"
  | float x   => .ok (x.roundToNat (UInt64.size - 1))
  | boolean b => .ok b.toNat
  | list      => list.mismatch "an integer"
  | table     => table.mismatch "an integer"

def toUInt64 (s : Setting) : Except Mismatch UInt64 :=
  s.toNat.map UInt64.ofNat

def toUInt32 (s : Setting) : Except Mismatch UInt32 := do
  let n ← s.toNat
  if n < UInt32.size then
    return UInt32.ofNat n
  throw { found := s!"integer \x60{Decimal.text n}\x60", wanted := "an unsigned 32 bit integer" }

def toBool : Setting → Except Mismatch Bool
  | text s =>
    let word := s.toLower
    if word = "1" then .ok true
    else if word = "0" then .ok false
    else
      match truth? word with
      | some b => .ok b
      | none   => (text word).mismatch "a boolean"
  | integer n => .ok (n != 0)
  | float x   => .ok !x.isZero
  | boolean b => .ok b
  | list      => list.mismatch "a boolean"
  | table     => table.mismatch "a boolean"

end Setting

end FileBroker
