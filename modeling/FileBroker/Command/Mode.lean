import FileBroker.Text.Quoted

namespace FileBroker

namespace OctalMode

def isOctalDigit (c : Char) : Bool :=
  '0' ≤ c && c ≤ '7'

def magnitude? (digits : List Char) : Option Nat :=
  if digits.isEmpty || !digits.all isOctalDigit then none else some (Nat.ofDigitChars 8 digits 0)

def value? : List Char → Option Nat
  | '+' :: digits => magnitude? digits
  | digits        => magnitude? digits

def largest : Nat := 0o7777

def read (text : String) : Except String UInt32 :=
  let digits := if "0o".toList.isPrefixOf text.toList then text.toList.drop 2 else text.toList
  match (value? digits).filter (· ≤ largest) with
  | some n => .ok (UInt32.ofNat n)
  | none   => .error s!"invalid octal mode: {text}"

end OctalMode

namespace AccessMode

def existence : Int32 := 0

def bit? (c : Char) : Option Int32 :=
  match c with
  | 'r' => some 4
  | 'w' => some 2
  | 'x' => some 1
  | _   => none

def addLetter (mode : Int32) (c : Char) : Except String Int32 :=
  match bit? c with
  | some bit => .ok (mode ||| bit)
  | none     => .error s!"unknown access mode {Quoted.char c}; use r, w, x or f"

def read (text : String) : Except String Int32 :=
  if text = "f" then .ok existence
  else if text.isEmpty then .error "empty access mode"
  else text.toList.foldlM addLetter 0

end AccessMode

end FileBroker
