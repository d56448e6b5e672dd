import FileBroker.Text.Decimal

namespace FileBroker

inductive Json
  | boolean (b : Bool)
  | integer (n : Int)
  | text (s : String)
  | object (fields : List (String × Json))

namespace Json

def hexDigits (width n : Nat) : List Char :=
  let digits := Nat.toDigits 16 n
  List.replicate (width - digits.length) '0' ++ digits

def escape (c : Char) : List Char :=
  match c with
  | '"'    => ['\\', '"']
  | '\\'   => ['\\', '\\']
  | '\x08' => ['\\', 'b']
  | '\t'   => ['\\', 't']
  | '\n'   => ['\\', 'n']
  | '\x0c' => ['\\', 'f']
  | '\r'   => ['\\', 'r']
  | _      => if c.toNat < 32 then ['\\', 'u'] ++ hexDigits 4 c.toNat else [c]

def quote (s : String) : String :=
  String.ofList ('"' :: s.toList.flatMap escape ++ ['"'])

def boolText (b : Bool) : String :=
  if b then "true" else "false"

def compact : Json → String
  | boolean b     => boolText b
  | integer n     => Decimal.text n
  | text s        => quote s
  | object fields => "\x7b" ++ ",".intercalate (entries fields) ++ "\x7d"
where
  entries : List (String × Json) → List String
    | []                     => []
    | (key, value) :: fields => (quote key ++ ":" ++ value.compact) :: entries fields

-- `margin` is how far the lines inside are set in.
def pretty (margin : String) : Json → String
  | boolean b     => boolText b
  | integer n     => Decimal.text n
  | text s        => quote s
  | object []     => "\x7b\x7d"
  | object fields =>
    "\x7b\n" ++ ",\n".intercalate (entries (margin ++ "  ") fields) ++ "\n" ++ margin ++ "\x7d"
where
  entries (margin : String) : List (String × Json) → List String
    | []                     => []
    | (key, value) :: fields =>
      (margin ++ quote key ++ ": " ++ value.pretty margin) :: entries margin fields

end Json

end FileBroker
