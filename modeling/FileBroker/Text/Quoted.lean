import FileBroker.Text.Invisible

namespace FileBroker.Quoted

-- The two kinds of quote differ only in which of `'` and `"` has to be escaped.
def escape (quote c : Char) : List Char :=
  match c with
  | '\x00' => ['\\', '0']
  | '\t'   => ['\\', 't']
  | '\n'   => ['\\', 'n']
  | '\r'   => ['\\', 'r']
  | '\\'   => ['\\', '\\']
  | _ =>
    if c = quote then ['\\', c]
    else if isInvisible c then ['\\', 'u', '\x7b'] ++ Nat.toDigits 16 c.toNat ++ ['\x7d']
    else [c]

def text (s : String) : String :=
  String.ofList <| '"' :: s.toList.flatMap (escape '"') ++ ['"']

-- Between quotes as it is.
def plain (s : String) : String :=
  String.ofList ('"' :: s.toList ++ ['"'])

def char (c : Char) : String :=
  String.ofList <| '\'' :: escape '\'' c ++ ['\'']

end FileBroker.Quoted
