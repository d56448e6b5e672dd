namespace FileBroker.Decimal

def magnitude? (digits : List Char) : Option Nat :=
  if digits.isEmpty || !digits.all Char.isDigit then none else some (Nat.ofDigitChars 10 digits 0)

def parse? : List Char → Option Int
  | '-' :: digits => (magnitude? digits).map fun n => -(n : Int)
  | '+' :: digits => (magnitude? digits).map Int.ofNat
  | digits        => (magnitude? digits).map Int.ofNat

-- Natural numbers admit a plus sign but no minus sign, not even before zero.
def parseNat? : List Char → Option Nat
  | '+' :: digits => magnitude? digits
  | digits        => magnitude? digits

def render : Int → List Char
  | .ofNat n   => Nat.toDigits 10 n
  | .negSucc n => '-' :: Nat.toDigits 10 (n + 1)

def text (n : Int) : String :=
  String.ofList (render n)

def fits (bits : Nat) (n : Int) : Bool :=
  -(Nat.pow 2 (bits - 1) : Int) ≤ n && n < Nat.pow 2 (bits - 1)

theorem fits_32_iff : fits 32 n ↔ -2147483648 ≤ n ∧ n < 2147483648 := by
  simp [fits]

def int32? (digits : List Char) : Option Int32 :=
  match parse? digits with
  | some n => if fits 32 n then some (Int32.ofInt n) else none
  | none   => none

def int64? (digits : List Char) : Option Int64 :=
  match parse? digits with
  | some n => if fits 64 n then some (Int64.ofInt n) else none
  | none   => none

def nat? (bits : Nat) (digits : List Char) : Option Nat :=
  match parseNat? digits with
  | some n => if n < Nat.pow 2 bits then some n else none
  | none   => none

end FileBroker.Decimal
