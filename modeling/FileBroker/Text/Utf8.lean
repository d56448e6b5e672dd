namespace FileBroker

abbrev Bytes := List UInt8

namespace Utf8

def encode (s : String) : Bytes :=
  s.toList.flatMap String.utf8EncodeChar

-- What a leading byte announces: its share of the code point, how many continuation bytes follow,
-- and the range of the first of them. The range is what keeps out overlong forms, surrogates and
-- anything above U+10FFFF.
structure Lead where
  payload : Nat
  tails   : Nat
  least   : Nat
  most    : Nat

def Lead.ofByte? (b : UInt8) : Option Lead :=
  let n := b.toNat
  if n < 0x80 then some ⟨n, 0, 0x80, 0xBF⟩
  else if n < 0xC2 then none
  else if n < 0xE0 then some ⟨n - 0xC0, 1, 0x80, 0xBF⟩
  else if n = 0xE0 then some ⟨0, 2, 0xA0, 0xBF⟩
  else if n = 0xED then some ⟨13, 2, 0x80, 0x9F⟩
  else if n < 0xF0 then some ⟨n - 0xE0, 2, 0x80, 0xBF⟩
  else if n = 0xF0 then some ⟨0, 3, 0x90, 0xBF⟩
  else if n < 0xF4 then some ⟨n - 0xF0, 3, 0x80, 0xBF⟩
  else if n = 0xF4 then some ⟨4, 3, 0x80, 0x8F⟩
  else none

-- Reads the continuation bytes of one character. Nothing is taken of a byte that cannot continue
-- it.
def tails (point : Nat) : (left least most : Nat) → Bytes → Option Char × Bytes
  | 0,        _,     _,    rest      => (some (Char.ofNat point), rest)
  | _ + 1,    _,     _,    []        => (none, [])
  | left + 1, least, most, b :: rest =>
    if least ≤ b.toNat ∧ b.toNat ≤ most then
      tails (point * 64 + b.toNat % 64) left 0x80 0xBF rest
    else
      (none, b :: rest)

-- The character that starts with `b`, or `none` for a malformed stretch, and the bytes after it.
def next (b : UInt8) (rest : Bytes) : Option Char × Bytes :=
  match Lead.ofByte? b with
  | none => (none, rest)
  | some lead => tails lead.payload lead.tails lead.least lead.most rest

theorem tails_length_le : (tails point left least most bytes).2.length ≤ bytes.length := by
  induction left generalizing point least most bytes <;> cases bytes <;> simp [tails]
  case succ.cons hi _ _ =>
    split
    · exact Nat.le_succ_of_le hi
    · simp

theorem next_length_le : (next b rest).2.length ≤ rest.length := by
  unfold next
  split
  · simp
  · exact tails_length_le

def scan : Bytes → List (Option Char)
  | [] => []
  | b :: rest => (next b rest).1 :: scan (next b rest).2
termination_by bytes => bytes.length
decreasing_by exact Nat.lt_succ_of_le next_length_le

def replacement : Char := '\uFFFD'

def decodeLossy (bytes : Bytes) : String :=
  String.ofList <| (scan bytes).map (·.getD replacement)

def decode? (bytes : Bytes) : Option String :=
  (scan bytes).mapM id |>.map String.ofList

end FileBroker.Utf8
