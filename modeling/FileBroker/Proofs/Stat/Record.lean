import Mathlib
import FileBroker.Stat

namespace FileBroker

namespace LittleEndian

theorem decode_encode (width n : Nat) : decode (encode width n) = n % 256 ^ width := by
  induction width generalizing n
  case zero => simp [encode, decode, Nat.mod_one]
  case succ width hi =>
    rw [encode, decode, hi, Nat.pow_succ, Nat.mul_comm (256 ^ width), Nat.mod_mul]
    rfl

theorem drop_encode (h : width ≤ offset) (n : Nat) : (encode width n).drop offset = [] :=
  List.drop_of_length_le (by rwa [encode_length])

theorem take_encode (h : width ≤ length) (n : Nat) :
    (encode width n).take length = encode width n :=
  List.take_of_length_le (by rwa [encode_length])

end LittleEndian

theorem FileType.ofOrdinal_ordinal (t : FileType) : ofOrdinal t.ordinal = t := by
  cases t <;> decide

namespace Snapshot

open LittleEndian

@[simp] theorem record_length (s : Snapshot) : s.record.length = recordLength := by
  simp [record, encode_length, recordLength]

theorem ofRecord_record (s : Snapshot) : ofRecord s.record = s := by
  simp [ofRecord, field, record, List.drop_append, encode_length, drop_encode,
    take_encode, decode_encode, FileType.ofOrdinal_ordinal]

end Snapshot

end FileBroker
