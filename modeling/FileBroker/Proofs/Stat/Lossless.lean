import Mathlib
import FileBroker.Proofs.Stat.Chunks
import FileBroker.Proofs.Stat.Record

namespace FileBroker

namespace LittleEndian

theorem decode_lt (bytes : Bytes) : decode bytes < 256 ^ bytes.length := by
  induction bytes
  case nil => simp [decode]
  case cons b bytes hi =>
    have := b.toNat_lt
    rw [decode, List.length_cons, Nat.pow_succ]
    omega

theorem encode_decode (bytes : Bytes) : encode bytes.length (decode bytes) = bytes := by
  induction bytes
  case nil => rfl
  case cons b bytes hi =>
    have hb : b.toNat < 256 := b.toNat_lt
    have hd : (b.toNat + 256 * decode bytes) / 256 = decode bytes := by omega
    have hm : UInt8.ofNat (b.toNat + 256 * decode bytes) = b := by
      rw [←UInt8.toNat_inj, UInt8.toNat_ofNat']
      omega
    rw [List.length_cons, decode, encode, hd, hm, hi]

end LittleEndian

namespace FileType

-- The numbers that are written for a type.
def ordinals : List Int32 := [0, 1, 2, 3]

theorem ordinal_mem (t : FileType) : t.ordinal ∈ ordinals := by
  cases t <;> decide

theorem ofOrdinal_stray (h : n ∉ ordinals) : ofOrdinal n = other := by
  simp only [ordinals, List.mem_cons, List.not_mem_nil, or_false, not_or] at h
  rw [ofOrdinal, if_neg h.left, if_neg h.right.left, if_neg h.right.right.left]

theorem ordinal_ofOrdinal_iff : (ofOrdinal n).ordinal = n ↔ n ∈ ordinals := by
  constructor
  case mp =>
    intro h
    exact h ▸ ordinal_mem _
  case mpr =>
    intro h
    simp only [ordinals, List.mem_cons, List.not_mem_nil, or_false] at h
    obtain rfl | rfl | rfl | rfl := h <;> rfl

end FileType

namespace Snapshot

open LittleEndian

variable {s : Snapshot} {r : Bytes}

-- The number that a record has in the place of the file type.
def typeNumber (r : Bytes) : Int32 :=
  (UInt32.ofNat (field r 24 4)).toInt32

-- A record with another number in that place.
def withType (r : Bytes) (n : Int32) : Bytes :=
  r.take 24 ++ encode 4 n.toUInt32.toNat ++ r.drop 28

theorem field_lt (r : Bytes) (offset width : Nat) : field r offset width < 256 ^ width := by
  refine Nat.lt_of_lt_of_le (decode_lt _) (Nat.pow_le_pow_right (by decide) ?_)
  exact List.length_take_le ..

theorem encode_field (h : offset + width ≤ r.length) :
    encode width (field r offset width) = (r.drop offset).take width := by
  have hl : ((r.drop offset).take width).length = width := by
    rw [List.length_take, List.length_drop]
    omega
  have he := encode_decode ((r.drop offset).take width)
  rwa [hl] at he

theorem toNat_field₈ (r : Bytes) (offset : Nat) :
    (UInt64.ofNat (field r offset 8)).toNat = field r offset 8 :=
  UInt64.toNat_ofNat_of_lt' (field_lt r offset 8)

theorem toNat_field₄ (r : Bytes) (offset : Nat) :
    (UInt32.ofNat (field r offset 4)).toNat = field r offset 4 :=
  UInt32.toNat_ofNat_of_lt' (field_lt r offset 4)

theorem withType_eq (r : Bytes) (n : Int32) :
    withType r n =
      r.take 8 ++ (r.drop 8).take 8 ++ (r.drop 16).take 8 ++ encode 4 n.toUInt32.toNat ++
        r.drop 28 := by
  rw [withType, ←List.take_add, ←List.take_add]

theorem withType_typeNumber (h : r.length = recordLength) : withType r (typeNumber r) = r := by
  have hl : 28 ≤ r.length := by rw [h]; decide
  have hn : encode 4 (typeNumber r).toUInt32.toNat = (r.drop 24).take 4 := by
    rw [typeNumber, UInt32.toUInt32_toInt32, toNat_field₄, encode_field (by omega)]
  rw [withType, hn, ←List.take_add, List.take_append_drop]

-- Everything but the type is written as it was read.
theorem record_ofRecord (h : r.length = recordLength) :
    (ofRecord r).record = withType r (FileType.ofOrdinal (typeNumber r)).ordinal := by
  have hl : 28 + 4 = r.length := h.symm
  have hb : (r.drop 28).take 4 = r.drop 28 := List.take_of_length_le (by rw [List.length_drop]; omega)
  rw [withType_eq, record]
  simp only [ofRecord, UInt64.toUInt64_toInt64, UInt32.toUInt32_toInt32, toNat_field₈, toNat_field₄]
  rw [encode_field (by omega), encode_field (by omega), encode_field (by omega),
    encode_field (by omega), hb, List.drop_zero]
  rfl

theorem typeNumber_record (s : Snapshot) : typeNumber s.record = s.fileType.ordinal := by
  simp [typeNumber, field, record, List.drop_append, encode_length, drop_encode, decode_encode]

theorem record_ofRecord_iff (h : r.length = recordLength) :
    (ofRecord r).record = r ↔ typeNumber r ∈ FileType.ordinals := by
  constructor
  case mp =>
    intro hr
    rw [←hr, typeNumber_record]
    exact FileType.ordinal_mem _
  case mpr =>
    intro ht
    rw [record_ofRecord h, FileType.ordinal_ofOrdinal_iff.mpr ht, withType_typeNumber h]

theorem reply_length (s : Snapshot) : s.reply.length = 40 := by
  rw [reply, List.length_append, record_length]
  rfl

-- A reply is complete without what follows it.
theorem reply_completes (s : Snapshot) (rest : Bytes) :
    StatDecoder.Completes (s.reply ++ rest) 40 (.snapshot s) := by
  have hl := s.reply_length
  have hi : (s.reply ++ rest).take 8 = successIndicator := by
    rw [List.take_append_of_le_length (by omega), reply, List.take_left' (by rfl)]
  have hr : ((s.reply ++ rest).drop 8).take 32 = s.record := by
    rw [List.drop_append_of_le_length (by omega), reply, List.drop_left' (by rfl)]
    exact List.take_left' s.record_length
  have hz : ∀ b ∈ successIndicator, b = 0 := decode_eq_zero_iff.mp rfl
  have ht : 40 ≤ (s.reply ++ rest).length := by
    rw [List.length_append]
    omega
  have hc := StatDecoder.Completes.record ht (hi ▸ hz)
  rwa [hr, ofRecord_record] at hc

-- Decoding and encoding again changes a record only if its type is none, and then only there, so that
-- doing it twice is doing it once.
theorem codec_is_lossless (s : Snapshot) (r : Bytes) (hr : r.length = recordLength) :
    ofRecord s.record = s ∧
    (∀ chunks rest, chunks.flatten = s.reply ++ rest →
      (StatDecoder.feedAll {} chunks).1.outcome = some (.snapshot s) ∧
      (StatDecoder.feedAll {} chunks).2 = s.reply.length) ∧
    ((ofRecord r).record = r ↔ typeNumber r ∈ FileType.ordinals) ∧
    (typeNumber r ∉ FileType.ordinals → (ofRecord r).record = withType r FileType.other.ordinal) ∧
    (ofRecord (ofRecord r).record).record = (ofRecord r).record := by
  refine ⟨s.ofRecord_record, fun chunks rest hc => ?_, record_ofRecord_iff hr, fun ht => ?_, ?_⟩
  · have hall : StatDecoder.feedAll {} chunks =
        (.offered chunks.flatten, StatDecoder.extent chunks.flatten) :=
      StatDecoder.feedAll_offered [] chunks
    have ⟨hv, hx⟩ := StatDecoder.completes_iff.mp (hc ▸ s.reply_completes rest)
    rw [hall, StatDecoder.offered_outcome, s.reply_length]
    exact ⟨hv, hx⟩
  · rw [record_ofRecord hr, FileType.ofOrdinal_stray ht]
  · rw [ofRecord_record]

-- All bits of the numbers are set, and 17 is no type.
theorem stray_type_becomes_other :
    let r : Bytes := List.replicate 24 255 ++ [17, 0, 0, 0] ++ List.replicate 4 255
    let s := ofRecord r
    let chunks : List Bytes := [s.reply.take 3, [], s.reply.drop 3 ++ [9]]
    r.length = recordLength ∧ chunks.flatten = s.reply ++ [9] ∧ typeNumber r ∉ FileType.ordinals ∧
      (ofRecord r).record = List.replicate 24 255 ++ [3, 0, 0, 0] ++ List.replicate 4 255 ∧
      (StatDecoder.feedAll {} chunks).1.outcome = some (.snapshot s) := by
  intro r s chunks
  have hr : r.length = recordLength := rfl
  have hc : chunks.flatten = s.reply ++ [9] := by
    rw [List.flatten_cons, List.flatten_cons, List.flatten_singleton, List.nil_append, ←List.append_assoc,
      List.take_append_drop]
  have ht : typeNumber r ∉ FileType.ordinals := by decide
  have ⟨_, hd, _, ho, _⟩ := codec_is_lossless s r hr
  exact ⟨hr, hc, ht, ho ht, (hd chunks [9] hc).left⟩

end Snapshot

end FileBroker
