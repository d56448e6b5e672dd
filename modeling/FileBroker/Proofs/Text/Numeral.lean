import Mathlib
import FileBroker.Proofs.Text.Decimal
import FileBroker.Proofs.Text.Utf8

namespace FileBroker

namespace Utf8

theorem encodeChar_ascii (h : Char.toNat c < 0x80) : String.utf8EncodeChar c = [UInt8.ofNat c.toNat] := by
  rw [String.utf8EncodeChar, if_pos (by change c.toNat ≤ _; omega)]
  rfl

-- The character that a byte is by itself.
def char (b : UInt8) : Char :=
  Char.ofNat b.toNat

@[simp] theorem char_toNat (b : UInt8) : (char b).toNat = b.toNat :=
  toNat_ofNat_char <| .inl <| Nat.lt_trans b.toNat_lt (by decide)

theorem char_inj (h : char b = char b') : b = b' :=
  UInt8.toNat_inj.mp <| by rw [←char_toNat, h, char_toNat]

theorem char_ofNat (h : Char.toNat c < 0x80) : char (UInt8.ofNat c.toNat) = c := by
  rw [char, toNat_ofNat_of_lt (by omega), Char.ofNat_toNat]

theorem encode_ascii (h : ∀ b ∈ bytes, UInt8.toNat b < 0x80) :
    encode (String.ofList (bytes.map char)) = bytes := by
  rw [encode, String.toList_ofList, List.flatMap_map]
  induction bytes
  case nil => rfl
  case cons b bytes hi =>
    obtain ⟨hb, h⟩ := List.forall_mem_cons.mp h
    rw [List.flatMap_cons, hi h, encodeChar_ascii (by rwa [char_toNat]), char_toNat, UInt8.ofNat_toNat]
    rfl

theorem decode?_ascii (h : ∀ b ∈ bytes, UInt8.toNat b < 0x80) :
    decode? bytes = some (String.ofList (bytes.map char)) := by
  conv => lhs; rw [←encode_ascii h]
  exact decode?_encode _

-- Bytes that are well-formed need no replacement.
theorem decodeLossy_of_decode? (h : decode? bytes = some s) : decodeLossy bytes = s := by
  have hm (os : List (Option Char)) {cs : List Char} (h : os.mapM id = some cs) :
      os.map (·.getD replacement) = cs := by
    induction os generalizing cs
    case nil => cases h; rfl
    case cons o os hi =>
      rw [List.mapM_cons] at h
      have ⟨c, hc, h⟩ := Option.bind_eq_some_iff.mp h
      have ⟨cs, hcs, h⟩ := Option.bind_eq_some_iff.mp h
      rw [id] at hc
      obtain rfl := Option.some.inj h
      rw [List.map_cons, hi hcs, hc]
      rfl
  obtain ⟨cs, hcs, rfl⟩ := Option.map_eq_some_iff.mp h
  rw [decodeLossy, hm _ hcs]

theorem decode?_eq_ascii (hs : ∀ c ∈ s.toList, Char.toNat c < 0x80) :
    decode? bytes = some s ↔ bytes = encode s :=
  ⟨fun h => decodeLossy_eq_ascii hs <| decodeLossy_of_decode? h, fun h => h ▸ decode?_encode s⟩

theorem map_char_encode (hs : ∀ c ∈ s.toList, Char.toNat c < 0x80) : (encode s).map char = s.toList := by
  rw [encode]
  generalize s.toList = cs at hs
  induction cs
  case nil => rfl
  case cons c cs hi =>
    obtain ⟨hc, hs⟩ := List.forall_mem_cons.mp hs
    rw [List.flatMap_cons, encodeChar_ascii hc, List.map_append, hi hs, List.map_singleton, char_ofNat hc]
    rfl

end Utf8

namespace Decimal

open Utf8

def Digit (b : UInt8) : Prop :=
  48 ≤ b.toNat ∧ b.toNat ≤ 57

-- The number that digits stand for by their positions.
def value (digits : Bytes) : Nat :=
  Nat.ofDigits 10 (digits.map fun b => b.toNat - 48).reverse

-- At most one sign, then at least one digit. The signs are `+` and `-`.
inductive Numeral : Bytes → Int → Prop
  | bare  : digits ≠ [] → (∀ b ∈ digits, Digit b) → Numeral digits (value digits)
  | plus  : digits ≠ [] → (∀ b ∈ digits, Digit b) → Numeral (43 :: digits) (value digits)
  | minus : digits ≠ [] → (∀ b ∈ digits, Digit b) → Numeral (45 :: digits) (-value digits)

theorem Digit.ascii (h : Digit b) : b.toNat < 0x80 := by
  have := h.right
  omega

theorem Digit.no_end (h : Digit b) : b ≠ 32 ∧ b ≠ 10 := by
  refine ⟨?_, ?_⟩
  all_goals
    rintro rfl
    exact absurd h.left (by decide)

theorem isDigit_char : (char b).isDigit ↔ Digit b := by
  have hb := char_toNat b
  simp only [Char.isDigit, Bool.and_eq_true, decide_eq_true_eq, Digit, ge_iff_le, UInt32.le_iff_toNat_le]
  change 48 ≤ (char b).toNat ∧ (char b).toNat ≤ 57 ↔ _
  rw [hb]

theorem Numeral.ascii (h : Numeral bytes n) : ∀ b ∈ bytes, b.toNat < 0x80 := by
  cases h
  case bare h  => exact fun b hb => (h b hb).ascii
  case plus h  => exact List.forall_mem_cons.mpr ⟨by decide, fun b hb => (h b hb).ascii⟩
  case minus h => exact List.forall_mem_cons.mpr ⟨by decide, fun b hb => (h b hb).ascii⟩

-- No byte of a numeral can be taken for the end of it.
theorem Numeral.no_end (h : Numeral bytes n) : ∀ b ∈ bytes, b ≠ 32 ∧ b ≠ 10 := by
  cases h
  case bare h  => exact fun b hb => (h b hb).no_end
  case plus h  => exact List.forall_mem_cons.mpr ⟨by decide, fun b hb => (h b hb).no_end⟩
  case minus h => exact List.forall_mem_cons.mpr ⟨by decide, fun b hb => (h b hb).no_end⟩

theorem ofDigitChars_value (digits : Bytes) : Nat.ofDigitChars 10 (digits.map char) 0 = value digits := by
  rw [value, Nat.ofDigits_eq_foldr, List.foldr_reverse, List.foldl_map, Nat.ofDigitChars_eq_foldl,
    List.foldl_map]
  simp only [char_toNat, Nat.cast_id, Nat.add_comm]
  rfl

theorem magnitude?_char :
    magnitude? (digits.map char) = some n ↔ digits ≠ [] ∧ (∀ b ∈ digits, Digit b) ∧ n = value digits := by
  rw [magnitude?, ofDigitChars_value]
  split
  case isTrue h =>
    simp only [Bool.or_eq_true, List.isEmpty_iff, List.map_eq_nil_iff, Bool.not_eq_true',
      List.all_eq_false, List.mem_map, exists_exists_and_eq_and, isDigit_char] at h
    obtain rfl | ⟨b, hb, hn⟩ := h
    case inl => simp
    case inr =>
      exact iff_of_false (by simp) fun hv => hn <| hv.right.left b hb
  case isFalse h =>
    simp only [Bool.or_eq_true, List.isEmpty_iff, List.map_eq_nil_iff, Bool.not_eq_true',
      List.all_eq_false, List.mem_map, exists_exists_and_eq_and, isDigit_char, not_or, not_exists,
      not_and, not_not] at h
    exact ⟨fun he => ⟨h.left, h.right, (Option.some.inj he).symm⟩, fun hv => hv.right.right ▸ rfl⟩

theorem parse?_minus (cs : List Char) : parse? ('-' :: cs) = (magnitude? cs).map fun n => -Int.ofNat n := by
  rw [parse?]
  cases magnitude? cs <;> rfl

theorem parse?_char : parse? (bytes.map char) = some n ↔ Numeral bytes n := by
  refine ⟨fun h => ?_, fun h => ?_⟩
  case refine_1 =>
    unfold parse? at h
    split at h
    case h_1 digits hs =>
      obtain ⟨b, bytes, rfl, hb, rfl⟩ := List.map_eq_cons_iff.mp hs
      rw [←parse?, parse?_minus] at h
      obtain ⟨m, hm, rfl⟩ := Option.map_eq_some_iff.mp h
      obtain ⟨hn, hd, rfl⟩ := magnitude?_char.mp hm
      obtain rfl : b = 45 := char_inj hb
      exact .minus hn hd
    case h_2 digits hs =>
      obtain ⟨b, bytes, rfl, hb, rfl⟩ := List.map_eq_cons_iff.mp hs
      obtain ⟨m, hm, rfl⟩ := Option.map_eq_some_iff.mp h
      obtain ⟨hn, hd, rfl⟩ := magnitude?_char.mp hm
      obtain rfl : b = 43 := char_inj hb
      exact .plus hn hd
    case h_3 =>
      obtain ⟨m, hm, rfl⟩ := Option.map_eq_some_iff.mp h
      obtain ⟨hn, hd, rfl⟩ := magnitude?_char.mp hm
      exact .bare hn hd
  case refine_2 =>
    cases h
    case plus digits hn hd =>
      change (magnitude? (digits.map char)).map _ = _
      rw [magnitude?_char.mpr ⟨hn, hd, rfl⟩]
      rfl
    case minus digits hn hd =>
      change parse? ('-' :: digits.map char) = _
      rw [parse?_minus, magnitude?_char.mpr ⟨hn, hd, rfl⟩]
      rfl
    case bare hn hd =>
      have hm := magnitude?_char.mpr ⟨hn, hd, rfl⟩
      obtain ⟨b, digits, rfl⟩ := List.exists_cons_of_ne_nil hn
      have hb := isDigit_char.mpr <| (List.forall_mem_cons.mp hd).left
      rw [List.map_cons, parse?_of_head_isDigit hb, ←List.map_cons, hm]
      rfl

-- A number is written in characters of one byte.
theorem parse?_ascii (h : parse? cs = some n) : ∀ c ∈ cs, Char.toNat c < 0x80 := by
  intro c hc
  refine Decidable.byContradiction fun hn => ?_
  have hd : c.isDigit = false := by
    refine Bool.eq_false_iff.mpr fun hd => hn ?_
    simp only [Char.isDigit, Bool.and_eq_true, decide_eq_true_eq, UInt32.le_iff_toNat_le] at hd
    exact Nat.lt_of_le_of_lt hd.right (by decide)
  have hs : c ≠ '-' ∧ c ≠ '+' := by
    refine ⟨?_, ?_⟩
    all_goals
      rintro rfl
      exact hn (by decide)
  rw [parse?_stray hc hd hs] at h
  simp at h

theorem decode?_parse?_iff : ((decode? bytes).bind fun s => parse? s.toList) = some n ↔ Numeral bytes n := by
  rw [←parse?_char]
  refine ⟨fun h => ?_, fun h => ?_⟩
  case refine_1 =>
    obtain ⟨s, hs, hp⟩ := Option.bind_eq_some_iff.mp h
    have ha := parse?_ascii hp
    rwa [(decode?_eq_ascii ha).mp hs, map_char_encode ha]
  case refine_2 =>
    rw [decode?_ascii (parse?_char.mp h).ascii, Option.bind_some, String.toList_ofList, h]

end Decimal

end FileBroker
