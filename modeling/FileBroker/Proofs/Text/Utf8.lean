import Mathlib
import FileBroker.Text.Utf8

namespace FileBroker.Utf8

theorem Lead.ofByte?_one (h : b.toNat < 0x80) : ofByte? b = some ⟨b.toNat, 0, 0x80, 0xBF⟩ := by
  rw [ofByte?, if_pos h]

theorem Lead.ofByte?_two (h : 0xC2 ≤ b.toNat) (h' : b.toNat < 0xE0) :
    ofByte? b = some ⟨b.toNat - 0xC0, 1, 0x80, 0xBF⟩ := by
  rw [ofByte?, if_neg (by omega), if_neg (by omega), if_pos h']

-- The first continuation byte keeps out overlong forms and surrogates.
theorem Lead.ofByte?_three (h : 0xE0 ≤ b.toNat) (h' : b.toNat < 0xF0) :
    ofByte? b = some ⟨b.toNat - 0xE0, 2, if b.toNat = 0xE0 then 0xA0 else 0x80,
      if b.toNat = 0xED then 0x9F else 0xBF⟩ := by
  rw [ofByte?, if_neg (by omega), if_neg (by omega), if_neg (by omega)]
  by_cases h₁ : b.toNat = 0xE0
  case pos => simp [h₁]
  case neg =>
    by_cases h₂ : b.toNat = 0xED
    case pos => simp [h₂]
    case neg => simp [h₁, h₂, h']

theorem Lead.ofByte?_four (h : 0xF0 ≤ b.toNat) (h' : b.toNat < 0xF5) :
    ofByte? b = some ⟨b.toNat - 0xF0, 3, if b.toNat = 0xF0 then 0x90 else 0x80,
      if b.toNat = 0xF4 then 0x8F else 0xBF⟩ := by
  rw [ofByte?, if_neg (by omega), if_neg (by omega), if_neg (by omega), if_neg (by omega),
    if_neg (by omega), if_neg (by omega)]
  by_cases h₁ : b.toNat = 0xF0
  case pos => simp [h₁]
  case neg =>
    by_cases h₂ : b.toNat = 0xF4
    case pos => simp [h₂]
    case neg => simp [h₁, h₂, show b.toNat < 0xF4 by omega]

theorem Lead.ofByte?_none (h : 0x80 ≤ b.toNat) (h' : b.toNat < 0xC2 ∨ 0xF5 ≤ b.toNat) :
    ofByte? b = none := by
  rw [ofByte?, if_neg (by omega)]
  by_cases h₂ : b.toNat < 0xC2
  case pos => rw [if_pos h₂]
  case neg =>
    rw [if_neg h₂, if_neg (by omega), if_neg (by omega), if_neg (by omega), if_neg (by omega),
      if_neg (by omega), if_neg (by omega), if_neg (by omega)]

theorem tails_continue (h : least ≤ b.toNat) (h' : b.toNat ≤ most) :
    tails point (left + 1) least most (b :: rest) =
      tails (point * 64 + b.toNat % 64) left 0x80 0xBF rest := by
  rw [tails, if_pos ⟨h, h'⟩]

theorem tails_last (h : least ≤ b.toNat) (h' : b.toNat ≤ most)
    (hp : point * 64 + b.toNat % 64 = Char.toNat c) :
    tails point 1 least most (b :: rest) = (some c, rest) := by
  rw [tails_continue h h', tails, hp, Char.ofNat_toNat]

theorem toNat_ofNat_of_lt {n : Nat} (h : n < 256) : (UInt8.ofNat n).toNat = n :=
  Nat.mod_eq_of_lt h

-- A scalar value is none of the surrogates.
theorem toNat_valid (c : Char) : c.toNat < 0xD800 ∨ (0xDFFF < c.toNat ∧ c.toNat < 0x110000) :=
  c.valid

theorem scan_encodeChar (c : Char) (rest : Bytes) :
    scan (String.utf8EncodeChar c ++ rest) = some c :: scan rest := by
  have hc := toNat_valid c
  simp only [String.utf8EncodeChar, Char.toNat] at hc ⊢
  generalize hv : c.val.toNat = v at *
  split
  case isTrue h =>
    have hb := toNat_ofNat_of_lt (n := v) (by omega)
    rw [List.singleton_append, scan, next, Lead.ofByte?_one (by omega)]
    dsimp only
    rw [tails, hb, ←hv, ←Char.toNat, Char.ofNat_toNat]
  case isFalse h₁ =>
    split
    case isTrue h₂ =>
      have hb := toNat_ofNat_of_lt (n := v / 64 % 0x20 + 0xc0) (by omega)
      have hb₁ := toNat_ofNat_of_lt (n := v % 0x40 + 0x80) (by omega)
      rw [List.cons_append, List.singleton_append, scan, next,
        Lead.ofByte?_two (by omega) (by omega)]
      dsimp only
      rw [tails_last (by omega) (by omega) (c := c) (by rw [Char.toNat, hv]; omega)]
    case isFalse h₂ =>
      split
      case isTrue h₃ =>
        have hb := toNat_ofNat_of_lt (n := v / 4096 % 0x10 + 0xe0) (by omega)
        have hb₁ := toNat_ofNat_of_lt (n := v / 64 % 0x40 + 0x80) (by omega)
        have hb₂ := toNat_ofNat_of_lt (n := v % 0x40 + 0x80) (by omega)
        rw [List.cons_append, List.cons_append, List.singleton_append, scan, next,
          Lead.ofByte?_three (by omega) (by omega)]
        dsimp only
        rw [tails_continue (by split <;> omega) (by split <;> omega),
          tails_last (by omega) (by omega) (c := c) (by rw [Char.toNat, hv]; omega)]
      case isFalse h₃ =>
        have hb := toNat_ofNat_of_lt (n := v / 262144 % 0x08 + 0xf0) (by omega)
        have hb₁ := toNat_ofNat_of_lt (n := v / 4096 % 0x40 + 0x80) (by omega)
        have hb₂ := toNat_ofNat_of_lt (n := v / 64 % 0x40 + 0x80) (by omega)
        have hb₃ := toNat_ofNat_of_lt (n := v % 0x40 + 0x80) (by omega)
        rw [List.cons_append, List.cons_append, List.cons_append, List.singleton_append, scan, next,
          Lead.ofByte?_four (by omega) (by omega)]
        dsimp only
        rw [tails_continue (by split <;> omega) (by split <;> omega),
          tails_continue (by omega) (by omega),
          tails_last (by omega) (by omega) (c := c) (by rw [Char.toNat, hv]; omega)]

theorem scan_encode (s : String) : scan (encode s) = s.toList.map some := by
  unfold encode
  induction s.toList
  case nil => rw [List.flatMap_nil, scan, List.map_nil]
  case cons c cs hi => rw [List.flatMap_cons, scan_encodeChar, hi, List.map_cons]

@[simp] theorem decodeLossy_encode (s : String) : decodeLossy (encode s) = s := by
  rw [decodeLossy, scan_encode, List.map_map]
  simp [Function.comp_def]

-- Bytes survive being read as text exactly if they are one.
theorem encode_decodeLossy_iff : encode (decodeLossy bytes) = bytes ↔ ∃ text, encode text = bytes := by
  refine ⟨fun h => ⟨_, h⟩, ?_⟩
  rintro ⟨text, rfl⟩
  rw [decodeLossy_encode]

@[simp] theorem decode?_encode (s : String) : decode? (encode s) = some s := by
  have hm (cs : List Char) : (cs.map some).mapM id = some cs := by
    induction cs
    case nil => rfl
    case cons hi => simp [hi]
  rw [decode?, scan_encode, hm, Option.map_some, String.ofList_toList]

theorem encode_append (s t : String) : encode (s ++ t) = encode s ++ encode t := by
  simp [encode]

-- A byte that is a character by itself stands for nothing else.
theorem mem_encodeChar (hb : b.toNat < 0x80) (h : b ∈ String.utf8EncodeChar c) :
    c = Char.ofNat b.toNat := by
  have hc := toNat_valid c
  rw [←Char.ofNat_toNat c]
  congr 1
  simp only [String.utf8EncodeChar, Char.toNat] at h hc ⊢
  generalize c.val.toNat = v at *
  split at h
  case isTrue => rw [List.mem_singleton.mp h, toNat_ofNat_of_lt (by omega)]
  case isFalse =>
    -- Each byte of a longer sequence has its top bit set.
    split at h
    case isTrue =>
      simp only [List.mem_cons, List.not_mem_nil, or_false] at h
      obtain rfl | rfl := h <;> rw [toNat_ofNat_of_lt (by omega)] at hb <;> omega
    case isFalse =>
      split at h
      case isTrue =>
        simp only [List.mem_cons, List.not_mem_nil, or_false] at h
        obtain rfl | rfl | rfl := h <;> rw [toNat_ofNat_of_lt (by omega)] at hb <;> omega
      case isFalse =>
        simp only [List.mem_cons, List.not_mem_nil, or_false] at h
        obtain rfl | rfl | rfl | rfl := h <;> rw [toNat_ofNat_of_lt (by omega)] at hb <;> omega

theorem mem_encode (hb : b.toNat < 0x80) (h : b ∈ encode s) : Char.ofNat b.toNat ∈ s.toList := by
  have ⟨c, hc, hm⟩ := List.mem_flatMap.mp h
  exact mem_encodeChar hb hm ▸ hc

-- The code point that continuation bytes complete.
theorem tails_some (h : tails point left 0x80 0xBF bytes = (some c, rest)) :
    ∃ v, c = Char.ofNat v ∧ point * 64 ^ left ≤ v ∧ v < (point + 1) * 64 ^ left := by
  induction left generalizing point bytes
  case zero =>
    cases h
    exact ⟨point, rfl, by simp, by simp⟩
  case succ left hi =>
    cases bytes
    case nil => simp [tails] at h
    case cons b bytes =>
      unfold tails at h
      split at h
      case isFalse => simp at h
      case isTrue =>
        obtain ⟨v, hv, hl, hu⟩ := hi h
        refine ⟨v, hv, Nat.le_trans ?_ hl, Nat.lt_of_lt_of_le hu ?_⟩
        · rw [Nat.pow_succ', ←Nat.mul_assoc]
          exact Nat.mul_le_mul_right _ (by omega)
        · rw [Nat.pow_succ', ←Nat.mul_assoc]
          exact Nat.mul_le_mul_right _ (by omega)

theorem tails_first (h : tails point (left + 1) least most bytes = (some c, rest))
    (hl : 0x80 ≤ least) (hm : most ≤ 0xBF) :
    ∃ v, c = Char.ofNat v ∧ (point * 64 + (least - 0x80)) * 64 ^ left ≤ v ∧
      v < (point * 64 + (most - 0x80) + 1) * 64 ^ left := by
  cases bytes
  case nil => simp [tails] at h
  case cons b bytes =>
    unfold tails at h
    split at h
    case isFalse => simp at h
    case isTrue =>
      obtain ⟨v, hv, hvl, hvu⟩ := tails_some h
      exact ⟨v, hv, Nat.le_trans (Nat.mul_le_mul_right _ (by omega)) hvl,
        Nat.lt_of_lt_of_le hvu (Nat.mul_le_mul_right _ (by omega))⟩

theorem toNat_ofNat_char (h : v < 0xD800 ∨ (0xDFFF < v ∧ v < 0x110000)) : (Char.ofNat v).toNat = v := by
  rw [Char.ofNat, dif_pos h]
  rfl

-- A character of one byte is not read off several.
theorem next_ascii (h : next b bytes = (some c, rest)) (hc : c.toNat < 0x80) :
    b = UInt8.ofNat c.toNat ∧ rest = bytes := by
  unfold next at h
  by_cases h₁ : b.toNat < 0x80
  case pos =>
    rw [Lead.ofByte?_one h₁] at h
    cases h
    simp [toNat_ofNat_char (v := b.toNat) (by omega)]
  case neg =>
    refine absurd hc (Nat.not_lt.mpr ?_)
    by_cases h₂ : b.toNat < 0xC2 ∨ 0xF5 ≤ b.toNat
    case pos =>
      rw [Lead.ofByte?_none (by omega) h₂] at h
      simp at h
    case neg =>
      by_cases h₃ : b.toNat < 0xE0
      case pos =>
        rw [Lead.ofByte?_two (by omega) h₃] at h
        dsimp only at h
        have ⟨v, hv, hl, hu⟩ := tails_first h (by omega) (by omega)
        rw [hv, toNat_ofNat_char (by omega)]
        omega
      case neg =>
        by_cases h₄ : b.toNat < 0xF0
        case pos =>
          rw [Lead.ofByte?_three (by omega) h₄] at h
          dsimp only at h
          have ⟨v, hv, hl, hu⟩ := tails_first h (by split <;> omega) (by split <;> omega)
          rw [hv, toNat_ofNat_char (by split at hl <;> split at hu <;> omega)]
          split at hl <;> omega
        case neg =>
          rw [Lead.ofByte?_four (by omega) (by omega)] at h
          dsimp only at h
          have ⟨v, hv, hl, hu⟩ := tails_first h (by split <;> omega) (by split <;> omega)
          rw [hv, toNat_ofNat_char (by split at hl <;> split at hu <;> omega)]
          split at hl <;> omega

-- A text that begins with characters of one byte was read off these bytes.
theorem decodeLossy_ascii_append (hcs : ∀ c ∈ cs, Char.toNat c < 0x80)
    (h : (decodeLossy bytes).toList = cs ++ ds) :
    ∃ more, bytes = cs.flatMap String.utf8EncodeChar ++ more ∧ (decodeLossy more).toList = ds := by
  simp only [decodeLossy, String.toList_ofList] at h ⊢
  induction cs generalizing bytes
  case nil => exact ⟨bytes, rfl, h⟩
  case cons c cs hi =>
    obtain ⟨hc, hcs⟩ := List.forall_mem_cons.mp hcs
    cases bytes
    case nil => simp [scan] at h
    case cons b bytes =>
      rw [scan, List.map_cons, List.cons_append, List.cons.injEq] at h
      rcases hn : next b bytes with ⟨_ | d, rest⟩
      case none =>
        rw [hn] at h
        have hr : replacement = c := h.left
        exact absurd (hr ▸ hc) (by decide)
      case some =>
        rw [hn] at h
        have hd : d = c := h.left
        obtain ⟨hb, rfl⟩ := next_ascii (hd ▸ hn) hc
        have hu : String.utf8EncodeChar c = [b] := by
          rw [hb, String.utf8EncodeChar, if_pos (by change c.toNat ≤ _; omega)]
          rfl
        obtain ⟨more, hm, hs⟩ := hi hcs h.right
        exact ⟨more, by rw [List.flatMap_cons, hu, List.append_assoc, ←hm]; rfl, hs⟩

theorem Lead.least_le (h : ofByte? b = some lead) : 0x80 ≤ lead.least := by
  unfold ofByte? at h
  dsimp only at h
  split_ifs at h
  all_goals
    obtain rfl := Option.some.inj h
    exact Nat.le_of_ble_eq_true rfl

-- A byte that is a character by itself continues no other.
theorem tails_append (hb : UInt8.toNat b < 0x80) (hl : 0x80 ≤ least) :
    tails point left least most (bytes ++ b :: rest) =
      ((tails point left least most bytes).1, (tails point left least most bytes).2 ++ b :: rest) := by
  induction left generalizing point least most bytes
  case zero => rfl
  case succ left hi =>
    cases bytes
    case nil => simp [tails, show ¬least ≤ b.toNat by omega]
    case cons d bytes =>
      rw [List.cons_append, tails, tails]
      split
      case isTrue  => exact hi (Nat.le_refl _)
      case isFalse => rfl

theorem next_append (hb : UInt8.toNat b < 0x80) :
    next d (bytes ++ b :: rest) = ((next d bytes).1, (next d bytes).2 ++ b :: rest) := by
  unfold next
  split
  case h_1 => rfl
  case h_2 hl => exact tails_append hb <| Lead.least_le hl

theorem scan_append (hb : UInt8.toNat b < 0x80) : scan (bytes ++ b :: rest) = scan bytes ++ scan (b :: rest) := by
  fun_induction scan bytes
  case case1 => rfl
  case case2 d bytes hi =>
    rw [List.cons_append, scan, next_append hb]
    dsimp only
    rw [hi, List.cons_append]

theorem decodeLossy_eq_nil (h : (decodeLossy bytes).toList = []) : bytes = [] := by
  cases bytes
  case nil => rfl
  case cons => simp [decodeLossy, scan] at h

theorem decodeLossy_eq_ascii (hs : ∀ c ∈ s.toList, Char.toNat c < 0x80) (h : decodeLossy bytes = s) :
    bytes = encode s := by
  have hn : (decodeLossy bytes).toList = s.toList ++ [] := by rw [h, List.append_nil]
  have ⟨more, hb, hm⟩ := decodeLossy_ascii_append hs hn
  rw [hb, decodeLossy_eq_nil hm, List.append_nil, encode]

end FileBroker.Utf8
