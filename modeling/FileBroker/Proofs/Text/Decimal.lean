import Mathlib
import FileBroker.Text.Decimal

namespace FileBroker.Decimal

theorem magnitude?_toDigits (n : Nat) : magnitude? (Nat.toDigits 10 n) = some n := by
  have hd : (Nat.toDigits 10 n).all Char.isDigit := List.all_eq_true.mpr
    fun _ hc => Nat.isDigit_of_mem_toDigits (by decide) (by decide) hc
  simp [magnitude?, Nat.toDigits_ne_nil, hd, Nat.ofDigitChars_ten_toDigits]

theorem toDigits_head_isDigit (h : Nat.toDigits 10 n = c :: cs) : c.isDigit :=
  Nat.isDigit_of_mem_toDigits (by decide) (by decide) (h ▸ List.mem_cons_self)

-- Digits are no sign.
theorem parse?_of_head_isDigit (h : c.isDigit) :
    parse? (c :: cs) = (magnitude? (c :: cs)).map Int.ofNat := by
  unfold parse?
  split
  case h_1 he => exact absurd ((List.cons.inj he).left ▸ h) (by decide)
  case h_2 he => exact absurd ((List.cons.inj he).left ▸ h) (by decide)
  case h_3    => rfl

@[simp] theorem parse?_render (n : Int) : parse? (render n) = some n := by
  cases n
  case ofNat n =>
    rw [render]
    obtain ⟨c, cs, hd⟩ := List.exists_cons_of_ne_nil (Nat.toDigits_ne_nil (n := n) (b := 10))
    rw [hd, parse?_of_head_isDigit (toDigits_head_isDigit hd), ←hd, magnitude?_toDigits]
    rfl
  case negSucc n =>
    rw [render, parse?, magnitude?_toDigits]
    rfl

theorem int32?_render (h : fits 32 n) : int32? (render n) = some (Int32.ofInt n) := by
  simp [int32?, h]

theorem fits_64_of_32 (h : fits 32 n) : fits 64 n := by
  have := fits_32_iff.mp h
  simp [fits]
  omega

theorem int64?_render (h : fits 64 n) : int64? (render n) = some (Int64.ofInt n) := by
  simp [int64?, h]

theorem fits_toInt (n : Int32) : fits 32 n.toInt :=
  fits_32_iff.mpr ⟨n.le_toInt, n.toInt_lt⟩

theorem fits_natCast (n : Nat) : fits 32 (n : Int) = decide (n < 2 ^ 31) := by
  rw [Bool.eq_iff_iff, fits_32_iff, decide_eq_true_iff]
  omega

theorem not_fits_natCast (n : Nat) : (!fits 32 (n : Int)) = decide (2 ^ 31 ≤ n) := by
  rw [fits_natCast, ←decide_not, decide_eq_decide]
  exact Nat.not_lt

-- A rendered number has no character but digits and the minus sign.
theorem mem_render (h : c ∈ render n) : c.isDigit ∨ c = '-' := by
  have hd (n : Nat) (h : c ∈ Nat.toDigits 10 n) : c.isDigit :=
    Nat.isDigit_of_mem_toDigits (by decide) (by decide) h
  cases n
  case ofNat n => exact .inl <| hd n h
  case negSucc n =>
    cases h
    case head   => exact .inr rfl
    case tail h => exact .inl <| hd _ h

theorem magnitude?_stray (h : c ∈ digits) (hc : c.isDigit = false) : magnitude? digits = none := by
  have : digits.all Char.isDigit = false := List.all_eq_false.mpr ⟨c, h, by simp [hc]⟩
  simp [magnitude?, this]

-- A character that is in no number.
theorem parse?_stray (h : c ∈ cs) (hc : c.isDigit = false) (hs : c ≠ '-' ∧ c ≠ '+') :
    parse? cs = none := by
  have hm (sign : Char) (digits : List Char) (hd : cs = sign :: digits) (hn : c ≠ sign) :
      magnitude? digits = none :=
    magnitude?_stray ((List.mem_cons.mp (hd ▸ h)).resolve_left hn) hc
  unfold parse?
  split
  case h_1 digits => rw [hm '-' digits rfl hs.left]; rfl
  case h_2 digits => rw [hm '+' digits rfl hs.right]; rfl
  case h_3        => rw [magnitude?_stray h hc]; rfl

end FileBroker.Decimal
