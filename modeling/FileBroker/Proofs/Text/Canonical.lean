import Mathlib
import FileBroker.Proofs.Text.Decimal

namespace FileBroker.Decimal

structure Canonical (digits : List Char) (n : Nat) : Prop where
  digit   : ∀ c ∈ digits, c.isDigit
  leading : digits.head? ≠ some '0'
  value   : Nat.ofDigitChars 10 digits 0 = n

theorem exists_digitChar (h : Char.isDigit c) :
    ∃ d, d < 10 ∧ c = Nat.digitChar d ∧ c.toNat - '0'.toNat = d := by
  simp only [Char.isDigit, Bool.and_eq_true, decide_eq_true_eq, ge_iff_le, UInt32.le_iff_toNat_le] at h
  have hl : 48 ≤ c.toNat := h.left
  have hu : c.toNat ≤ 57 := h.right
  have hd : (Nat.digitChar (c.toNat - 48)).toNat = c.toNat := by
    rw [Nat.toNat_digitChar_of_lt_ten (by omega)]
    omega
  exact ⟨c.toNat - 48, by omega, (Char.toNat_inj.mp hd).symm, rfl⟩

theorem toDigits_leading (hn : 0 < n) : (Nat.toDigits 10 n).head? ≠ some '0' := by
  induction n using Nat.strongRecOn
  case ind n hi =>
    rw [Nat.toDigits_eq_if (by decide)]
    split
    case isTrue =>
      simp only [List.head?_cons, ne_eq, Option.some.injEq, Nat.digitChar_eq_zero]
      omega
    case isFalse =>
      rw [List.head?_append_of_ne_nil _ Nat.toDigits_ne_nil]
      exact hi _ (by omega) (by omega)

-- Digits behind a number that is not zero make it longer.
theorem toDigits_append (hn : 0 < n) (h : ∀ c ∈ digits, Char.isDigit c) :
    Nat.toDigits 10 n ++ digits = Nat.toDigits 10 (Nat.ofDigitChars 10 digits n) := by
  induction digits generalizing n
  case nil => rw [List.append_nil, Nat.ofDigitChars_nil]
  case cons c cs hi =>
    obtain ⟨hc, h⟩ := List.forall_mem_cons.mp h
    have ⟨d, hd, hc, hv⟩ := exists_digitChar hc
    rw [Nat.ofDigitChars_cons, hv, ←hi (by omega) h, ←Nat.toDigits_append_toDigits (by decide) hn hd,
      Nat.toDigits_of_lt_base hd, ←hc, List.append_assoc, List.singleton_append]

theorem Canonical.eq_toDigits (h : Canonical digits n) (hd : digits ≠ []) : digits = Nat.toDigits 10 n := by
  obtain ⟨c, cs, rfl⟩ := List.exists_cons_of_ne_nil hd
  obtain ⟨hc, hcs⟩ := List.forall_mem_cons.mp h.digit
  have ⟨d, hlt, hc, hv⟩ := exists_digitChar hc
  have hd : d ≠ 0 := by
    rintro rfl
    exact h.leading <| by rw [hc]; rfl
  rw [←h.value, Nat.ofDigitChars_cons, hv, Nat.mul_zero, Nat.zero_add, ←toDigits_append (by omega) hcs,
    Nat.toDigits_of_lt_base hlt, ←hc, List.singleton_append]

theorem canonical_iff (hn : 0 < n) : Canonical digits n ↔ digits = Nat.toDigits 10 n := by
  refine ⟨fun h => h.eq_toDigits ?_, ?_⟩
  case refine_1 =>
    rintro rfl
    exact absurd h.value (by simp; omega)
  case refine_2 =>
    rintro rfl
    exact {
      digit   := fun _ => Nat.isDigit_of_mem_toDigits (by decide) (by decide)
      leading := toDigits_leading hn
      value   := Nat.ofDigitChars_ten_toDigits }

end FileBroker.Decimal
