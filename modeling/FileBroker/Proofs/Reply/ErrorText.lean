import Mathlib
import FileBroker.ErrorText
import FileBroker.Proofs.Record.Layout
import FileBroker.Reply

namespace FileBroker.ErrorText

open RecordWriter

-- An error number in canonical decimal, and then nothing or a description.
def Reports (text : Bytes) (code : Errno.Code) : Prop :=
  0 < code ∧ ∃ more, text = number code.toInt ++ more ∧ (more = [] ∨ more.head? = some space)

theorem render_ascii (h : c ∈ Decimal.render n) : c.toNat < 0x80 := by
  cases Decimal.mem_render h
  case inl h =>
    simp only [Char.isDigit, Bool.and_eq_true, decide_eq_true_eq] at h
    have := UInt32.le_iff_toNat_le.mp h.right
    exact Nat.lt_of_le_of_lt this (by decide)
  case inr h =>
    subst h
    decide

theorem reports_of_parse (h : parse (Utf8.decodeLossy text) = .errno code message) :
    Reports text code := by
  unfold parse at h
  dsimp only at h
  split at h
  case h_2 => simp at h
  case h_1 n hn =>
    split at h
    case isFalse => simp at h
    case isTrue hc =>
      obtain ⟨hpos, hr⟩ := hc
      obtain ⟨rfl, _⟩ := ErrorText.errno.inj h
      have ha := List.takeWhile_append_dropWhile (p := (· ≠ ' ')) (l := (Utf8.decodeLossy text).toList)
      rw [←hr] at ha
      obtain ⟨more, hm, hd⟩ := Utf8.decodeLossy_ascii_append (fun c hc => render_ascii hc) ha.symm
      refine ⟨hpos, more, ?_, ?_⟩
      · rw [hm, number, Decimal.text, Utf8.encode, String.toList_ofList]
      · cases hs : (Utf8.decodeLossy text).toList.dropWhile (· ≠ ' ')
        case nil => exact .inl <| Utf8.decodeLossy_eq_nil <| hd.trans hs
        case cons c cs =>
          have hc := List.head?_dropWhile_not (· ≠ ' ') (Utf8.decodeLossy text).toList
          rw [hs] at hc
          have hc : c = ' ' := by simpa using hc
          have hd : (Utf8.decodeLossy more).toList = [' '] ++ cs := by rw [hd, hs, hc]; rfl
          obtain ⟨_, hm, _⟩ := Utf8.decodeLossy_ascii_append (by simp) hd
          exact .inr <| by rw [hm]; rfl

theorem render_toList (code : Errno.Code) :
    (render code).toList = Decimal.render code.toInt ++ ' ' :: (Errno.describe code).toList := by
  simp [render, Decimal.text, toString]

theorem render_no_space (h : c ∈ Decimal.render n) : c ≠ ' ' := by
  cases Decimal.mem_render h
  case inl h =>
    rintro rfl
    exact absurd h (by decide)
  case inr h =>
    subst h
    decide

theorem parse_render (h : 0 < code) : parse (render code) = .errno code (Errno.describe code) := by
  have hn : ∀ c ∈ Decimal.render code.toInt, decide (c ≠ ' ') = true :=
    fun _ hc => decide_eq_true <| render_no_space hc
  have ht : (render code).toList.takeWhile (· ≠ ' ') = Decimal.render code.toInt := by
    rw [render_toList, List.takeWhile_append_of_pos hn]
    simp
  have hd : (render code).toList.dropWhile (· ≠ ' ') = ' ' :: (Errno.describe code).toList := by
    rw [render_toList, List.dropWhile_append_of_pos hn]
    simp
  have hi : Decimal.int32? (Decimal.render code.toInt) = some code := by
    rw [Decimal.int32?_render <| Decimal.fits_toInt code, Int32.ofInt_toInt]
  unfold parse
  simp only [ht, hd, hi, h, true_and, if_true, List.drop_succ_cons, List.drop_zero]
  split
  case isTrue  => rfl
  case isFalse => rw [String.ofList_toList]

-- A text is given as its characters here, because they take long to compute.
theorem descriptions_no_nul :
    ∀ d ∈ Errno.descriptions, ∃ cs, d.2 = String.ofList cs ∧ '\x00' ∉ cs := by
  rw [Errno.descriptions]
  repeat refine List.forall_mem_cons.mpr ⟨⟨_, rfl, by decide⟩, ?_⟩
  exact nofun

theorem describe_no_nul (code : Errno.Code) : '\x00' ∉ (Errno.describe code).toList := by
  rw [Errno.describe]
  match hl : Errno.descriptions.lookup code.toInt with
  | none => decide
  | some text =>
    have ⟨front, back, hs, _⟩ := List.lookup_eq_some_iff.mp hl
    have ⟨cs, ht, hn⟩ :=
      descriptions_no_nul (_, text) (hs ▸ List.mem_append_right _ List.mem_cons_self)
    have ht : text = String.ofList cs := ht
    simpa [ht] using hn

theorem render_no_nul (code : Errno.Code) : 0 ∉ Utf8.encode (render code) := by
  intro h
  have h := Utf8.mem_encode (by decide) h
  rw [render_toList] at h
  cases List.mem_append.mp h
  case inl h => exact absurd (Decimal.mem_render h) (by decide)
  case inr h =>
    cases List.mem_cons.mp h
    case inl h => exact absurd h (by decide)
    case inr h => exact describe_no_nul code h

theorem render_ne_ready (h : 0 < code) : render code ≠ readyStatus := by
  intro hr
  have := parse_render h
  rw [hr] at this
  exact nomatch this

-- An error text is no number, because of its description.
theorem int32?_render (code : Errno.Code) : Decimal.int32? (render code).toList = none := by
  have hm : ' ' ∈ (render code).toList := by simp [render_toList]
  rw [Decimal.int32?, Decimal.parse?_stray hm (by decide) (by decide)]

end FileBroker.ErrorText
