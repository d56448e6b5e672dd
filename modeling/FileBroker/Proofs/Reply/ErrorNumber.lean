import Mathlib
import FileBroker.Proofs.Proxy.Plan
import FileBroker.Proofs.Text.Canonical

namespace FileBroker

namespace ErrorText

-- A number in canonical form, by itself or with a blank and words behind it. Where there are no words
-- the usual ones for the number are meant.
inductive Reported : List Char → Errno.Code → String → Prop
  | bare  : 0 < code → Decimal.Canonical digits code.toInt.toNat → Reported digits code (Errno.describe code)
  | blank : 0 < code → Decimal.Canonical digits code.toInt.toNat →
    Reported (digits ++ [' ']) code (Errno.describe code)
  | words : 0 < code → Decimal.Canonical digits code.toInt.toNat → words ≠ [] →
    Reported (digits ++ ' ' :: words) code (String.ofList words)

theorem render_of_pos {code : Errno.Code} (h : 0 < code) :
    Decimal.render code.toInt = Nat.toDigits 10 code.toInt.toNat := by
  have h : 0 < code.toInt := Int32.lt_iff_toInt_lt.mp h
  have ⟨n, hn⟩ := Int.eq_ofNat_of_zero_le (Int.le_of_lt h)
  rw [hn]
  rfl

theorem canonical_code_iff {code : Errno.Code} (h : 0 < code) :
    Decimal.Canonical digits code.toInt.toNat ↔ Decimal.render code.toInt = digits := by
  have hn : 0 < code.toInt := Int32.lt_iff_toInt_lt.mp h
  rw [Decimal.canonical_iff (by omega), render_of_pos h, eq_comm]

-- The number ends where the text does or at the first blank.
theorem parse_number (more : List Char) (h : 0 < code) (hd : Decimal.Canonical digits code.toInt.toNat)
    (hm : more = [] ∨ more.head? = some ' ') :
    parse (String.ofList (digits ++ more)) =
      .errno code (if (more.drop 1).isEmpty then Errno.describe code else String.ofList (more.drop 1)) := by
  obtain rfl := (canonical_code_iff h).mp hd
  have hn : ∀ c ∈ Decimal.render code.toInt, decide (c ≠ ' ') = true :=
    fun _ hc => decide_eq_true <| render_no_space hc
  have ht : more.takeWhile (· ≠ ' ') = [] ∧ more.dropWhile (· ≠ ' ') = more := by
    cases more
    case nil  => simp
    case cons =>
      obtain rfl : _ = ' ' := by simpa using hm
      simp
  unfold parse
  simp only [String.toList_ofList, List.takeWhile_append_of_pos hn, List.dropWhile_append_of_pos hn, ht,
    List.append_nil, Decimal.int32?_render <| Decimal.fits_toInt code, Int32.ofInt_toInt, h, and_self,
    if_true]

theorem parse_of_reported (h : Reported text code message) :
    parse (String.ofList text) = .errno code message := by
  rcases h with ⟨hp, hd⟩ | ⟨hp, hd⟩ | @⟨_, _, words, hp, hd, hw⟩
  case bare  => simpa using parse_number [] hp hd (.inl rfl)
  case blank => simpa using parse_number [' '] hp hd (.inr rfl)
  case words => simpa [hw] using parse_number (' ' :: words) hp hd (.inr rfl)

theorem blank_cases (text : List Char) :
    text.takeWhile (· ≠ ' ') = text ∧ text.dropWhile (· ≠ ' ') = [] ∨
      ∃ words, text.dropWhile (· ≠ ' ') = ' ' :: words ∧ text.takeWhile (· ≠ ' ') ++ ' ' :: words = text := by
  have ht := List.takeWhile_append_dropWhile (p := (· ≠ ' ')) (l := text)
  have hb := List.head?_dropWhile_not (· ≠ ' ') text
  cases hd : text.dropWhile (· ≠ ' ')
  case nil  => exact .inl ⟨by rwa [hd, List.append_nil] at ht, rfl⟩
  case cons =>
    rw [hd] at ht hb
    obtain rfl : _ = ' ' := by simpa using hb
    exact .inr ⟨_, rfl, ht⟩

theorem reported_of_parse (h : parse text = .errno code message) : Reported text.toList code message := by
  unfold parse at h
  dsimp only at h
  split at h
  case h_2 => simp at h
  case h_1 n hn =>
    split at h
    case isFalse => simp at h
    case isTrue hc =>
      obtain ⟨hp, hr⟩ := hc
      obtain ⟨rfl, rfl⟩ := ErrorText.errno.inj h
      have hd := (canonical_code_iff hp).mpr hr
      rcases blank_cases text.toList with ⟨ht, hw⟩ | ⟨words, hw, ht⟩
      case inl =>
        rw [hw, ←ht]
        exact .bare hp hd
      case inr =>
        rw [hw, ←ht]
        cases words
        case nil  => exact .blank hp hd
        case cons => exact .words hp hd (by simp)

theorem parse_eq_errno_iff : parse text = .errno code message ↔ Reported text.toList code message :=
  ⟨reported_of_parse, fun h => by simpa using parse_of_reported h⟩

theorem parse_cases (text : String) :
    (∃ code message, parse text = .errno code message) ∨ parse text = .protocol text := by
  unfold parse
  dsimp only
  split
  case h_2 => exact .inr rfl
  case h_1 =>
    split
    case isTrue  => exact .inl ⟨_, _, rfl⟩
    case isFalse => exact .inr rfl

theorem parse_eq_protocol_iff :
    parse text = .protocol text ↔ ∀ code message, ¬Reported text.toList code message := by
  simp only [←parse_eq_errno_iff]
  refine ⟨fun h code message he => ?_, fun h => (parse_cases text).resolve_left fun ⟨_, _, he⟩ => h _ _ he⟩
  rw [h] at he
  cases he

theorem Reported.pos (h : Reported text code message) : 0 < code := by
  cases h <;> assumption

theorem Reported.head_isDigit (h : Reported (c :: text) code message) : c.isDigit := by
  have hd {digits more} (hp : 0 < code) (hd : Decimal.Canonical digits code.toInt.toNat)
      (ht : c :: text = digits ++ more) : c.isDigit := by
    obtain rfl := (canonical_code_iff hp).mp hd
    have hn : Decimal.render code.toInt ≠ [] := by
      rw [render_of_pos hp]
      exact Nat.toDigits_ne_nil
    have ⟨d, digits, hr⟩ := List.exists_cons_of_ne_nil hn
    rw [hr] at ht hd
    exact (List.cons.inj ht).left ▸ hd.digit d List.mem_cons_self
  generalize ht : c :: text = whole at h
  rcases h with ⟨hp, hc⟩ | ⟨hp, hc⟩ | ⟨hp, hc, _⟩
  case bare  => exact hd hp hc (ht.trans (List.append_nil _).symm)
  case blank => exact hd hp hc ht
  case words => exact hd hp hc ht

theorem render_injective : Function.Injective render := by
  intro code code' h
  have ht (code : Errno.Code) : (render code).toList.takeWhile (· ≠ ' ') = Decimal.render code.toInt := by
    rw [render_toList, List.takeWhile_append_of_pos fun _ hc => decide_eq_true <| render_no_space hc]
    simp
  have h : Decimal.render code.toInt = Decimal.render code'.toInt := by rw [←ht, ←ht, h]
  have h : some code.toInt = some code'.toInt := by rw [←Decimal.parse?_render, ←Decimal.parse?_render, h]
  exact Int32.toInt_inj.mp <| Option.some.inj h

theorem parse?_render (code : Errno.Code) : Decimal.parse? (render code).toList = none :=
  Decimal.parse?_stray (c := ' ') (by simp [render_toList]) (by decide) (by decide)

-- The status of a success is no such text, whatever is behind it.
theorem parse_ready (more : String) : parse (readyStatus ++ more) = .protocol (readyStatus ++ more) := by
  refine parse_eq_protocol_iff.mpr fun code message h => ?_
  have ht : (readyStatus ++ more).toList = 'R' :: ("EADY".toList ++ more.toList) := by
    simp [readyStatus]
  rw [ht] at h
  exact absurd h.head_isDigit (by decide)

end ErrorText

namespace Call

variable {δ : Type} {a : Answer δ}

-- A failure is no watch.
theorem addWatch_failure (inotify : δ) (base : Option δ) (path : Bytes) (mask : UInt32)
    (ha : a.message = ErrorText.render code) :
    outcome a (.addWatch inotify base path mask) = .error (refusal (ErrorText.render code)) := by
  rw [outcome, ha, ErrorText.int32?_render]

end Call

-- For every text there is. The texts of failures are among those that report a number, one for each of
-- them, and none is taken for a success or for the number of a watch.
theorem ErrorText.told_by_number :
    (∀ text code message, parse text = .errno code message ↔ Reported text.toList code message) ∧
    (∀ text, parse text = .protocol text ↔ ∀ code message, ¬Reported text.toList code message) ∧
    (∀ text, (∃ code message, parse text = .errno code message) ∨ parse text = .protocol text) ∧
    (∀ code, 0 < code → parse (render code) = .errno code (Errno.describe code)) ∧
    (∀ text code message, parse text = .errno code message → 0 < code) ∧
    (∀ more, parse (readyStatus ++ more) = .protocol (readyStatus ++ more)) ∧
    Function.Injective render ∧
    (∀ code, Decimal.parse? (render code).toList = none) ∧
    ∀ (δ : Type) (a : Answer δ) code inotify base path mask, a.message = render code →
      (∀ id, Call.outcome a (.addWatch inotify base path mask) ≠ .ok id) ∧
      (0 < code → Call.outcome a (.addWatch inotify base path mask) =
        .error (.errno code (Errno.describe code))) := by
  refine ⟨fun _ _ _ => parse_eq_errno_iff, fun _ => parse_eq_protocol_iff, parse_cases,
    fun _ => parse_render, fun _ _ _ h => (parse_eq_errno_iff.mp h).pos, parse_ready, render_injective,
    parse?_render, fun δ a code inotify base path mask ha => ?_⟩
  rw [Call.addWatch_failure inotify base path mask ha]
  exact ⟨nofun, fun h => by rw [Call.refusal_render h]⟩

end FileBroker
