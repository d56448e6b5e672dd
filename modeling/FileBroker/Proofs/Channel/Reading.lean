import Mathlib
import FileBroker.Proofs.Channel.Stream

namespace FileBroker.Channel

variable {δ : Type} {s t u : Stream δ}

-- Reading `s` by `step` gives `r` and leaves `t`.
def Reads (step : Channel δ → α × Channel δ) (s : Stream δ) (r : α) (t : Stream δ) : Prop :=
  ∀ c, c.Carries s → ∃ d, step c = (r, d) ∧ d.Carries t ∧ d.outgoing = c.outgoing

theorem readField_eq (ends : UInt8 → Bool) (what : Unfinished) (scanned : Nat) (c : Channel δ) :
    c.readField ends what scanned =
      match (c.held.drop scanned).findIdx? ends with
      | some i =>
        (.ok (c.held.take (scanned + i), c.held.getD (scanned + i) 0), c.consume (scanned + i + 1))
      | none =>
        match c.fill with
        | (.error e, d)    => (.error e, d)
        | (.ok 0, d)       => (.error (.closedDuring what), d)
        | (.ok (_ + 1), d) => d.readField ends what c.held.length := by
  rw [readField]
  match (c.held.drop scanned).findIdx? ends with
  | some i => rfl
  | none =>
    dsimp only
    split
    case h_1 hf => simp only [hf]
    case h_2 hf => simp only [hf]
    case h_3 hf => simp only [hf]

theorem readExact_of_le {c : Channel δ} (h : count ≤ c.held.length) :
    c.readExact count = (.ok (c.held.take count), c.consume count) := by
  rw [readExact, List.length_take_of_le h, if_pos rfl]

theorem readExact_of_lt {c : Channel δ} (h : c.held.length < count) :
    c.readExact count =
      match (c.consume c.held.length).fill with
      | (.error e, d)    => (.error e, d)
      | (.ok 0, d)       => (.error (.closedDuring .fixed), d)
      | (.ok (_ + 1), d) =>
        match d.readExact (count - c.held.length) with
        | (.ok more, d) => (.ok (c.held ++ more), d)
        | (.error e, d) => (.error e, d) := by
  rw [readExact, List.take_of_length_le (Nat.le_of_lt h), if_neg (Nat.ne_of_lt h)]
  split
  case h_1 hf => simp only [hf]
  case h_2 hf => simp only [hf]
  case h_3 d hf =>
    rcases hr : d.readExact (count - c.held.length) with ⟨_ | _, _⟩
    case error => simp only [hf, hr]
    case ok    => simp only [hf, hr]

theorem findIdx?_found {ends : UInt8 → Bool} (hb : ∀ x ∈ before, ends x = false) (he : ends b) :
    (before ++ b :: rest).findIdx? ends = some before.length := by
  simp [List.findIdx?_append, List.findIdx?_eq_none_iff.mpr hb, List.findIdx?_cons, he]

-- The bytes that were searched before the buffer was filled are the first ones still.
theorem readField_found {ends : UInt8 → Bool} {c : Channel δ} (h : c.Carries s)
    (hs : s.bytes = before ++ b :: rest) (hb : ∀ x ∈ before, ends x = false) (he : ends b)
    (what : Unfinished) (hn : scanned ≤ before.length) (hc : scanned ≤ c.held.length) :
    ∃ d, c.readField ends what scanned = (.ok (before, b), d) ∧
      d.Carries (s.advance (before.length + 1)) ∧ d.outgoing = c.outgoing := by
  induction hz : c.inbound.size using Nat.strongRecOn generalizing c scanned
  case ind z hi =>
    have hp := hs ▸ h.held_prefix
    rw [readField_eq]
    by_cases hl : c.held.length ≤ before.length
    case pos =>
      have hp := List.prefix_of_prefix_length_le hp (List.prefix_append ..) hl
      have hf : (c.held.drop scanned).findIdx? ends = none := List.findIdx?_eq_none_iff.mpr
        fun x hx => hb x <| hp.subset <| List.mem_of_mem_drop hx
      rw [hf]
      obtain ⟨d, hd, hdc, hdo, hh, hdh⟩ | ⟨n, d, hd, hdc, hdo, hdl⟩ := h.fill
      case inl =>
        have := congrArg List.length (hh.trans hs)
        simp at this
        omega
      case inr =>
        simp only [hd]
        have ⟨e, hr, he, ho⟩ := hi _ (hz ▸ fill_size_lt hd) hdc hl (by omega) rfl
        exact ⟨e, hr, he, ho.trans hdo⟩
    case neg =>
      have hq : before ++ [b] <+: before ++ b :: rest := ⟨rest, by simp⟩
      have ⟨tail, ht⟩ := List.prefix_of_prefix_length_le hq hp (by simp; omega)
      have ht : c.held = before ++ b :: tail := by simp [←ht]
      have hf : (c.held.drop scanned).findIdx? ends = some (before.length - scanned) := by
        rw [ht, List.drop_append_of_le_length hn,
          findIdx?_found (fun x hx => hb x <| List.mem_of_mem_drop hx) he, List.length_drop]
      simp only [hf, Nat.add_sub_cancel' hn]
      refine ⟨_, ?_, h.consume (by omega), rfl⟩
      simp [ht]

theorem readField_missing {ends : UInt8 → Bool} {c : Channel δ} (h : c.Carries s)
    (hs : ∀ x ∈ s.bytes, ends x = false) (what : Unfinished) (scanned : Nat) :
    ∃ d, c.readField ends what scanned = (.error (s.shortage what), d) ∧ d.Carries s.warned ∧
      d.outgoing = c.outgoing := by
  induction hz : c.inbound.size using Nat.strongRecOn generalizing c scanned
  case ind z hi =>
    have hf : (c.held.drop scanned).findIdx? ends = none := List.findIdx?_eq_none_iff.mpr
      fun x hx => hs x <| h.held_prefix.subset <| List.mem_of_mem_drop hx
    rw [readField_eq, hf]
    obtain ⟨d, hd, hdc, hdo, _⟩ | ⟨n, d, hd, hdc, hdo, hdl⟩ := h.fill
    case inl =>
      refine ⟨d, ?_, hdc, hdo⟩
      obtain hs | ⟨hs, hw⟩ := s.silence_cases what
      case inl => simp only [hd, hs]
      case inr => simp only [hd, hs, hw]
    case inr =>
      simp only [hd]
      have ⟨e, hr, he, ho⟩ := hi _ (hz ▸ fill_size_lt hd) hdc c.held.length rfl
      exact ⟨e, hr, he, ho.trans hdo⟩

theorem readUntil_found (hs : s.bytes = before ++ delimiter :: rest) (hb : delimiter ∉ before) :
    Reads (readUntil · delimiter) s (.ok before) (s.advance (before.length + 1)) := by
  intro c h
  have hb : ∀ x ∈ before, (x == delimiter) = false := fun x hx => by
    simpa using fun he : x = delimiter => hb (he ▸ hx)
  have ⟨d, hr, hd, ho⟩ := readField_found h hs hb (by simp) .delimited (Nat.zero_le _)
    (Nat.zero_le _)
  exact ⟨d, by simp only [readUntil, hr], hd, ho⟩

theorem readUntil_missing (hs : delimiter ∉ s.bytes) :
    Reads (readUntil · delimiter) s (.error (s.shortage .delimited)) s.warned := by
  intro c h
  have hs : ∀ x ∈ s.bytes, (x == delimiter) = false := fun x hx => by
    simpa using fun he : x = delimiter => hs (he ▸ hx)
  have ⟨d, hr, hd, ho⟩ := readField_missing h hs .delimited 0
  exact ⟨d, by simp only [readUntil, hr], hd, ho⟩

-- The byte that ends a token.
def TokenEnd.byte : TokenEnd → UInt8
  | space   => 32
  | newline => 10

theorem readToken_found (last : TokenEnd) (hs : s.bytes = before ++ last.byte :: rest)
    (hb : ∀ x ∈ before, x ≠ 32 ∧ x ≠ 10) :
    Reads readToken s (.ok (before, last)) (s.advance (before.length + 1)) := by
  intro c h
  have hb : ∀ x ∈ before, (x == 32 || x == 10) = false := fun x hx => by simpa using hb x hx
  have hl : (last.byte == 32 || last.byte == 10) = true := by cases last <;> rfl
  have ⟨d, hr, hd, ho⟩ := readField_found h hs hb hl .token (Nat.zero_le _) (Nat.zero_le _)
  refine ⟨d, ?_, hd, ho⟩
  rw [readToken, hr]
  cases last <;> rfl

theorem readToken_missing (hs : ∀ x ∈ s.bytes, x ≠ 32 ∧ x ≠ 10) :
    Reads readToken s (.error (s.shortage .token)) s.warned := by
  intro c h
  have hs : ∀ x ∈ s.bytes, (x == 32 || x == 10) = false := fun x hx => by simpa using hs x hx
  have ⟨d, hr, hd, ho⟩ := readField_missing h hs .token 0
  exact ⟨d, by rw [readToken, hr], hd, ho⟩

theorem readMessage_found (hs : s.bytes = text ++ 0 :: rest) (hb : 0 ∉ text) :
    Reads readMessage s (.ok (Utf8.decodeLossy text)) (s.advance (text.length + 1)) := by
  intro c h
  have ⟨d, hr, hd, ho⟩ := readUntil_found hs hb c h
  exact ⟨d, by simp only [readMessage, hr], hd, ho⟩

theorem readMessage_missing (hs : 0 ∉ s.bytes) :
    Reads readMessage s (.error (s.shortage .delimited)) s.warned := by
  intro c h
  have ⟨d, hr, hd, ho⟩ := readUntil_missing hs c h
  exact ⟨d, by simp only [readMessage, hr], hd, ho⟩

theorem atEnd_false (hs : s.cells ≠ []) : Reads atEnd s (.ok false) s := by
  intro c h
  unfold atEnd
  split
  case isTrue => exact ⟨c, rfl, h, rfl⟩
  case isFalse hn =>
    have hl := h.held_length
    obtain ⟨d, _, _, _, hh, _⟩ | ⟨n, d, hd, hdc, hdo, _⟩ := h.fill
    case inl =>
      have := List.length_pos_iff.mpr hs
      rw [hh, s.bytes_length] at hl
      omega
    case inr => exact ⟨d, by simp [hd], hdc, hdo⟩

theorem atEnd_nil (hs : s.cells = []) : Reads atEnd s (s.silence.map (· = 0)) s.warned := by
  intro c h
  have hl := h.held_length
  have ⟨hh, hq, _⟩ := h.held_of_cells_nil hs
  rw [hh, List.length_nil] at hl
  rw [atEnd, if_neg (by omega)]
  obtain ⟨d, hd, hdc, hdo, _⟩ | ⟨n, d, _, hdc, _, hdl⟩ := h.fill
  case inl =>
    refine ⟨d, ?_, hdc, hdo⟩
    rw [hd]
    cases s.silence <;> rfl
  case inr =>
    have := hdc.held_of_cells_nil hs
    simp [this.left] at hdl

theorem readMessage?_found (hs : s.bytes = text ++ 0 :: rest) (hb : 0 ∉ text) :
    Reads readMessage? s (.ok (some (Utf8.decodeLossy text))) (s.advance (text.length + 1)) := by
  intro c h
  have hn : s.cells ≠ [] := fun hn => by simp [Stream.bytes, hn] at hs
  obtain ⟨d, hr, hd, ho⟩ := atEnd_false hn c h
  obtain ⟨e, hr', he, ho'⟩ := readMessage_found hs hb d hd
  exact ⟨e, by simp only [readMessage?, hr, hr'], he, ho'.trans ho⟩

theorem readMessage?_missing (hs : 0 ∉ s.bytes) (hn : s.cells ≠ []) :
    Reads readMessage? s (.error (s.shortage .delimited)) s.warned := by
  intro c h
  have ⟨d, hr, hd, ho⟩ := atEnd_false hn c h
  have ⟨e, hr', he, ho'⟩ := readMessage_missing hs d hd
  exact ⟨e, by simp only [readMessage?, hr, hr'], he, ho'.trans ho⟩

theorem readMessage?_nil (hs : s.cells = []) :
    Reads readMessage? s (s.silence.map fun _ => none) s.warned := by
  intro c h
  have ⟨d, hr, hd, ho⟩ := atEnd_nil hs c h
  refine ⟨d, ?_, hd, ho⟩
  obtain hs | ⟨hs, _⟩ := s.silence_cases .delimited <;> simp [readMessage?, hr, hs, Except.map]

theorem readExact_enough (hs : count ≤ s.cells.length) :
    Reads (readExact · count) s (.ok (s.bytes.take count)) (s.advance count) := by
  intro c h
  induction hz : c.inbound.size using Nat.strongRecOn generalizing c s count
  case ind z hi =>
    have hh := h.held_eq
    by_cases hl : count ≤ c.held.length
    case pos =>
      refine ⟨_, ?_, h.consume hl, rfl⟩
      simp only [readExact_of_le hl]
      rw [hh, List.take_take, Nat.min_eq_left hl]
    case neg =>
      simp only [readExact_of_lt (Nat.not_le.mp hl)]
      obtain ⟨d, _, _, _, hb, _⟩ | ⟨n, d, hd, hdc, hdo, hds⟩ := h.fill_consumed
      case inl =>
        have := congrArg List.length hb
        rw [s.bytes_length] at this
        omega
      case inr =>
        simp only [hd]
        have hc : count - c.held.length ≤ (s.advance c.held.length).cells.length := by
          simp only [Stream.advance, List.length_drop]
          omega
        have ⟨e, hr, he, ho⟩ := hi _ (hz ▸ hds) hc d hdc rfl
        refine ⟨e, ?_, ?_, ho.trans hdo⟩
        · simp only [hr, Stream.advance_bytes]
          conv => enter [1, 1, 1, 1]; rw [hh]
          rw [← List.take_add, Nat.add_sub_cancel' (by omega)]
        · rwa [Stream.advance_advance, Nat.add_sub_cancel' (by omega)] at he

theorem readExact_short (hs : s.cells.length < count) :
    Reads (readExact · count) s (.error (s.shortage .fixed)) s.spent.warned := by
  intro c h
  induction hz : c.inbound.size using Nat.strongRecOn generalizing c s count
  case ind z hi =>
    have hl : c.held.length ≤ s.cells.length := s.bytes_length ▸ h.held_prefix.length_le
    simp only [readExact_of_lt (Nat.lt_of_le_of_lt hl hs)]
    obtain ⟨d, hd, hdc, hdo, _⟩ | ⟨n, d, hd, hdc, hdo, hds⟩ := h.fill_consumed
    case inl =>
      refine ⟨d, ?_, hdc, hdo⟩
      obtain hs | ⟨hs, hw⟩ := s.silence_cases .fixed
      case inl => simp only [hd, hs]
      case inr => simp only [hd, hs, hw]
    case inr =>
      simp only [hd]
      have hc : (s.advance c.held.length).cells.length < count - c.held.length := by
        simp only [Stream.advance, List.length_drop]
        omega
      have ⟨e, hr, he, ho⟩ := hi _ (hz ▸ hds) hc d hdc rfl
      refine ⟨e, ?_, ?_, ho.trans hdo⟩
      · simp only [hr, Stream.advance_shortage]
      · rwa [Stream.advance_spent hl] at he

theorem drain_go_eq (total : Nat) (c : Channel δ) :
    drain.go total c =
      match c.fill with
      | (.error e, d)    => (.error e, d)
      | (.ok 0, d)       => (.ok total, { d with start := 0, stop := 0, pending := [] })
      | (.ok (n + 1), d) =>
        drain.go (total + (n + 1)) { d with start := 0, stop := 0, pending := [] } := by
  rw [drain.go]
  split
  case h_1 hf => simp only [hf]
  case h_2 hf => simp only [hf]
  case h_3 hf => simp only [hf]

-- The stream without what has been received of it.
theorem Carries.emptied {c : Channel δ} (h : c.Carries s) (fds : List δ) :
    { c with start := 0, stop := 0, pending := fds }.Carries
      { s with cells := s.cells.drop c.held.length, loose := fds } := by
  have ⟨early, hb, hc, _⟩ := h.cells
  have hl : c.held.length = early.length := by rw [←hb, List.length_map]
  refine ⟨⟨Nat.le_refl _, Nat.zero_le _, h.capacity_pos, h.bytes_ne⟩, ⟨[], ?_, ?_, ?_⟩, h.ended, h.reset⟩
  · simp [held]
  · rw [←hc, hl, List.drop_left]
    rfl
  · simp

theorem drain_go {c : Channel δ} (h : c.Carries s) (hh : c.held = []) (he : s.ended)
    (hr : s.reset = false) (total : Nat) :
    ∃ d, drain.go total c = (.ok (total + s.cells.length), d) ∧
      d.Carries { s with cells := [], loose := [] } ∧ d.outgoing = c.outgoing := by
  induction hz : c.inbound.size using Nat.strongRecOn generalizing c s total
  case ind z hi =>
    rw [drain_go_eq]
    obtain ⟨d, hd, hdc, hdo, hb, hdh⟩ | ⟨n, d, hd, hdc, hdo, hdl⟩ := h.fill
    case inl =>
      have hs : s.cells = [] := by simpa [Stream.bytes] using hb.symm.trans hh
      have hc := hdc.emptied []
      simp only [Stream.warned, hs, List.drop_nil] at hc
      simp only [hd, Stream.silence, he, hr, hs]
      exact ⟨_, rfl, he ▸ hc, hdo⟩
    case inr =>
      simp only [hd]
      have hz' : d.inbound.size < z := hz ▸ fill_size_lt hd
      have hl : d.held.length ≤ s.cells.length := s.bytes_length ▸ hdc.held_prefix.length_le
      have hh' : { d with start := 0, stop := 0, pending := [] }.held = [] := by simp [held]
      obtain ⟨e, hr, he, ho⟩ := hi _ hz' (hdc.emptied []) hh' he hr (total + (n + 1)) rfl
      refine ⟨e, ?_, he, ho.trans hdo⟩
      rw [hr, List.length_drop]
      simp only [hh, List.length_nil] at hdl
      congr 2
      omega

theorem drain_reads (he : s.ended) (hr : s.reset = false) :
    Reads drain s (.ok s.cells.length) { s with cells := [], loose := [] } := by
  intro c h
  have hl : c.held.length ≤ s.cells.length := s.bytes_length ▸ h.held_prefix.length_le
  have hh : { c with start := 0, stop := 0 }.held = [] := by simp [held]
  obtain ⟨d, hd, hdc, hdo⟩ := drain_go (h.emptied c.pending) hh he hr c.held.length
  refine ⟨d, ?_, hdc, hdo⟩
  rw [List.length_drop, Nat.add_sub_cancel' hl] at hd
  exact hd

end FileBroker.Channel
