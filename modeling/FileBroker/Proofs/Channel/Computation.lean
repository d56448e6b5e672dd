import Mathlib
import FileBroker.Proofs.Channel.Reading
import FileBroker.Record

namespace FileBroker

variable {δ : Type} {s t u : Stream δ}

namespace Stream

-- `s` behind bytes that bring no descriptors.
def behind (s : Stream δ) (bytes : Bytes) : Stream δ :=
  { s with cells := bytes.map (·, []) ++ s.cells }

@[simp] theorem behind_bytes (s : Stream δ) (bytes : Bytes) :
    (s.behind bytes).bytes = bytes ++ s.bytes := by
  simp [behind, Stream.bytes, Function.comp_def]

theorem behind_bytes_past (s : Stream δ) (before : Bytes) (last : UInt8) :
    (s.behind (before ++ [last])).bytes = before ++ last :: s.bytes := by
  simp

theorem behind_append (s : Stream δ) (front back : Bytes) :
    s.behind (front ++ back) = (s.behind back).behind front := by
  simp [behind]

theorem behind_advance (s : Stream δ) (bytes : Bytes) : (s.behind bytes).advance bytes.length = s := by
  have hn : bytes.flatMap (fun _ => ([] : List δ)) = [] := List.flatMap_eq_nil_iff.mpr fun _ _ => rfl
  simp [behind, advance, List.flatMap_map, hn]

theorem behind_advance_past (s : Stream δ) (before : Bytes) (last : UInt8) :
    (s.behind (before ++ [last])).advance (before.length + 1) = s := by
  have := s.behind_advance (before ++ [last])
  rwa [List.length_append, List.length_singleton] at this

end Stream

namespace Channel

-- Reading up to a byte that is searched for, which goes with what is before it.
theorem readUntil_behind (hb : delimiter ∉ before) :
    Reads (readUntil · delimiter) (s.behind (before ++ [delimiter])) (.ok before) s := by
  have := readUntil_found (s.behind_bytes_past before delimiter) hb
  rwa [Stream.behind_advance_past] at this

theorem readToken_behind (last : TokenEnd) (hb : ∀ b ∈ before, b ≠ 32 ∧ b ≠ 10) :
    Reads readToken (s.behind (before ++ [last.byte])) (.ok (before, last)) s := by
  have := readToken_found last (s.behind_bytes_past before last.byte) hb
  rwa [Stream.behind_advance_past] at this

theorem readMessage_behind (hb : 0 ∉ text) :
    Reads readMessage (s.behind (text ++ [0])) (.ok (Utf8.decodeLossy text)) s := by
  have := readMessage_found (s.behind_bytes_past text 0) hb
  rwa [Stream.behind_advance_past] at this

theorem readExact_behind (bytes : Bytes) :
    Reads (readExact · bytes.length) (s.behind bytes) (.ok bytes) s := by
  have hl : bytes.length ≤ (s.behind bytes).cells.length := by simp [Stream.behind]
  have := readExact_enough hl
  rwa [Stream.behind_bytes, List.take_left, Stream.behind_advance] at this

-- Descriptors that came with bytes read before are at hand, whatever else has arrived early.
theorem takeFds_reads (h : count ≤ s.loose.length) :
    Reads (takeFds · count) s (s.loose.take count) { s with loose := s.loose.drop count } := by
  intro c hc
  have ⟨early, hb, hcells, hp⟩ := hc.cells
  refine ⟨{ c with pending := s.loose.drop count ++ early.flatMap (·.2) }, ?_,
    ⟨⟨hc.start_le, hc.stop_le, hc.capacity_pos, hc.bytes_ne⟩, ⟨early, hb, hcells, rfl⟩,
      hc.ended, hc.reset⟩, rfl⟩
  simp only [takeFds, hp, List.take_append_of_le_length h, List.drop_append_of_le_length h]

end Channel

namespace Reading

-- A computation run on a channel.
def on (m : Reading δ ε α) (c : Channel δ) : Except ε α × Channel δ :=
  m c

-- What a computation makes of a stream.
abbrev Yields (m : Reading δ ε α) (s : Stream δ) (r : Except ε α) (t : Stream δ) : Prop :=
  Channel.Reads m.on s r t

theorem yields_pure (a : α) : Yields (pure a : Reading δ ε α) s (.ok a) s :=
  fun c hc => ⟨c, rfl, hc, rfl⟩

theorem yields_lift {x : Except ε α} (h : x = .ok a) :
    Yields (liftM x : Reading δ ε α) s (.ok a) s :=
  fun c hc => ⟨c, by subst h; rfl, hc, rfl⟩

theorem bind_on (m : Reading δ ε α) (f : α → Reading δ ε β) (c : Channel δ) :
    (m >>= f).on c =
      match m.on c with
      | (.ok a, d)    => (f a).on d
      | (.error e, d) => (.error e, d) := by
  change (ExceptT.bindCont f (m c).1) (m c).2 = _
  unfold on
  split
  case h_1 h => rw [h]; rfl
  case h_2 h => rw [h]; rfl

-- What has been returned was returned by both parts.
theorem bind_ok {m : Reading δ ε α} {f : α → Reading δ ε β} {c e : Channel δ}
    (h : (m >>= f).on c = (.ok b, e)) : ∃ a d, m.on c = (.ok a, d) ∧ (f a).on d = (.ok b, e) := by
  rw [bind_on] at h
  rcases hm : m.on c with ⟨_ | a, d⟩
  case error => simp [hm] at h
  case ok    =>
    simp only [hm] at h
    exact ⟨a, d, rfl, h⟩

theorem pure_ok {a : α} {c : Channel δ} (h : (pure a : Reading δ ε α).on c = (.ok b, d)) :
    b = a ∧ d = c := by
  cases h
  exact ⟨rfl, rfl⟩

theorem io_on (step : Channel δ → Except IoError α × Channel δ) (c : Channel δ) :
    (io step).on c =
      match step c with
      | (.ok a, d)    => (.ok a, d)
      | (.error e, d) => (.error (.io e), d) :=
  rfl

theorem io_ok {step : Channel δ → Except IoError α × Channel δ} {c d : Channel δ}
    (h : (io step).on c = (.ok a, d)) : step c = (.ok a, d) := by
  rw [io_on] at h
  rcases hs : step c with ⟨_ | _, _⟩
  case error => simp [hs] at h
  case ok    =>
    simp only [hs, Prod.mk.injEq, Except.ok.injEq] at h
    rw [h.left, h.right]

theorem Yields.bind {m : Reading δ ε α} {f : α → Reading δ ε β} (hm : Yields m s (.ok a) t)
    (hf : Yields (f a) t r u) : Yields (m >>= f) s r u := by
  intro c hc
  have ⟨d, hd, hdc, hdo⟩ := hm c hc
  have ⟨e, he, hec, heo⟩ := hf d hdc
  exact ⟨e, by simp only [bind_on, hd, he], hec, heo.trans hdo⟩

theorem Yields.map {m : Reading δ ε α} (h : Yields m s (.ok a) t) (f : α → β) :
    Yields (f <$> m) s (.ok (f a)) t := by
  rw [←bind_pure_comp]
  exact h.bind <| yields_pure _

theorem Yields.bind_error {m : Reading δ ε α} {f : α → Reading δ ε β}
    (hm : Yields m s (.error e) t) : Yields (m >>= f) s (.error e) t := by
  intro c hc
  have ⟨d, hd, hdc, hdo⟩ := hm c hc
  exact ⟨d, by rw [bind_on, hd], hdc, hdo⟩

theorem yields_io {step : Channel δ → Except IoError α × Channel δ}
    (h : Channel.Reads step s (.ok a) t) : Yields (io step) s (.ok a) t := by
  intro c hc
  obtain ⟨d, hd, hdc, hdo⟩ := h c hc
  refine ⟨d, ?_, hdc, hdo⟩
  rw [io_on, hd]

theorem yields_io_error {step : Channel δ → Except IoError α × Channel δ}
    (h : Channel.Reads step s (.error e) t) : Yields (io step) s (.error (.io e)) t := by
  intro c hc
  obtain ⟨d, hd, hdc, hdo⟩ := h c hc
  refine ⟨d, ?_, hdc, hdo⟩
  rw [io_on, hd]

theorem yields_modifyGet {step : Channel δ → α × Channel δ} (h : Channel.Reads step s a t) :
    Yields (modifyGet step : Reading δ ε α) s (.ok a) t := by
  intro c hc
  have ⟨d, hd, hdc, hdo⟩ := h c hc
  refine ⟨d, ?_, hdc, hdo⟩
  change (Except.ok (step c).1, (step c).2) = _
  rw [hd]

end Reading

end FileBroker
