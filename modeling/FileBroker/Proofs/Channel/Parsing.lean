import Mathlib
import FileBroker.Proofs.Channel.Computation
import FileBroker.Proofs.Channel.Frame

namespace FileBroker

variable {δ : Type} {c d e : Channel δ}

namespace Channel

-- Reading `front` off `c` has left `d`. The descriptors at hand are not accounted for.
structure Past (c : Channel δ) (front : Bytes) (d : Channel δ) : Prop where
  wf       : d.Wf
  unread   : c.unread = front ++ d.unread
  ended    : d.inbound.ended = c.inbound.ended
  reset    : d.inbound.reset = c.inbound.reset
  outgoing : d.outgoing = c.outgoing

theorem Past.refl (h : c.Wf) : c.Past [] c :=
  ⟨h, rfl, rfl, rfl, rfl⟩

theorem Past.trans (h : c.Past front d) (h' : d.Past back e) : c.Past (front ++ back) e where
  wf       := h'.wf
  unread   := by rw [h.unread, h'.unread, List.append_assoc]
  ended    := h'.ended.trans h.ended
  reset    := h'.reset.trans h.reset
  outgoing := h'.outgoing.trans h.outgoing

-- The stream says of the rest what has been read of it.
theorem Past.of_carries {s : Stream δ} (hc : c.Carries s) (hs : s.bytes = front ++ rest)
    (hd : d.Carries (s.advance front.length)) (ho : d.outgoing = c.outgoing) :
    c.Past front d ∧ d.unread = rest := by
  have hr : d.unread = rest := by
    rw [hd.unread_eq, Stream.advance_bytes, hs, List.drop_left]
  refine ⟨⟨hd.toWf, ?_, hd.ended.trans hc.ended.symm, hd.reset.trans hc.reset.symm, ho⟩, hr⟩
  rw [hr, hc.unread_eq, hs]

theorem takeFds_past (h : c.Wf) (count : Nat) : c.Past [] (c.takeFds count).2 :=
  ⟨⟨h.start_le, h.stop_le, h.capacity_pos, h.bytes_ne⟩, rfl, rfl, rfl, rfl⟩

end Channel

namespace Reading

-- `m` reads exactly the bytes that mean something, as far as `view` shows what it returns, and
-- whatever it reads it takes no part in sending.
structure Accepts (m : Reading δ ε α) (view : α → β) (means : β → Bytes → Prop) : Prop where
  sound {c d : Channel δ} {a : α} :
    c.Wf → m.on c = (.ok a, d) → ∃ front, c.Past front d ∧ means (view a) front
  complete {c : Channel δ} {front rest : Bytes} {b : β} :
    c.Wf → c.unread = front ++ rest → means b front →
      ∃ a d, m.on c = (.ok a, d) ∧ view a = b ∧ d.unread = rest
  silent : Channel.Silent m.on

-- One meaning after the other, of which the second can depend on the first.
def Then (means : β → Bytes → Prop) (next : β → γ → Bytes → Prop) (b : γ) (bytes : Bytes) : Prop :=
  ∃ a front back, bytes = front ++ back ∧ means a front ∧ next a b back

namespace Accepts

variable {m : Reading δ ε α} {view : α → β} {means means' : β → Bytes → Prop}

theorem congr (h : Accepts m view means) (hm : ∀ b bytes, means b bytes ↔ means' b bytes) :
    Accepts m view means' where
  sound hc hr := by
    have ⟨front, hp, hf⟩ := h.sound hc hr
    exact ⟨front, hp, (hm _ _).mp hf⟩
  complete hc hu hb := h.complete hc hu <| (hm _ _).mpr hb
  silent := h.silent

theorem pure (a : α) : Accepts (pure a : Reading δ ε α) view fun b bytes => b = view a ∧ bytes = [] where
  sound hc hr := by
    obtain ⟨rfl, rfl⟩ := pure_ok hr
    exact ⟨[], .refl hc, rfl, rfl⟩
  complete hc hu hb := by
    obtain ⟨rfl, rfl⟩ := hb
    exact ⟨a, _, rfl, rfl, hu⟩
  silent _ _ := rfl

theorem lift (x : Except ε α) :
    Accepts (liftM x : Reading δ ε α) id fun a bytes => x = .ok a ∧ bytes = [] where
  sound hc hr := by
    cases x
    case error => cases hr
    case ok    => cases hr; exact ⟨[], .refl hc, rfl, rfl⟩
  complete {c _ _ a} _ hu hb := by
    obtain ⟨rfl, rfl⟩ := hb
    exact ⟨a, c, rfl, rfl, hu⟩
  silent _ _ := by cases x <;> rfl

theorem bind {means : α → Bytes → Prop} {f : α → Reading δ ε α'} {view : α' → β}
    {next : α → β → Bytes → Prop} (hm : Accepts m id means) (hf : ∀ a, Accepts (f a) view (next a)) :
    Accepts (m >>= f) view (Then means next) where
  sound hc hr := by
    have ⟨a, d, hd, he⟩ := bind_ok hr
    have ⟨front, hp, ha⟩ := hm.sound hc hd
    have ⟨back, hp', hb⟩ := (hf a).sound hp.wf he
    exact ⟨front ++ back, hp.trans hp', a, front, back, rfl, ha, hb⟩
  complete hc hu hb := by
    obtain ⟨a, front, back, rfl, ha, hb⟩ := hb
    rw [List.append_assoc] at hu
    obtain ⟨a, d, hd, rfl, hdu⟩ := hm.complete hc hu ha
    have ⟨_, hp, _⟩ := hm.sound hc hd
    have ⟨a', e, he, hv, heu⟩ := (hf a).complete hp.wf hdu hb
    exact ⟨a', e, by simp only [bind_on, hd, he], hv, heu⟩
  silent c o := by
    rw [bind_on, bind_on, hm.silent]
    match m.on c with
    | (.ok a, d)    => exact (hf a).silent d o
    | (.error _, _) => rfl

theorem map {means : α → Bytes → Prop} (h : Accepts m id means) (f : α → α') :
    Accepts (f <$> m) id fun b bytes => ∃ a, b = f a ∧ means a bytes := by
  rw [←bind_pure_comp]
  refine (h.bind fun a => .pure (f a)).congr fun b bytes => ⟨?_, ?_⟩
  case refine_1 =>
    rintro ⟨a, front, _, rfl, ha, rfl, rfl⟩
    exact ⟨a, rfl, by rwa [List.append_nil]⟩
  case refine_2 =>
    rintro ⟨a, rfl, ha⟩
    exact ⟨a, bytes, [], (List.append_nil _).symm, ha, rfl, rfl⟩

theorem present (h : Accepts m view means) :
    Accepts (m >>= fun a => Pure.pure (some a)) (Option.map view)
      fun b? bytes => ∃ b, b? = some b ∧ means b bytes where
  sound hc hr := by
    have ⟨a, _, hd, he⟩ := bind_ok hr
    obtain ⟨rfl, rfl⟩ := pure_ok he
    have ⟨front, hp, hb⟩ := h.sound hc hd
    exact ⟨front, hp, view a, rfl, hb⟩
  complete hc hu hb := by
    obtain ⟨_, rfl, hb⟩ := hb
    obtain ⟨a, d, hd, rfl, hdu⟩ := h.complete hc hu hb
    exact ⟨some a, d, by rw [bind_on, hd]; rfl, rfl, hdu⟩
  silent c o := by
    rw [bind_on, bind_on, h.silent]
    match m.on c with
    | (.ok a, d)    => rfl
    | (.error _, _) => rfl

-- A computation that cannot succeed accepts nothing.
theorem malformed (cause : Malformed) :
    Accepts (Reading.malformed cause : Reading δ FrameError α) view fun _ _ => False where
  sound _ hr      := by cases hr
  complete _ _ hb := hb.elim
  silent _ _      := rfl

theorem malformed_bind (cause : Malformed) (f : α' → Reading δ FrameError α) :
    Accepts (Reading.malformed cause >>= f) view fun _ _ => False where
  sound _ hr      := by cases hr
  complete _ _ hb := hb.elim
  silent _ _      := rfl

theorem guard {m : Reading δ FrameError α} {p : Prop} [Decidable p] {cause : Malformed}
    {f : α' → Reading δ FrameError α} (h : ¬p → Accepts m view means) :
    Accepts (if p then Reading.malformed cause >>= f else m) view fun b bytes => ¬p ∧ means b bytes := by
  split
  case isTrue hp  => exact (malformed_bind cause f).congr fun _ _ => ⟨False.elim, fun ⟨hn, _⟩ => hn hp⟩
  case isFalse hp => exact (h hp).congr fun _ _ => ⟨.intro hp, And.right⟩

-- An operation that finds what it looks for in some streams, and fails on all the others.
theorem io {step : Channel δ → Except IoError α × Channel δ} {means : α → Bytes → Prop}
    (found : ∀ (s : Stream δ) a front rest, s.bytes = front ++ rest → means a front →
      Channel.Reads step s (.ok a) (s.advance front.length))
    (missing : ∀ s : Stream δ, (∃ a front rest, s.bytes = front ++ rest ∧ means a front) ∨
      ∃ e t, Channel.Reads step s (.error e) t)
    (silent : Channel.Silent step) :
    Accepts (Reading.io step) id means where
  sound {c _ _} hc hr := by
    have hr := io_ok hr
    obtain ⟨a, front, rest, hs, ha⟩ | ⟨e, t, he⟩ := missing c.stream
    case inl =>
      have ⟨d, hd, hdc, hdo⟩ := found _ _ _ _ hs ha c hc.carries
      cases hd.symm.trans hr
      exact ⟨front, (Channel.Past.of_carries hc.carries hs hdc hdo).left, ha⟩
    case inr =>
      have ⟨d, hd, _⟩ := he c hc.carries
      cases hd.symm.trans hr
  complete {c front rest a} hc hu ha := by
    have hs := hc.stream_bytes.trans hu
    have ⟨d, hd, hdc, hdo⟩ := found _ _ _ _ hs ha c hc.carries
    exact ⟨a, d, by rw [io_on, hd], rfl, (Channel.Past.of_carries hc.carries hs hdc hdo).right⟩
  silent c o := by
    rw [io_on, io_on, silent]
    match step c with
    | (.ok a, d)    => rfl
    | (.error e, d) => rfl

-- The first byte that ends a field, with what is before it.
theorem first_end (ends : UInt8 → Bool) (bytes : Bytes) :
    (∃ before b rest, bytes = before ++ b :: rest ∧ ends b ∧ ∀ x ∈ before, ends x = false) ∨
      ∀ x ∈ bytes, ends x = false := by
  match hf : bytes.find? ends with
  | none   => exact .inr fun x hx => by simpa using List.find?_eq_none.mp hf x hx
  | some b =>
    obtain ⟨hb, before, rest, rfl, hn⟩ := List.find?_eq_some_iff_append.mp hf
    exact .inl ⟨before, b, rest, rfl, hb, fun x hx => by simpa using hn x hx⟩

theorem readUntil (delimiter : UInt8) :
    Accepts (Reading.io (δ := δ) (Channel.readUntil · delimiter)) id fun before bytes =>
      bytes = before ++ [delimiter] ∧ delimiter ∉ before := by
  refine .io ?found ?missing (Channel.readUntil_silent delimiter)
  case found =>
    rintro s before _ rest hs ⟨rfl, hb⟩
    rw [List.append_assoc] at hs
    rw [List.length_append]
    exact Channel.readUntil_found hs hb
  case missing =>
    intro s
    by_cases hs : delimiter ∈ s.bytes
    case pos =>
      have ⟨before, rest, hb, hn⟩ := List.eq_append_cons_of_mem hs
      exact .inl ⟨before, _, rest, by rw [hb, List.append_cons], rfl, hn⟩
    case neg => exact .inr ⟨_, _, Channel.readUntil_missing hs⟩

theorem readMessage :
    Accepts (Reading.io (δ := δ) Channel.readMessage) id fun message bytes =>
      ∃ text, bytes = text ++ [0] ∧ 0 ∉ text ∧ message = Utf8.decodeLossy text := by
  refine .io ?found ?missing Channel.readMessage_silent
  case found =>
    rintro s _ _ rest hs ⟨text, rfl, ht, rfl⟩
    rw [List.append_assoc] at hs
    rw [List.length_append]
    exact Channel.readMessage_found hs ht
  case missing =>
    intro s
    by_cases hs : 0 ∈ s.bytes
    case pos =>
      have ⟨text, rest, hb, ht⟩ := List.eq_append_cons_of_mem hs
      exact .inl ⟨_, text ++ [0], rest, by rw [hb, List.append_cons], text, rfl, ht, rfl⟩
    case neg => exact .inr ⟨_, _, Channel.readMessage_missing hs⟩

theorem readToken :
    Accepts (Reading.io (δ := δ) Channel.readToken) id fun token bytes =>
      bytes = token.1 ++ [token.2.byte] ∧ ∀ b ∈ token.1, b ≠ 32 ∧ b ≠ 10 := by
  refine .io ?found ?missing Channel.readToken_silent
  case found =>
    rintro s ⟨before, last⟩ _ rest hs ⟨rfl, hb⟩
    rw [List.append_assoc] at hs
    rw [List.length_append]
    exact Channel.readToken_found last hs hb
  case missing =>
    intro s
    obtain ⟨before, b, rest, hs, hb, hn⟩ | hn := first_end (fun b => b == 32 || b == 10) s.bytes
    case inl =>
      have hn : ∀ x ∈ before, x ≠ 32 ∧ x ≠ 10 := by simpa using hn
      have ⟨last, hl⟩ : ∃ last : Channel.TokenEnd, last.byte = b := by
        obtain rfl | rfl : b = 32 ∨ b = 10 := by simpa using hb
        · exact ⟨.space, rfl⟩
        · exact ⟨.newline, rfl⟩
      exact .inl ⟨(before, last), _, rest, by rw [hs, hl, List.append_cons], rfl, hn⟩
    case inr =>
      have hn : ∀ x ∈ s.bytes, x ≠ 32 ∧ x ≠ 10 := by simpa using hn
      exact .inr ⟨_, _, Channel.readToken_missing hn⟩

theorem readExact (count : Nat) :
    Accepts (Reading.io (δ := δ) (Channel.readExact · count)) id fun read bytes =>
      bytes = read ∧ read.length = count := by
  refine .io ?found ?missing (Channel.readExact_silent count)
  case found =>
    rintro s _ bytes rest hs ⟨rfl, rfl⟩
    have hl : bytes.length ≤ s.cells.length := by simp [←s.bytes_length, hs]
    have := Channel.readExact_enough hl
    rwa [hs, List.take_left] at this
  case missing =>
    intro s
    by_cases hl : count ≤ s.cells.length
    case pos =>
      refine .inl ⟨_, s.bytes.take count, s.bytes.drop count, (List.take_append_drop ..).symm, rfl, ?_⟩
      rw [List.length_take, s.bytes_length, Nat.min_eq_left hl]
    case neg => exact .inr ⟨_, _, Channel.readExact_short <| Nat.not_le.mp hl⟩

-- An operation on what is at hand, which reads nothing. Which descriptors are at hand depends on how far
-- the stream has been received, so that nothing may depend on what comes of it.
theorem aside {step : Channel δ → α' × Channel δ} {f : α' → Reading δ ε α} {view : α → β}
    (hp : ∀ c : Channel δ, c.Wf → c.Past [] (step c).2) (hs : Channel.Silent step)
    (hf : ∀ a, Accepts (f a) view means) :
    Accepts ((modifyGet step : Reading δ ε α') >>= f) view means where
  sound {c _ _} hc hr := by
    have ⟨front, hp', ha⟩ := (hf _).sound (hp c hc).wf hr
    exact ⟨front, (hp c hc).trans hp', ha⟩
  complete {c _ _ _} hc hu hb := (hf _).complete (hp c hc).wf ((hp c hc).unread.symm.trans hu) hb
  silent c o := by
    have hm (c : Channel δ) : ((modifyGet step : Reading δ ε α') >>= f).on c = (f (step c).1).on (step c).2 :=
      rfl
    rw [hm, hm, hs c o]
    exact (hf _).silent (step c).2 o

theorem takeFds {f : List δ → Reading δ ε α} {view : α → β} (hf : ∀ fds, Accepts (f fds) view means)
    (count : Nat) :
    Accepts ((modifyGet (Channel.takeFds · count) : Reading δ ε (List δ)) >>= f) view means :=
  aside (fun _ hc => Channel.takeFds_past hc count) (fun _ _ => rfl) hf

end Accepts

end Reading

end FileBroker
