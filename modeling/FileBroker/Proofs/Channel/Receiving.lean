import Mathlib
import FileBroker.Proofs.Channel.Computation
import FileBroker.Proofs.Stat.Decoding

namespace FileBroker

variable {δ : Type}

-- The descriptors that arrive with some bytes, in their order.
def attached (cells : List (Cell δ)) : List δ :=
  cells.flatMap (·.2)

@[simp] theorem attached_append (front back : List (Cell δ)) :
    attached (front ++ back) = attached front ++ attached back :=
  List.flatMap_append

namespace Channel

-- Between `c` and `d`, the cells `new` have come in.
structure Receives (c : Channel δ) (new : List (Cell δ)) (d : Channel δ) : Prop where
  wf       : d.Wf
  cells    : c.inbound.cells = new ++ d.inbound.cells
  pending  : d.pending = c.pending ++ attached new
  outgoing : d.outgoing = c.outgoing

variable {c d e : Channel δ}

theorem Receives.refl (h : c.Wf) : c.Receives [] c :=
  ⟨h, rfl, (List.append_nil _).symm, rfl⟩

theorem Receives.trans (h : c.Receives new d) (h' : d.Receives more e) : c.Receives (new ++ more) e where
  wf       := h'.wf
  cells    := by rw [h.cells, h'.cells, List.append_assoc]
  pending  := by rw [h'.pending, h.pending, attached_append, List.append_assoc]
  outgoing := h'.outgoing.trans h.outgoing

theorem consume_receives (h : c.Wf) (hn : n ≤ c.held.length) : c.Receives [] (c.consume n) :=
  ⟨(h.carries.consume hn).toWf, rfl, (List.append_nil _).symm, rfl⟩

-- Nothing has been read between `c` and `d`, so what has come in is all there, behind what was there.
structure Keeps (c : Channel δ) (new : List (Cell δ)) (d : Channel δ) : Prop
    extends c.Receives new d where
  held : d.held = c.held ++ new.map (·.1)

theorem Keeps.refl (h : c.Wf) : c.Keeps [] c :=
  ⟨.refl h, (List.append_nil _).symm⟩

theorem Keeps.trans (h : c.Keeps new d) (h' : d.Keeps more e) : c.Keeps (new ++ more) e where
  toReceives := h.toReceives.trans h'.toReceives
  held       := by rw [h'.held, h.held, List.map_append, List.append_assoc]

-- A channel that still carries the stream of `c`, and has not read any of it, can only have received
-- more of it.
theorem Carries.keeps {reset : Bool} (h : d.Carries { c.stream with reset })
    (hl : c.held.length ≤ d.held.length) (ho : d.outgoing = c.outgoing) : ∃ new, c.Keeps new d := by
  have ⟨early, hb, hc, hp⟩ := h.cells
  have hle : (c.held.map (·, ([] : List δ))).length ≤ early.length := by
    rwa [List.length_map, ←List.length_map (f := Prod.fst), hb]
  have ⟨new, hn⟩ := List.prefix_of_prefix_length_le ⟨c.inbound.cells, rfl⟩ ⟨d.inbound.cells, hc⟩ hle
  subst hn
  refine ⟨new, ⟨h.toWf, ?_, ?_, ho⟩, ?_⟩
  · rw [List.append_assoc] at hc
    exact (List.append_cancel_left hc).symm
  · rw [hp, List.flatMap_append, List.flatMap_map, List.flatMap_eq_nil_iff.mpr fun _ _ => rfl]
    rfl
  · simp [←hb, Function.comp_def]

theorem fill_keeps (h : c.Wf) : ∃ new, c.Keeps new c.fill.2 := by
  obtain ⟨d, hd, hdc, ho, _, hh⟩ | ⟨n, d, hd, hdc, ho, hl⟩ := h.carries.fill
  case inl => exact hd ▸ hdc.keeps (Nat.le_of_eq <| congrArg _ hh.symm) ho
  case inr => exact hd ▸ hdc.keeps (by omega) ho

theorem fill_receives (h : c.Wf) : ∃ new, c.Receives new c.fill.2 :=
  (fill_keeps h).imp fun _ h => h.toReceives

theorem fill_consumed_receives (h : c.Wf) (hn : n ≤ c.held.length) :
    ∃ new, c.Receives new (c.consume n).fill.2 :=
  have hc := consume_receives h hn
  have ⟨new, hf⟩ := fill_receives hc.wf
  ⟨new, hc.trans hf⟩

theorem readField_receives (h : c.Wf) (ends : UInt8 → Bool) (what : Unfinished) (scanned : Nat) :
    ∃ new, c.Receives new (c.readField ends what scanned).2 := by
  induction hz : c.inbound.size using Nat.strongRecOn generalizing c scanned
  case ind z hi =>
    rw [readField_eq]
    split
    case h_1 i hf =>
      have := (List.findIdx?_eq_some_iff_getElem.mp hf).1
      rw [List.length_drop] at this
      exact ⟨[], consume_receives h (by omega)⟩
    case h_2 =>
      obtain ⟨new, hr⟩ := fill_receives h
      rcases hf : c.fill with ⟨_ | _ | _, d⟩
      all_goals rw [hf] at hr
      case error   => exact ⟨new, hr⟩
      case ok.zero => exact ⟨new, hr⟩
      case ok.succ =>
        obtain ⟨more, hm⟩ := hi _ (hz ▸ fill_size_lt hf) hr.wf c.held.length rfl
        exact ⟨new ++ more, hr.trans hm⟩

theorem readUntil_receives (h : c.Wf) (delimiter : UInt8) :
    ∃ new, c.Receives new (c.readUntil delimiter).2 := by
  have ⟨new, hr⟩ := readField_receives h (· == delimiter) .delimited 0
  refine ⟨new, ?_⟩
  unfold readUntil
  split
  all_goals simp_all

theorem readToken_receives (h : c.Wf) : ∃ new, c.Receives new c.readToken.2 := by
  have ⟨new, hr⟩ := readField_receives h (fun b => b == 32 || b == 10) .token 0
  refine ⟨new, ?_⟩
  unfold readToken
  split
  all_goals simp_all

theorem readMessage_receives (h : c.Wf) : ∃ new, c.Receives new c.readMessage.2 := by
  have ⟨new, hr⟩ := readUntil_receives h 0
  refine ⟨new, ?_⟩
  unfold readMessage
  split
  all_goals simp_all

theorem atEnd_keeps (h : c.Wf) : ∃ new, c.Keeps new c.atEnd.2 := by
  unfold atEnd
  split
  case isTrue  => exact ⟨[], .refl h⟩
  case isFalse =>
    have ⟨new, hk⟩ := fill_keeps h
    refine ⟨new, ?_⟩
    split
    all_goals simp_all

theorem atEnd_receives (h : c.Wf) : ∃ new, c.Receives new c.atEnd.2 :=
  (atEnd_keeps h).imp fun _ h => h.toReceives

theorem readExact_receives (h : c.Wf) (count : Nat) : ∃ new, c.Receives new (c.readExact count).2 := by
  induction hz : c.inbound.size using Nat.strongRecOn generalizing c count
  case ind z hi =>
    by_cases hl : count ≤ c.held.length
    case pos => exact ⟨[], by rw [readExact_of_le hl]; exact consume_receives h hl⟩
    case neg =>
      rw [readExact_of_lt (Nat.not_le.mp hl)]
      have ⟨new, hr⟩ := fill_consumed_receives h (Nat.le_refl _)
      rcases hf : (c.consume c.held.length).fill with ⟨_ | _ | _, d⟩
      all_goals rw [hf] at hr
      case error   => exact ⟨new, hr⟩
      case ok.zero => exact ⟨new, hr⟩
      case ok.succ =>
        have ⟨more, hm⟩ := hi _ (hz ▸ fill_size_lt (c := c.consume _) hf) hr.wf (count - c.held.length) rfl
        refine ⟨new ++ more, hr.trans ?_⟩
        dsimp only
        split
        all_goals simp_all

-- No reader takes more than there is.
theorem readWith_receives {take : σ → Bytes → σ × Nat} (ht : ∀ s chunk, (take s chunk).2 ≤ chunk.length)
    (h : c.Wf) (done : σ → Bool) (s : σ) : ∃ new, c.Receives new (c.readWith take done s).2 := by
  induction hz : c.inbound.size using Nat.strongRecOn generalizing c s
  case ind z hi =>
    rw [StatDecoder.readWith_eq]
    dsimp only
    generalize hfed : (if c.start < c.stop then take s c.held else (s, 0)) = fed
    have hl : fed.2 ≤ c.held.length := by
      subst hfed
      split
      case isTrue  => exact ht s c.held
      case isFalse => exact Nat.zero_le _
    split
    case isTrue  => exact ⟨[], consume_receives h hl⟩
    case isFalse =>
      have ⟨new, hr⟩ := fill_consumed_receives h hl
      rcases hf : (c.consume fed.2).fill with ⟨_ | _ | _, d⟩
      all_goals rw [hf] at hr
      case error   => exact ⟨new, hr⟩
      case ok.zero => exact ⟨new, hr⟩
      case ok.succ =>
        have ⟨more, hm⟩ := hi _ (hz ▸ fill_size_lt (c := c.consume _) hf) hr.wf fed.1 rfl
        exact ⟨new ++ more, hr.trans hm⟩

end Channel

theorem StatDecoder.feed_le (decoder : StatDecoder) (chunk : Bytes) :
    (decoder.feed chunk).2 ≤ chunk.length := by
  unfold feed
  split
  case isTrue  => exact Nat.zero_le _
  case isFalse =>
    dsimp only
    split
    case isTrue  => simp
    case isFalse =>
      simp only [List.length_take, List.length_drop]
      omega

namespace Reading

open Channel

-- A computation that claims no descriptor, whatever comes of it.
def Collects (m : Reading δ ε α) : Prop :=
  ∀ c : Channel δ, c.Wf → ∃ new, c.Receives new (m.on c).2

theorem collects_pure (a : α) : Collects (pure a : Reading δ ε α) :=
  fun c h => ⟨[], .refl (c := c) h⟩

theorem collects_throw (e : ε) : Collects (throw e : Reading δ ε α) :=
  fun c h => ⟨[], .refl (c := c) h⟩

theorem collects_lift (x : Except ε α) : Collects (liftM x : Reading δ ε α) :=
  fun c h => ⟨[], by cases x <;> exact .refl h⟩

theorem Collects.bind {m : Reading δ ε α} {f : α → Reading δ ε β} (hm : Collects m)
    (hf : ∀ a, Collects (f a)) : Collects (m >>= f) := by
  intro c h
  have ⟨new, hr⟩ := hm c h
  rw [bind_on]
  rcases he : m.on c with ⟨_ | a, d⟩
  all_goals rw [he] at hr
  case error => exact ⟨new, hr⟩
  case ok    =>
    have ⟨more, hm⟩ := hf a d hr.wf
    exact ⟨new ++ more, hr.trans hm⟩

theorem Collects.map {m : Reading δ ε α} (hm : Collects m) (f : α → β) : Collects (f <$> m) := by
  rw [←bind_pure_comp]
  exact hm.bind fun _ => collects_pure _

theorem collects_io {step : Channel δ → Except IoError α × Channel δ}
    (hs : ∀ c : Channel δ, c.Wf → ∃ new, c.Receives new (step c).2) : Collects (io step) := by
  intro c h
  have ⟨new, hr⟩ := hs c h
  refine ⟨new, ?_⟩
  rw [io_on]
  split
  all_goals simp_all

theorem Collects.guard {m : Reading δ FrameError α} {p : Prop} [Decidable p] {cause : Malformed}
    {f : α' → Reading δ FrameError α} (h : Collects m) :
    Collects (if p then malformed cause >>= f else m) := by
  split
  case isTrue  => exact collects_throw (FrameError.malformed cause)
  case isFalse => exact h

theorem Collects.of_on {m : Reading δ ε α} (hm : Collects m) {c d : Channel δ} (h : c.Wf)
    (hr : m.on c = (r, d)) : ∃ new, c.Receives new d := by
  have := hm c h
  rwa [hr] at this

end Reading

end FileBroker
