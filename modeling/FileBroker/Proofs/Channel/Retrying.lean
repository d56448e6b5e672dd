import Mathlib
import FileBroker.Proofs.Channel.Link
import FileBroker.Proofs.Channel.Receiving
import FileBroker.Proofs.Channel.Segmentation

namespace FileBroker

variable {δ : Type}

namespace Stream

variable {s : Stream δ}

-- The stream when more of it has been sent.
def arrive (s : Stream δ) (r : Reaction δ) : Stream δ where
  cells := s.cells ++ r.segments.flatMap Segment.cells
  loose := s.loose
  ended := s.ended || r.ended
  reset := s.reset || r.reset

theorem warned_of_no_reset (h : s.reset = false) : s.warned = s := by
  rw [warned, ←h]

-- Who is told to wait has not been told of a reset.
theorem warned_of_shortage (h : s.shortage what = .wouldBlock) : s.warned = s := by
  refine warned_of_no_reset <| Bool.not_eq_true _ ▸ fun hr => ?_
  rw [shortage, if_pos hr] at h
  exact absurd h (by decide)

theorem warned_of_silence (h : s.silence = .error .wouldBlock) : s.warned = s := by
  refine warned_of_no_reset <| Bool.not_eq_true _ ▸ fun hr => ?_
  rw [silence, if_pos hr] at h
  exact absurd h (by decide)

end Stream

namespace Channel

variable {c d : Channel δ} {s : Stream δ} {step : Channel δ → Except IoError α × Channel δ}

-- An operation that loses nothing when it fails. What it returns depends on the stream alone, and it has not
-- touched the stream when it says that there is more to wait for.
structure Patient (step : Channel δ → Except IoError α × Channel δ) : Prop where
  keeps : ∀ c, c.Wf → ∀ e d, step c = (.error e, d) → ∃ new, c.Keeps new d
  reads : ∀ s, ∃ r t, Reads step s r t ∧ (r = .error .wouldBlock → t = s)

theorem Patient.map {mapped : Channel δ → Except IoError β × Channel δ} (h : Patient step) (f : α → β)
    (hm : ∀ c, mapped c = ((step c).1.map f, (step c).2)) : Patient mapped where
  keeps c hc e d hr := by
    rw [hm] at hr
    rcases hs : step c with ⟨_ | _, b⟩
    all_goals
      simp only [hs] at hr
      cases hr
    exact h.keeps c hc _ _ hs
  reads s := by
    have ⟨r, t, hr, ht⟩ := h.reads s
    refine ⟨r.map f, t, fun c hc => ?_, fun hw => ht ?_⟩
    · have ⟨d, hs, hd, ho⟩ := hr c hc
      exact ⟨d, by simp only [hm, hs], hd, ho⟩
    · cases r
      case error => simpa [Except.map] using hw
      case ok    => simp [Except.map] at hw

-- A search that gives up has only filled the buffer, as often as anything came.
theorem readField_keeps {ends : UInt8 → Bool} (h : c.Wf)
    (hr : c.readField ends what scanned = (.error e, d)) : ∃ new, c.Keeps new d := by
  induction hz : c.inbound.size using Nat.strongRecOn generalizing c scanned
  case ind z hi =>
    rw [readField_eq] at hr
    split at hr
    case h_1 => simp at hr
    case h_2 =>
      obtain ⟨new, hk⟩ := fill_keeps h
      rcases hf : c.fill with ⟨_ | _ | _, b⟩
      all_goals
        rw [hf] at hk
        simp only [hf] at hr
      case ok.succ =>
        obtain ⟨more, hm⟩ := hi _ (hz ▸ fill_size_lt hf) hk.wf hr rfl
        exact ⟨new ++ more, hk.trans hm⟩
      all_goals
        cases hr
        exact ⟨new, hk⟩

theorem readField_patient (ends : UInt8 → Bool) (what : Unfinished) :
    Patient (readField (δ := δ) ends what 0) where
  keeps c h e d hr := readField_keeps h hr
  reads s := by
    obtain ⟨before, b, rest, hs, hb, he, _⟩ | ⟨hs, _⟩ := Bytes.search_cases ends what s.bytes
    case inl =>
      exact ⟨_, _, fun c h => readField_found h hs hb he what (Nat.zero_le _) (Nat.zero_le _), by simp⟩
    case inr =>
      exact ⟨_, _, fun c h => readField_missing h hs what 0,
        fun hw => Stream.warned_of_shortage <| Except.error.inj hw⟩

theorem readUntil_patient (delimiter : UInt8) : Patient fun c : Channel δ => c.readUntil delimiter := by
  refine (readField_patient (· == delimiter) .delimited).map (·.1) fun c => ?_
  unfold readUntil
  split
  all_goals simp_all [Except.map]

theorem readToken_patient : Patient (readToken (δ := δ)) := by
  refine (readField_patient (fun b => b == 32 || b == 10) .token).map
    (fun r => (r.1, if r.2 = 32 then TokenEnd.space else .newline)) fun c => ?_
  unfold readToken
  split
  all_goals simp_all [Except.map]

theorem readMessage_patient : Patient (readMessage (δ := δ)) := by
  refine (readUntil_patient 0).map Utf8.decodeLossy fun c => ?_
  unfold readMessage
  split
  all_goals simp_all [Except.map]

-- Asking for the end is waiting for a byte.
theorem atEnd_patient : Patient (atEnd (δ := δ)) where
  keeps c h e d hr := by
    have hk := atEnd_keeps h
    rwa [hr] at hk
  reads s := by
    by_cases hs : s.cells = []
    case neg => exact ⟨_, _, atEnd_false hs, by simp⟩
    case pos =>
      refine ⟨_, _, atEnd_nil hs, fun h => Stream.warned_of_silence ?_⟩
      cases hn : s.silence
      case ok    => simp [hn, Except.map] at h
      case error => simpa [hn, Except.map] using h

theorem readMessage?_patient : Patient (readMessage? (δ := δ)) where
  keeps c h e d hr := by
    obtain ⟨new, hk⟩ := atEnd_keeps h
    rcases ha : c.atEnd with ⟨_ | _ | _, b⟩
    all_goals
      rw [ha] at hk
      simp only [readMessage?, ha] at hr
    case error =>
      cases hr
      exact ⟨new, hk⟩
    case ok.true => cases hr
    case ok.false =>
      rcases hm : b.readMessage with ⟨_ | _, a⟩
      all_goals
        simp only [hm] at hr
        cases hr
      obtain ⟨more, hm⟩ := readMessage_patient.keeps b hk.wf _ _ hm
      exact ⟨new ++ more, hk.trans hm⟩
  reads s := by
    by_cases hn : s.cells = []
    case pos =>
      refine ⟨_, _, readMessage?_nil hn, fun h => Stream.warned_of_silence ?_⟩
      cases hq : s.silence
      case ok    => simp [hq, Except.map] at h
      case error => simpa [hq, Except.map] using h
    case neg =>
      by_cases hs : 0 ∈ s.bytes
      case pos =>
        obtain ⟨text, rest, hb, ht⟩ := List.eq_append_cons_of_mem hs
        exact ⟨_, _, readMessage?_found hb ht, by simp⟩
      case neg =>
        exact ⟨_, _, readMessage?_missing hs hn, fun h => Stream.warned_of_shortage <| Except.error.inj h⟩

theorem arriveAll_carries (h : c.Carries s) (arrivals : List (Reaction δ)) :
    (arrivals.foldl arrive c).Carries (arrivals.foldl Stream.arrive s) := by
  induction arrivals generalizing c s
  case nil => exact h
  case cons r arrivals hi => exact hi <| h.arrive r

-- The channel when what is on its way comes at another speed.
def paced (c : Channel δ) (pace : List Nat) : Channel δ :=
  { c with inbound.pace := pace }

theorem Carries.paced (h : c.Carries s) (pace : List Nat) : (c.paced pace).Carries s :=
  ⟨⟨h.start_le, h.stop_le, h.capacity_pos, h.bytes_ne⟩, h.cells, h.ended, h.reset⟩

-- The descriptors that nobody has claimed, with those that are still to come.
def unclaimed (c : Channel δ) : List δ :=
  c.pending ++ attached c.inbound.cells

theorem Carries.unclaimed_eq (h : c.Carries s) : c.unclaimed = s.loose ++ attached s.cells := by
  have ⟨early, _, hc, hp⟩ := h.cells
  rw [unclaimed, hp, ←hc, attached_append, List.append_assoc]
  rfl

end Channel

namespace ReadCall

open Channel

-- The operations that look for a byte, or for the end of the stream.
def Searches : ReadCall α → Prop
  | upTo _ | token | message | messageOrEnd | atEnd => True
  | exact _ | stat | drain                          => False

-- Attempts that were told to wait. Something may arrive after each of them, before the next one.
inductive Retried (call : ReadCall α) : Channel δ → List (Reaction δ) → Channel δ → Prop
  | start {c} : Retried call c [] c
  | again {c d e r arrivals} : call.run c = (.error .wouldBlock, d) →
    Retried call (d.arrive r) arrivals e → Retried call c (r :: arrivals) e

variable {call : ReadCall α} {c e : Channel δ} {s : Stream δ}

theorem Searches.patient (h : call.Searches) : Patient (δ := δ) call.run := by
  cases call
  case upTo delimiter => exact readUntil_patient delimiter
  case token          => exact readToken_patient
  case message        => exact readMessage_patient
  case messageOrEnd   => exact readMessage?_patient
  case atEnd          => exact atEnd_patient
  all_goals exact h.elim

theorem Retried.carries (hr : call.Retried c arrivals e) (hp : Patient (δ := δ) call.run)
    (h : c.Carries s) : e.Carries (arrivals.foldl Stream.arrive s) := by
  induction hr generalizing s
  case start => exact h
  case again hw _ hi =>
    have ⟨r, t, hr, ht⟩ := hp.reads s
    have ⟨d, hd, hdt, _⟩ := hr _ h
    cases hw.symm.trans hd
    rw [ht rfl] at hdt
    exact hi <| hdt.arrive _

-- `arrivals` come between attempts that are told to wait. One search on a channel where all of it is on its
-- way, however slowly it comes, returns what the first attempt after them returns, and leaves as much.
theorem searches_lose_nothing (call : ReadCall α) (hs : call.Searches) (h : c.Wf) :
    (∀ e d, call.run c = (.error e, d) →
      ∃ new, c.inbound.cells = new ++ d.inbound.cells ∧ d.held = c.held ++ new.map (·.1) ∧
        d.pending = c.pending ++ attached new) ∧
    ∀ (arrivals : List (Reaction δ)) (pace : List Nat) (last : Channel δ), call.Retried c arrivals last →
      let whole := (arrivals.foldl arrive c).paced pace
      (call.run last).1 = (call.run whole).1 ∧
        (call.run last).2.unread = (call.run whole).2.unread ∧
        (call.run last).2.unclaimed = (call.run whole).2.unclaimed := by
  have hp : Patient (δ := δ) call.run := hs.patient
  refine ⟨fun e d hr => ?keeps, fun arrivals pace last hr => ?retried⟩
  case keeps =>
    have ⟨new, hk⟩ := hp.keeps c h e d hr
    exact ⟨new, hk.cells, hk.held, hk.pending⟩
  case retried =>
    have hl := hr.carries hp h.carries
    have hw := (arriveAll_carries h.carries arrivals).paced pace
    have ⟨r, t, hreads, _⟩ := hp.reads (arrivals.foldl Stream.arrive c.stream)
    have ⟨d, hd, hdt, _⟩ := hreads _ hl
    have ⟨d', hd', hdt', _⟩ := hreads _ hw
    dsimp only
    rw [hd, hd']
    exact ⟨rfl, hdt.unread_eq.trans hdt'.unread_eq.symm, hdt.unclaimed_eq.trans hdt'.unclaimed_eq.symm⟩

-- A status in three pieces, the first of them with a descriptor, and the begin of the next one.
theorem status_in_pieces_is_read :
    let c : Channel Nat := {}
    let arrivals : List (Reaction Nat) :=
      [{ segments := [{ bytes := [82, 69], fds := [7] }] }, { segments := [{ bytes := [65] }] },
        { segments := [{ bytes := [68, 89, 0, 82] }], ended := true }]
    c.Wf ∧ Searches message ∧ ∃ last : Channel Nat, message.Retried c arrivals last ∧
      last.held = [82, 69, 65] ∧ last.pending = [7] ∧
      (message.run last).1 = .ok "READY" ∧ (message.run last).2.unread = [82] ∧
      (message.run ((arrivals.foldl arrive c).paced [1, 1, 1])).1 = .ok "READY" := by
  intro c arrivals
  have h : c.Wf := (fresh_carries [] false).toWf
  have hs : Searches message := trivial
  let c₁ := (message.run c).2.arrive arrivals[0]
  let c₂ := (message.run c₁).2.arrive arrivals[1]
  let c₃ := (message.run c₂).2.arrive arrivals[2]
  have hr : message.Retried c arrivals c₃ := by
    refine .again (d := (message.run c).2) (Prod.ext ?_ rfl) ?_
    · decide +kernel
    refine .again (d := (message.run c₁).2) (Prod.ext ?_ rfl) ?_
    · decide +kernel
    refine .again (d := (message.run c₂).2) (Prod.ext ?_ rfl) .start
    decide +kernel
  have hl : (message.run c₃).1 = .ok "READY" := by decide +kernel
  have ht := (searches_lose_nothing message hs h).right arrivals [1, 1, 1] c₃ hr
  refine ⟨h, hs, c₃, hr, ?_, ?_, hl, ?_, ht.left.symm.trans hl⟩
  all_goals decide +kernel

end ReadCall

end FileBroker
