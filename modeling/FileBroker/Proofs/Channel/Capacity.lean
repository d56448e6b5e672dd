import Mathlib
import FileBroker.Proofs.Channel.Bounds
import FileBroker.Proofs.Channel.Link

namespace FileBroker

variable {δ : Type}

theorem Inbound.receive_bytes_ne {i : Inbound δ} (h : ∀ s ∈ i.queue, s.bytes ≠ []) (room : Nat) :
    ∀ s ∈ (i.receive room).2.queue, s.bytes ≠ [] := by
  unfold receive
  split
  case h_1 =>
    split
    case isTrue  => exact h
    case isFalse => split <;> exact h
  case h_2 => exact gather_bytes_ne h _

namespace Channel

variable {c d e : Channel δ}

theorem makeRoom_capacity (h : c.Wf) :
    c.makeRoom.capacity = c.capacity ∨
      (c.makeRoom.capacity = 2 * c.capacity ∧ c.held.length = c.capacity) := by
  have hl := h.held_length
  have hs := h.start_le
  have hc := h.stop_le
  unfold makeRoom
  split
  case isTrue  => exact .inl rfl
  case isFalse =>
    split
    case isTrue =>
      refine .inl ?_
      simp only [capacity, List.length_append, List.length_drop] at *
      omega
    case isFalse =>
      refine .inr ?_
      simp only [capacity, List.length_append, List.length_replicate] at *
      omega

theorem receive_capacity (h : c.stop ≤ c.capacity) : c.receive.2.capacity = c.capacity := by
  unfold receive
  rcases hi : c.inbound.receive (c.capacity - c.stop) with ⟨_ | ⟨bytes, fds⟩, inbound⟩
  case error => rfl
  case ok    =>
    have := Inbound.receive_length hi
    simp only [accept, capacity, List.length_append, List.length_take, List.length_drop] at *
    omega

theorem fill_capacity (h : c.Wf) :
    c.fill.2.capacity = c.capacity ∨
      (c.fill.2.capacity = 2 * c.capacity ∧ c.held.length = c.capacity) := by
  rw [fill, receive_capacity (makeRoom_wf h).left.stop_le]
  exact makeRoom_capacity h

-- A buffer with nothing unread in it has room.
theorem fill_capacity_of_nil (h : c.Wf) (hh : c.held = []) : c.fill.2.capacity = c.capacity := by
  obtain hf | ⟨_, hl⟩ := fill_capacity h
  case inl => exact hf
  case inr =>
    have := h.capacity_pos
    rw [←hl, hh] at this
    exact absurd this (Nat.lt_irrefl 0)

theorem fill_consumed_capacity (h : c.Wf) : (c.consume c.held.length).fill.2.capacity = c.capacity :=
  fill_capacity_of_nil (consume_receives h (Nat.le_refl _)).wf (by rw [consume_held, List.drop_length])

-- What a search makes of the buffer. If it has grown, then a field fills half of it that had come in
-- without what was searched for.
structure Widens (ends : UInt8 → Bool) (c : Channel δ) (new : List (Cell δ)) (d : Channel δ) : Prop
    extends c.Receives new d where
  doubled  : ∃ k, d.capacity = c.capacity * 2 ^ k
  overlong : d.capacity ≠ c.capacity →
    ∃ field, field <+: c.held ++ new.map (·.1) ∧ (∀ b ∈ field, ends b = false) ∧
      d.capacity ≤ 2 * field.length

variable {ends : UInt8 → Bool}

theorem Receives.widens (h : c.Receives new d) (hc : d.capacity = c.capacity) : Widens ends c new d where
  toReceives := h
  doubled    := ⟨0, by rw [hc, Nat.pow_zero, Nat.mul_one]⟩
  overlong n := absurd hc n

theorem Keeps.fill_widens (h : c.Wf) (hk : c.Keeps new c.fill.2) (hh : ∀ b ∈ c.held, ends b = false) :
    Widens ends c new c.fill.2 := by
  obtain hf | ⟨hf, hl⟩ := fill_capacity h
  case inl => exact hk.toReceives.widens hf
  case inr =>
    exact {
      toReceives := hk.toReceives
      doubled    := ⟨1, by omega⟩
      overlong _ := ⟨c.held, List.prefix_append .., hh, by omega⟩ }

theorem Keeps.widens (hk : c.Keeps new d) (h : Widens ends c new d) (h' : Widens ends d more e) :
    Widens ends c (new ++ more) e where
  toReceives := hk.toReceives.trans h'.toReceives
  doubled := by
    have ⟨k, hd⟩ := h.doubled
    have ⟨l, he⟩ := h'.doubled
    exact ⟨k + l, by rw [he, hd, Nat.pow_add, Nat.mul_assoc]⟩
  overlong hn := by
    by_cases he : e.capacity = d.capacity
    case pos =>
      have ⟨field, hp, hf, hl⟩ := h.overlong (he ▸ hn)
      refine ⟨field, hp.trans ?_, hf, he ▸ hl⟩
      rw [List.map_append, ←List.append_assoc]
      exact List.prefix_append ..
    case neg =>
      have ⟨field, hp, hf, hl⟩ := h'.overlong he
      refine ⟨field, ?_, hf, hl⟩
      rwa [hk.held, List.append_assoc, ←List.map_append] at hp

theorem readField_widens (h : c.Wf) (ends : UInt8 → Bool) (what : Unfinished) (scanned : Nat)
    (hs : ∀ b ∈ c.held.take scanned, ends b = false) :
    ∃ new, Widens ends c new (c.readField ends what scanned).2 := by
  induction hz : c.inbound.size using Nat.strongRecOn generalizing c scanned
  case ind z hi =>
    rw [readField_eq]
    cases hf : (c.held.drop scanned).findIdx? ends
    case some i =>
      have hl := (List.findIdx?_eq_some_iff_getElem.mp hf).1
      rw [List.length_drop] at hl
      exact ⟨[], (consume_receives h (by omega)).widens rfl⟩
    case none =>
      have hh : ∀ b ∈ c.held, ends b = false := by
        intro b hb
        rw [←List.take_append_drop scanned c.held, List.mem_append] at hb
        exact hb.elim (hs b) (List.findIdx?_eq_none_iff.mp hf b)
      have ⟨new, hk⟩ := fill_keeps h
      have hw := hk.fill_widens h hh
      rcases he : c.fill with ⟨_ | _ | _, d⟩
      all_goals simp only [he] at hk hw
      case error   => exact ⟨new, hw⟩
      case ok.zero => exact ⟨new, hw⟩
      case ok.succ =>
        have hs' : ∀ b ∈ d.held.take c.held.length, ends b = false := by
          rwa [hk.held, List.take_left]
        have ⟨more, hm⟩ := hi _ (hz ▸ fill_size_lt he) hk.wf c.held.length hs' rfl
        exact ⟨new ++ more, hk.widens hw hm⟩

theorem readExact_capacity (h : c.Wf) (count : Nat) : (c.readExact count).2.capacity = c.capacity := by
  induction hz : c.inbound.size using Nat.strongRecOn generalizing c count
  case ind z hi =>
    by_cases hl : count ≤ c.held.length
    case pos => rw [readExact_of_le hl]; rfl
    case neg =>
      have hf := fill_consumed_capacity h
      have ⟨_, hr⟩ := fill_consumed_receives h (Nat.le_refl _)
      rw [readExact_of_lt (Nat.not_le.mp hl)]
      rcases he : (c.consume c.held.length).fill with ⟨_ | _ | _, d⟩
      all_goals simp only [he] at hf hr
      case error   => exact hf
      case ok.zero => exact hf
      case ok.succ =>
        have := hi _ (hz ▸ fill_size_lt (c := c.consume _) he) hr.wf (count - c.held.length) rfl
        dsimp only
        rcases hd : d.readExact (count - c.held.length) with ⟨_ | _, _⟩
        all_goals
          simp only [hd] at this
          exact this.trans hf

open StatDecoder in
theorem readStat_capacity (h : c.Wf) (seen : Bytes) (hv : verdict seen = none) :
    (c.readWith feed (·.outcome.isSome) (after seen)).2.capacity = c.capacity := by
  induction hz : c.inbound.size using Nat.strongRecOn generalizing c seen
  case ind z hi =>
    cases hd : verdict (seen ++ c.held)
    case some => rw [readWith_decided h hv hd]; rfl
    case none =>
      have hf := fill_consumed_capacity h
      have ⟨_, hr⟩ := fill_consumed_receives h (Nat.le_refl _)
      rw [readWith_undecided h hv hd]
      rcases he : (c.consume c.held.length).fill with ⟨_ | _ | _, d⟩
      all_goals simp only [he] at hf hr
      case error   => exact hf
      case ok.zero => exact hf
      case ok.succ => exact (hi _ (hz ▸ fill_size_lt (c := c.consume _) he) hr.wf _ hd rfl).trans hf

theorem atEnd_capacity (h : c.Wf) : c.atEnd.2.capacity = c.capacity := by
  unfold atEnd
  split
  case isTrue  => rfl
  case isFalse =>
    have hl := h.held_length
    have hf := fill_capacity_of_nil h (List.length_eq_zero_iff.mp (by omega))
    split
    all_goals simp_all

theorem drain_go_sound (h : c.Wf) (hh : c.held = []) (total : Nat) :
    (drain.go total c).2.Wf ∧ (drain.go total c).2.capacity = c.capacity := by
  induction hz : c.inbound.size using Nat.strongRecOn generalizing c total
  case ind z hi =>
    have hf := fill_capacity_of_nil h hh
    have ⟨_, hk⟩ := fill_keeps h
    rw [drain_go_eq]
    rcases he : c.fill with ⟨_ | _ | n, d⟩
    all_goals simp only [he] at hf hk
    case error   => exact ⟨hk.wf, hf⟩
    case ok.zero => exact ⟨Checked.emptied_wf hk.wf [], hf⟩
    case ok.succ =>
      have hlt : d.inbound.size < z := hz ▸ fill_size_lt he
      have ⟨hw, hc⟩ := hi _ hlt (Checked.emptied_wf hk.wf []) (by simp [held]) (total + (n + 1)) rfl
      exact ⟨hw, hc.trans hf⟩

theorem drain_sound (h : c.Wf) : c.drain.2.Wf ∧ c.drain.2.capacity = c.capacity :=
  drain_go_sound (Checked.emptied_wf h c.pending) (by simp [held]) c.held.length

-- What a channel does that is not reading.
inductive Aside (δ : Type)
  | takeFd
  | takeFds (count : Nat)
  | discardFds
  | write (bytes : Bytes)
  | sendWithFd (bytes : Bytes) (fd : δ)
  | sendFds (slots : List (Option δ))
  | receiveRaw (room : Nat)
  -- The far end reacts to what it has been sent.
  | arrive (r : Reaction δ)

def Aside.on (c : Channel δ) : Aside δ → Channel δ
  | takeFd              => c.takeFd.2
  | takeFds count       => (c.takeFds count).2
  | discardFds          => c.discardFds
  | write bytes         => (c.write bytes).2
  | sendWithFd bytes fd => (c.sendWithFd bytes fd).2
  | sendFds slots       => (c.sendFds slots).2
  | receiveRaw room     => (c.receiveRaw room).2
  | arrive r            => { c with sent := [] }.arrive r

-- The buffer is left alone, and what is on its way stays in order.
structure Beside (c d : Channel δ) : Prop where
  buf      : d.buf = c.buf
  start    : d.start = c.start
  stop     : d.stop = c.stop
  bytes_ne : (∀ s ∈ c.inbound.queue, s.bytes ≠ []) → ∀ s ∈ d.inbound.queue, s.bytes ≠ []

theorem Beside.capacity (h : c.Beside d) : d.capacity = c.capacity := by
  rw [Channel.capacity, h.buf, Channel.capacity]

theorem Beside.wf (hb : c.Beside d) (h : c.Wf) : d.Wf where
  start_le     := by rw [hb.start, hb.stop]; exact h.start_le
  stop_le      := by rw [hb.stop, hb.capacity]; exact h.stop_le
  capacity_pos := by rw [hb.capacity]; exact h.capacity_pos
  bytes_ne     := hb.bytes_ne h.bytes_ne

theorem beside_of_stays (h : ∃ sent patience, d = { c with sent, patience }) : c.Beside d := by
  obtain ⟨_, _, rfl⟩ := h
  exact ⟨rfl, rfl, rfl, id⟩

theorem Aside.beside (a : Aside δ) (c : Channel δ) : c.Beside (a.on c) := by
  cases a
  case takeFd =>
    rw [on, Channel.takeFd]
    split
    case h_1 => exact ⟨rfl, rfl, rfl, id⟩
    case h_2 => exact ⟨rfl, rfl, rfl, id⟩
  case takeFds     => exact ⟨rfl, rfl, rfl, id⟩
  case discardFds  => exact ⟨rfl, rfl, rfl, id⟩
  case write bytes => exact beside_of_stays <| c.write_stays bytes
  case sendWithFd bytes fd =>
    rw [on, Channel.sendWithFd]
    split
    case isTrue  => exact ⟨rfl, rfl, rfl, id⟩
    case isFalse => exact beside_of_stays <| c.send_stays { bytes, fds := [fd] }
  case sendFds slots   => exact beside_of_stays <| c.sendFds_stays slots
  case receiveRaw room => exact ⟨rfl, rfl, rfl, fun h => Inbound.receive_bytes_ne h room⟩
  case arrive r        => exact ⟨rfl, rfl, rfl, Inbound.pushAll_bytes_ne r.segments⟩

end Channel

namespace ReadCall

open Channel

variable {c : Channel δ}

-- What a search for a delimiter looks for.
def ends? : ReadCall α → Option (UInt8 → Bool)
  | upTo delimiter         => some (· == delimiter)
  | token                  => some fun b => b == 32 || b == 10
  | message | messageOrEnd => some (· == 0)
  | _                      => none

theorem readUntil_widens (h : c.Wf) (delimiter : UInt8) :
    ∃ new, Widens (· == delimiter) c new (c.readUntil delimiter).2 := by
  have ⟨new, hw⟩ := readField_widens h (· == delimiter) .delimited 0 (by simp)
  refine ⟨new, ?_⟩
  unfold readUntil
  split
  all_goals simp_all

theorem readMessage_widens (h : c.Wf) : ∃ new, Widens (· == 0) c new c.readMessage.2 := by
  have ⟨new, hw⟩ := readUntil_widens h 0
  refine ⟨new, ?_⟩
  unfold readMessage
  split
  all_goals simp_all

theorem run_widens (h : c.Wf) (call : ReadCall α) (he : call.ends? = some ends) :
    ∃ new, Widens ends c new (call.run c).2 := by
  cases call
  case upTo delimiter => cases he; exact readUntil_widens h delimiter
  case token =>
    cases he
    obtain ⟨new, hw⟩ := readField_widens h (fun b => b == 32 || b == 10) .token 0 (by simp)
    refine ⟨new, ?_⟩
    rw [run, readToken]
    split
    all_goals simp_all
  case message => cases he; exact readMessage_widens h
  case messageOrEnd =>
    cases he
    obtain ⟨new, hk⟩ := atEnd_keeps h
    have hw : Widens (· == 0) c new c.atEnd.2 := hk.toReceives.widens (atEnd_capacity h)
    rw [run, readMessage?]
    rcases ha : c.atEnd with ⟨_ | _ | _, d⟩
    all_goals simp only [ha] at hk hw
    case error    => exact ⟨new, hw⟩
    case ok.true  => exact ⟨new, hw⟩
    case ok.false =>
      obtain ⟨more, hm⟩ := readMessage_widens hk.wf
      refine ⟨new ++ more, ?_⟩
      dsimp only
      split
      all_goals
        rename_i hr
        rw [hr] at hm
        exact hk.widens hw hm
  case exact => cases he
  case stat  => cases he
  case atEnd => cases he
  case drain => cases he

theorem run_sound (h : c.Wf) (call : ReadCall α) (he : call.ends? = none) :
    (call.run c).2.Wf ∧ (call.run c).2.capacity = c.capacity := by
  cases call
  case upTo         => cases he
  case token        => cases he
  case message      => cases he
  case messageOrEnd => cases he
  case exact count  =>
    have ⟨_, hr⟩ := readExact_receives h count
    exact ⟨hr.wf, readExact_capacity h count⟩
  case stat =>
    have ⟨_, hr⟩ := readWith_receives StatDecoder.feed_le h (·.outcome.isSome) {}
    exact ⟨hr.wf, readStat_capacity h [] rfl⟩
  case atEnd =>
    have ⟨_, hk⟩ := atEnd_keeps h
    exact ⟨hk.wf, atEnd_capacity h⟩
  case drain => exact drain_sound h

end ReadCall

namespace Channel

variable {c d : Channel δ}

-- Receiving nothing means that there is nothing more.
theorem fill_zero (h : c.Wf) (hf : c.fill = (.ok 0, d)) :
    c.inbound.queue = [] ∧ c.inbound.ended = true := by
  have ⟨hw, hr⟩ := makeRoom_wf h
  rw [fill, receive] at hf
  split at hf
  case h_1 => simp at hf
  case h_2 hi =>
    simp only [Prod.mk.injEq, Except.ok.injEq, List.length_eq_zero_iff] at hf
    obtain ⟨rfl, rfl⟩ := hf
    have := Inbound.receive_zero hw.bytes_ne (by omega) hi
    rwa [makeRoom_inbound] at this

inductive Step (δ : Type)
  | read {α : Type} (call : ReadCall α)
  | aside (a : Aside δ)

def Step.on (c : Channel δ) : Step δ → Channel δ
  | read call => (call.run c).2
  | aside a   => a.on c

-- A channel after all that it has done since it was new.
def played (steps : List (Step δ)) : Channel δ :=
  steps.foldl Step.on {}

theorem played_append (steps : List (Step δ)) (s : Step δ) : played (steps ++ [s]) = s.on (played steps) := by
  rw [played, List.foldl_concat, played]

-- One of the reads had received all of `field` and had not found in it what ends a field.
inductive Searched : List (Step δ) → Bytes → Prop
  | intro {front back : List (Step δ)} {α : Type} {call : ReadCall α} {ends : UInt8 → Bool}
      {new : List (Cell δ)} {field : Bytes} :
    call.ends? = some ends → (played front).Receives new (call.run (played front)).2 →
    field <+: (played front).held ++ new.map (·.1) → (∀ b ∈ field, ends b = false) →
    Searched (front ++ .read call :: back) field

theorem Searched.more {steps : List (Step δ)} (h : Searched steps field) (s : Step δ) :
    Searched (steps ++ [s]) field := by
  obtain ⟨he, hr, hp, hf⟩ := h
  rw [List.append_assoc, List.cons_append]
  exact ⟨he, hr, hp, hf⟩

-- The buffer is in order, and as large as the fields that it has had to hold.
structure Sized (steps : List (Step δ)) : Prop where
  wf       : (played steps).Wf
  doubled  : ∃ k, (played steps).capacity = initialCapacity * 2 ^ k
  overlong : initialCapacity < (played steps).capacity →
    ∃ field, Searched steps field ∧ (played steps).capacity ≤ 2 * field.length

theorem sized_nil : Sized ([] : List (Step δ)) where
  wf       := (fresh_carries [] false).toWf
  doubled  := ⟨0, by simp [played, capacity]⟩
  overlong := by simp [played, capacity]

variable {steps : List (Step δ)}

theorem Sized.same {s : Step δ} (h : Sized steps) (hw : (s.on (played steps)).Wf)
    (hc : (s.on (played steps)).capacity = (played steps).capacity) : Sized (steps ++ [s]) := by
  rw [←played_append] at hw hc
  exact {
    wf          := hw
    doubled     := hc ▸ h.doubled
    overlong hl :=
      have ⟨field, hf, hle⟩ := h.overlong (hc ▸ hl)
      ⟨field, hf.more s, hc ▸ hle⟩ }

theorem Sized.widens {call : ReadCall α} (h : Sized steps) (he : call.ends? = some ends)
    (hw : Widens ends (played steps) new (call.run (played steps)).2) : Sized (steps ++ [.read call]) := by
  by_cases hc : (call.run (played steps)).2.capacity = (played steps).capacity
  case pos => exact h.same (s := .read call) hw.wf hc
  case neg =>
    have ⟨field, hp, hf, hl⟩ := hw.overlong hc
    have ⟨k, hk⟩ := h.doubled
    have ⟨l, hd⟩ := hw.doubled
    have ha : played (steps ++ [.read call]) = (call.run (played steps)).2 := played_append ..
    exact {
      wf         := ha ▸ hw.wf
      doubled    := ⟨k + l, by rw [ha, hd, hk, Nat.pow_add, Nat.mul_assoc]⟩
      overlong _ := ⟨field, ⟨he, hw.toReceives, hp, hf⟩, ha ▸ hl⟩ }

theorem Sized.step (h : Sized steps) (s : Step δ) : Sized (steps ++ [s]) := by
  cases s
  case aside a =>
    have hb := a.beside (played steps)
    exact h.same (hb.wf h.wf) hb.capacity
  case read call =>
    cases he : call.ends?
    case none =>
      have ⟨hw, hc⟩ := call.run_sound h.wf he
      exact h.same hw hc
    case some ends =>
      have ⟨_, hw⟩ := call.run_widens h.wf he
      exact h.widens he hw

theorem sized (steps : List (Step δ)) : Sized steps := by
  induction steps using List.reverseRecOn
  case nil => exact sized_nil
  case append_singleton hi => exact hi.step _

theorem Step.capacity_le (h : c.Wf) (s : Step δ) :
    c.capacity ≤ (s.on c).capacity ∧
      ((s.on c).capacity ≠ c.capacity →
        ∃ (α : Type) (call : ReadCall α), s = .read call ∧ call.ends?.isSome) := by
  cases s
  case aside a =>
    have hb := (a.beside c).capacity
    exact ⟨Nat.le_of_eq hb.symm, fun hn => absurd hb hn⟩
  case read call =>
    cases he : call.ends?
    case none =>
      have hc := (call.run_sound h he).right
      exact ⟨Nat.le_of_eq hc.symm, fun hn => absurd hc hn⟩
    case some ends =>
      have ⟨_, hw⟩ := call.run_widens h he
      have ⟨k, hk⟩ := hw.doubled
      rw [on, hk]
      exact ⟨Nat.le_mul_of_pos_right _ (Nat.two_pow_pos k), fun _ => ⟨_, call, rfl, by simp [he]⟩⟩

-- Whatever a channel has done since it was new.
theorem buffer_stays_in_bounds (steps : List (Step δ)) :
    let c := played steps
    (c.start ≤ c.stop ∧ c.stop ≤ c.capacity) ∧
      (∀ {α : Type} (call : ReadCall α), call.checked c = some (call.run c)) ∧
      (∀ d, c.fill = (.ok 0, d) → c.inbound.queue = [] ∧ c.inbound.ended = true) ∧
      (∃ k, c.capacity = initialCapacity * 2 ^ k) ∧
      (∀ s : Step δ, c.capacity ≤ (s.on c).capacity ∧ ((s.on c).capacity ≠ c.capacity →
        ∃ (α : Type) (call : ReadCall α), s = .read call ∧ call.ends?.isSome)) ∧
      (initialCapacity < c.capacity →
        ∃ field, Searched steps field ∧ c.capacity ≤ 2 * field.length) := by
  intro c
  have h := sized steps
  exact ⟨⟨h.wf.start_le, h.wf.stop_le⟩, ReadCall.checked_eq h.wf, fun _ => fill_zero h.wf, h.doubled,
    Step.capacity_le h.wf, h.overlong⟩

example :
    (played [.aside (.arrive { segments := [{ bytes := List.replicate 600 97 ++ [0] }] }), .read .message] :
      Channel Nat).capacity = 1024 := by
  decide +kernel

end Channel

end FileBroker
