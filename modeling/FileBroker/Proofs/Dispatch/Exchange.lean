import Mathlib
import FileBroker.Proofs.Channel.Link
import FileBroker.Proofs.Channel.Receiving
import FileBroker.Proofs.Channel.Sending
import FileBroker.Proofs.Reply.Reading
import FileBroker.Proofs.Reply.Shortage

namespace FileBroker

variable {ω δ : Type}

namespace Channel

variable {c d : Channel δ}

theorem takeFd_outgoing (c : Channel δ) : c.takeFd.2.outgoing = c.outgoing := by
  unfold takeFd
  split
  all_goals rfl

theorem drain_go_discards (h : c.Wf) (hh : c.held = []) (total : Nat) :
    (drain.go total c).2.unread = [] ∧ (drain.go total c).2.outgoing = c.outgoing := by
  induction hz : c.inbound.size using Nat.strongRecOn generalizing c total
  case ind z hi =>
    rw [drain_go_eq]
    obtain ⟨d, hd, hdc, hdo, hb, hdh⟩ | ⟨n, d, hd, hdc, hdo, _⟩ := h.carries.fill
    case inl =>
      have hu : d.unread = [] := by rw [hdc.unread_eq]; exact hb.symm.trans hh
      have he : { d with start := 0, stop := 0, pending := [] }.unread = [] := by
        have := List.append_eq_nil_iff.mp hu
        simpa [unread, held] using this.right
      rw [hd]
      obtain hs | ⟨hs, _⟩ := c.stream.silence_cases .fixed
      all_goals rw [hs]
      · exact ⟨hu, hdo⟩
      · exact ⟨he, hdo⟩
    case inr =>
      rw [hd]
      have hlt : d.inbound.size < z := hz ▸ fill_size_lt hd
      have hw := (hdc.emptied []).toWf
      obtain ⟨hu, ho⟩ := hi _ hlt hw (by simp [held]) (total + (n + 1)) rfl
      exact ⟨hu, ho.trans hdo⟩

-- All that still comes is read and thrown away, and nothing is sent.
theorem drain_discards (h : c.Wf) : c.drain.2.unread = [] ∧ c.drain.2.outgoing = c.outgoing :=
  drain_go_discards (h.carries.emptied c.pending).toWf (by simp [held]) c.held.length

end Channel

namespace Reading

-- A computation that sends nothing.
def Listens (m : Reading δ FrameError α) : Prop :=
  ∀ c : Channel δ, c.Wf → (m.on c).2.Wf ∧ (m.on c).2.outgoing = c.outgoing

theorem listens_pure (a : α) : Listens (pure a : Reading δ FrameError α) :=
  fun _ h => ⟨h, rfl⟩

theorem listens_throw (e : FrameError) : Listens (throw e : Reading δ FrameError α) :=
  fun _ h => ⟨h, rfl⟩

theorem listens_io {step : Channel δ → Except IoError α × Channel δ}
    (hs : ∀ c : Channel δ, c.Wf → ∃ new, c.Receives new (step c).2) : Listens (io step) := by
  intro c h
  have ⟨_, hr⟩ := collects_io hs c h
  exact ⟨hr.wf, hr.outgoing⟩

theorem listens_modifyGet {step : Channel δ → α × Channel δ} (hw : ∀ c : Channel δ, c.Wf → (step c).2.Wf)
    (ho : ∀ c : Channel δ, (step c).2.outgoing = c.outgoing) :
    Listens (modifyGet step : Reading δ FrameError α) :=
  fun c h => ⟨hw c h, ho c⟩

theorem Listens.bind {m : Reading δ FrameError α} {f : α → Reading δ FrameError β} (hm : Listens m)
    (hf : ∀ a, Listens (f a)) : Listens (m >>= f) := by
  intro c h
  have ⟨hw, ho⟩ := hm c h
  rw [bind_on]
  match hc : m.on c with
  | (.error e, d) =>
    rw [hc] at hw ho
    exact ⟨hw, ho⟩
  | (.ok a, d) =>
    rw [hc] at hw ho
    have ⟨hw', ho'⟩ := hf a d hw
    exact ⟨hw', ho'.trans ho⟩

theorem Listens.map {m : Reading δ FrameError α} (hm : Listens m) (f : α → β) : Listens (f <$> m) := by
  rw [←bind_pure_comp]
  exact hm.bind fun _ => listens_pure _

end Reading

namespace Answer

open Channel Reading

theorem listens_readMessage : Listens (io (readMessage (δ := δ))) :=
  listens_io fun _ h => readMessage_receives h

theorem listens_discarded (a : Answer δ) :
    Listens (do modify discardFds; return a : Reading δ FrameError (Answer δ)) :=
  (listens_modifyGet (fun _ h => discardFds_wf h) fun _ => rfl).bind fun _ => listens_pure a

theorem listens_readStat : Listens (readStat (δ := δ)) := by
  refine (listens_io fun _ h => readWith_receives StatDecoder.feed_le h _ _).bind fun decoder => ?_
  split
  case h_1 => exact listens_pure _
  case h_2 => exact listens_throw _

theorem listens_read (shape : ReplyShape) : Listens (read (δ := δ) shape) := by
  cases shape
  case status | watchId => exact listens_readMessage.bind fun _ => listens_discarded _
  case statusWithDescriptor =>
    exact listens_readMessage.bind fun _ =>
      (listens_modifyGet (fun _ h => takeFd_wf h) takeFd_outgoing).bind fun _ => listens_pure _
  case statusWithText =>
    refine listens_readMessage.bind fun message => ?_
    dsimp only
    split
    case isTrue =>
      exact ((listens_readMessage.map _).map _).bind fun _ => listens_discarded _
    case isFalse =>
      exact (listens_pure _).bind fun _ => listens_discarded _
  case snapshot =>
    refine listens_readStat.bind fun outcome => ?_
    cases outcome
    case snapshot     => exact listens_discarded _
    case errorFollows => exact listens_readMessage.bind fun _ => listens_discarded _

end Answer

open Channel

namespace Link

variable {l : Link ω δ}

-- The peer has been shown what still gets through to it of some segments, and has reacted to that. If
-- nothing does, it has not noticed anything.
def told (peer : Peer ω δ) (l : Link ω δ) (segments : List (Segment δ)) : Link ω δ :=
  let taken := l.channel.taken segments
  if taken.isEmpty then l else
  { channel := l.channel.arrive (peer.react taken l.far).1, far := (peer.react taken l.far).2 }

-- How a request and its reply go over a link. If all of the request gets through, the answer is what the
-- bytes at hand begin with, up to where that ends, and it is missing only if they do not begin with a
-- reply. Then the failure is how the stream ends, or that nothing is there yet.
inductive Exchanged (peer : Peer ω δ) (l : Link ω δ) (e : Encoded δ) :
    Except IoError (Answer δ) → Link ω δ → Prop
  | answered {a : Answer δ} {front : Bytes} {channel : Channel δ} :
    l.channel.taken e.segments = e.segments →
    (l.told peer e.segments).channel.readAnswer e.operation.reply = (.ok a, channel) →
    (l.told peer e.segments).channel.Past front channel → e.operation.reply.Spells a.content front →
    Exchanged peer l e (.ok a) { l.told peer e.segments with channel }
  | unanswered {what : Unfinished} {channel : Channel δ} :
    l.channel.taken e.segments = e.segments →
    (¬∃ said front rest, (l.told peer e.segments).channel.unread = front ++ rest ∧
      e.operation.reply.Spells said front) →
    Exchanged peer l e (.error <| (l.told peer e.segments).channel.stream.shortage what)
      { l.told peer e.segments with channel }
  | unsent : l.channel.taken e.segments ≠ e.segments →
    Exchanged peer l e (.error .brokenPipe) (l.told peer e.segments)

-- Between two exchanges the channel is sound, and nothing that was sent is left to be shown.
structure Settled (l : Link ω δ) : Prop where
  wf   : l.channel.Wf
  sent : l.channel.sent = []

theorem settle_sent (peer : Peer ω δ) (l : Link ω δ) : (l.settle peer).channel.sent = [] := by
  unfold settle
  split
  case isTrue h  => exact List.isEmpty_iff.mp h
  case isFalse   => rfl

theorem Settled.asked (h : l.Settled) (peer : Peer ω δ) (e : Encoded δ) : (l.asked peer e).Settled where
  wf   := asked_wf h.wf e
  sent := settle_sent ..

theorem Settled.asked_eq (h : l.Settled) (peer : Peer ω δ) (e : Encoded δ) :
    l.asked peer e = l.told peer e.segments := by
  have ht : (l.channel.emitted e.segments).sent = l.channel.taken e.segments := by
    simp [emitted, sending, h.sent]
  unfold Link.asked settle told
  rw [transmit_snd]
  dsimp only
  rw [ht]
  split
  case isTrue he => rw [emitted_of_taken_nil <| List.isEmpty_iff.mp he]
  case isFalse   => simp [arrive, emitted, sending, h.sent]

theorem exchange_eq (peer : Peer ω δ) (l : Link ω δ) (e : Encoded δ) :
    l.exchange peer e =
      match (l.channel.transmit e).1 with
      | .error cause => (.error (.io cause), l.asked peer e)
      | .ok () =>
        let (answer, channel) := (l.asked peer e).channel.readAnswer e.operation.reply
        (answer, { l.asked peer e with channel }) :=
  rfl

theorem Settled.exchanged (h : l.Settled) (peer : Peer ω δ) (e : Encoded δ) :
    ∃ r l', l.exchange peer e = (r.mapError .io, l') ∧ Exchanged peer l e r l' ∧ l'.Settled := by
  have ha := h.asked peer e
  have ht := transmit_sends l.channel e
  rw [exchange_eq]
  rw [h.asked_eq] at ha ⊢
  generalize (l.channel.transmit e).1 = sent, (l.channel.transmit e).2 = d at ht
  cases ht
  case some ht => exact ⟨_, _, rfl, .unsent ht, ha⟩
  case all ht =>
    dsimp only
    have hl := Answer.listens_read e.operation.reply _ ha.wf
    have hread := Answer.accepts_read (δ := δ) e.operation.reply
    change (readAnswer e.operation.reply _).2.Wf ∧ (readAnswer e.operation.reply _).2.outgoing = _ at hl
    rcases hr : (l.told peer e.segments).channel.readAnswer e.operation.reply with ⟨cause | a, channel⟩
    all_goals rw [hr] at hl
    all_goals have hs : Settled { l.told peer e.segments with channel } :=
      ⟨hl.left, (congrArg (·.1) hl.right).trans ha.sent⟩
    case error =>
      obtain ⟨what, rfl⟩ := Answer.starves_read e.operation.reply _ ha.wf _ _ hr
      refine ⟨_, _, rfl, .unanswered ht ?_, hs⟩
      rintro ⟨said, front, rest, hu, hsp⟩
      have ⟨a, d, hok, _⟩ := hread.complete ha.wf hu hsp
      cases hr.symm.trans hok
    case ok =>
      have ⟨front, hp, hsp⟩ := hread.sound ha.wf hr
      exact ⟨_, _, rfl, .answered ht hr hp hsp, hs⟩

end Link

end FileBroker
