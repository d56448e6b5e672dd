import Mathlib
import FileBroker.Proofs.Channel.Link
import FileBroker.Proofs.Proxy.Lifecycle
import FileBroker.Proofs.Reply.ErrorText
import FileBroker.Proofs.Reply.Reading

namespace FileBroker

namespace Call

variable {δ : Type}

-- What a reply has to be for the call to return this.
def Succeeds : Call δ α → Bytes → α → Prop
  | stat .., reply, snapshot =>
    ∃ record, ReplyShape.snapshot.Brings reply record ∧ snapshot = .ofRecord record
  | addWatch .., reply, id =>
    0 ≤ id ∧ ∃ text, ReplyShape.watchId.Says reply text ∧
      Decimal.int32? (Utf8.decodeLossy text).toList = some id
  | access .., reply, granted =>
    ∃ text, ReplyShape.status.Says reply text ∧
      if granted then text = Utf8.encode readyStatus else ErrorText.Reports text Errno.acces
  | c, reply, _ => c.operation.reply.Says reply (Utf8.encode readyStatus)

-- What a reply has to be for the call to fail with this number.
def FailsWith (c : Call δ α) (reply : Bytes) (code : Errno.Code) : Prop :=
  ∃ text, c.operation.reply.Says reply text ∧ ErrorText.Reports text code

variable {c : Call δ α} {a : Answer δ}

theorem ready_ok {shape : ReplyShape} (ha : a.From shape reply) (hs : shape ≠ .snapshot)
    (h : ready a = .ok ()) : shape.Says reply (Utf8.encode readyStatus) := by
  cases ha
  case brought hb _ => exact absurd hb.left hs
  case said text ht hm _ =>
    unfold ready at h
    split at h
    case isFalse => simp at h
    case isTrue hr =>
      have hr : Utf8.decodeLossy text = readyStatus := by rw [←hm]; simpa [Answer.isReady] using hr
      exact Utf8.decodeLossy_eq_ascii (by simp [readyStatus]) hr ▸ ht

theorem reports_of_refusal {shape : ReplyShape} {text : Bytes} (hs : shape.Says reply text)
    (h : refusal (Utf8.decodeLossy text) = .errno code message) :
    ∃ text, shape.Says reply text ∧ ErrorText.Reports text code := by
  unfold refusal at h
  split at h
  case h_1 hp =>
    obtain ⟨rfl, rfl⟩ := ProxyError.errno.inj h
    exact ⟨text, hs, ErrorText.reports_of_parse hp⟩
  case h_2 => simp at h

theorem ready_error {shape : ReplyShape} (ha : a.From shape reply) (hs : shape ≠ .snapshot)
    (h : ready a = .error (.errno code message)) :
    ∃ text, shape.Says reply text ∧ ErrorText.Reports text code := by
  cases ha
  case brought hb _ => exact absurd hb.left hs
  case said text ht hm _ =>
    unfold ready at h
    split at h
    case isTrue => simp at h
    case isFalse => exact reports_of_refusal ht (hm ▸ Except.error.inj h)

theorem outcome_ok (ha : a.From c.operation.reply reply) (h : c.outcome a = .ok x) :
    c.Succeeds reply x := by
  cases c
  case openFile | create | readLink | init =>
    have ⟨_, hr, _⟩ := bind_eq_ok h
    exact ready_ok ha nofun hr
  case makeDir | unlink | makeNode | rename | link | cleanup =>
    exact ready_ok ha nofun h
  case access =>
    rw [outcome] at h
    split at h
    case h_1 hr =>
      cases h
      exact ⟨_, ready_ok ha nofun hr, rfl⟩
    case h_2 code message hr =>
      split at h
      case isFalse => simp at h
      case isTrue hc =>
        cases h
        have ⟨text, ht, he⟩ := ready_error ha nofun hr
        exact ⟨text, ht, hc ▸ he⟩
    case h_3 => simp at h
  case stat =>
    rw [outcome] at h
    split at h
    case h_2 => simp at h
    case h_1 snapshot hd =>
      cases h
      cases ha
      case said hn => exact absurd hd (hn _)
      case brought record hb hr => exact ⟨record, hb, by simpa [hr] using hd.symm⟩
  case addWatch =>
    rw [outcome] at h
    split at h
    case h_2 => simp at h
    case h_1 id hi =>
      split at h
      case isFalse => simp at h
      case isTrue hn =>
        cases h
        cases ha
        case brought hb _ => exact nomatch hb.left
        case said text ht hm _ => exact ⟨hn, text, ht, hm ▸ hi⟩

theorem outcome_errno (ha : a.From c.operation.reply reply)
    (h : c.outcome a = .error (.errno code message)) : c.FailsWith reply code := by
  cases c
  case openFile | create | readLink =>
    obtain hr | ⟨_, _, h⟩ := bind_eq_error h
    case inl => exact ready_error ha nofun hr
    case inr => split at h <;> simp [pure, Except.pure, throw, throwThe, MonadExceptOf.throw] at h
  case init =>
    obtain hr | ⟨_, _, h⟩ := bind_eq_error h
    case inl => exact ready_error ha nofun hr
    case inr => simp [pure, Except.pure] at h
  case makeDir | unlink | makeNode | rename | link | cleanup => exact ready_error ha nofun h
  case access =>
    rw [outcome] at h
    split at h
    case h_1 => simp at h
    case h_2 hr =>
      split at h
      case isTrue => simp at h
      case isFalse =>
        obtain ⟨rfl, rfl⟩ := ProxyError.errno.inj <| Except.error.inj h
        exact ready_error ha nofun hr
    case h_3 hr => exact ready_error ha nofun (Except.error.inj h ▸ hr)
  case stat =>
    rw [outcome] at h
    split at h
    case h_1 => simp at h
    case h_2 hd =>
      cases ha
      case brought hr => exact absurd hr (hd _)
      case said ht hm _ => exact reports_of_refusal ht (hm ▸ Except.error.inj h)
  case addWatch =>
    have hr : refusal a.message = .errno code message := by
      rw [outcome] at h
      split at h
      · split at h
        · simp at h
        · exact Except.error.inj h
      · exact Except.error.inj h
    cases ha
    case brought hb _ => exact nomatch hb.left
    case said ht hm _ => exact reports_of_refusal ht (hm ▸ hr)

end Call

namespace Proxy

variable {p : Proxy ω δ}

-- The states of a proxy that was attached to a channel, whatever that had received before, and whose
-- owner has made calls and perhaps closed it.
inductive Reachable (peer : Peer ω δ) : Proxy ω δ → Prop
  | attached {link : Link ω δ} (helperPid : Option UInt32) (cwd : δ) (attempts : Call.Duplications) :
    link.channel.Wf → Reachable peer { dispatcher := { link }, helperPid, cwd, attempts }
  | called {p : Proxy ω δ} {α : Type} (c : Call δ α) :
    Reachable peer p → Reachable peer (p.run peer c).2
  | closed {p : Proxy ω δ} : Reachable peer p → Reachable peer (p.close peer)

-- The bytes at hand when the reply to a call is read.
def Hears (peer : Peer ω δ) (p : Proxy ω δ) (c : Call δ α) (reply : Bytes) : Prop :=
  ∃ r attempts e, (c.request p.cwd).run.run p.attempts = (.ok r, attempts) ∧ r.encode = .ok e ∧
    reply = (p.dispatcher.link.asked peer e).channel.unread

-- An answer that was read off the link is from what the call heard, and leaves the channel sound.
theorem exchange_from {c : Call δ α} {attempts : Call.Duplications} (hw : p.dispatcher.link.channel.Wf)
    (hr : (c.request p.cwd).run.run p.attempts = (.ok r, attempts)) (he : r.encode = .ok e)
    (hx : { p with attempts }.exchange peer e = (.ok answer, q)) :
    (∃ reply, p.Hears peer c reply ∧ answer.From c.operation.reply reply) ∧
      q.dispatcher.link.channel.Wf := by
  have ⟨link, hl, hq⟩ := exchange_ok hx
  have ha : (p.dispatcher.link.asked peer e).channel.Wf := Link.asked_wf hw e
  have ⟨hf, hd⟩ := Answer.read_ok ha.carries (Link.exchange_ok hl)
  have ho : e.operation = c.operation := by
    rw [(Request.encode_eq_ok_iff.mp he).right, ←Call.request_operation hr]
  rw [ha.stream_bytes, ho] at hf
  exact ⟨⟨_, ⟨r, attempts, e, hr, he, rfl⟩, hf⟩, hq ▸ hd⟩

theorem Reachable.wf (h : p.Reachable peer) (ho : p.isClosed = false) : p.dispatcher.link.channel.Wf := by
  induction h
  case attached hw => exact hw
  case closed => exact absurd (ho.symm.trans (close_isClosed ..)) (by decide)
  case called p α c hp hi =>
    generalize hr : (p.run peer c).1 = r at ho
    generalize hq : (p.run peer c).2 = q at ho
    have h := p.run_ran peer c
    rw [hr, hq] at h
    cases h
    case unprepared => exact hi ho
    case refused => exact hi ho
    case unencodable => exact hi ho
    case lost => exact absurd (ho.symm.trans (close_isClosed ..)) (by decide)
    case answered hreq hc he hx =>
      have ⟨_, hw⟩ := exchange_from (hi hc) hreq he hx
      rw [settle_of_open ho]
      exact hw

-- A result that is neither a failure of our own nor a broken proxy is what an answer means.
theorem heard (hp : p.Reachable peer) {c : Call δ α} {r : Except ProxyError α}
    (h : (p.run peer c).1 = r) (ho : ∀ e, r = .error e → ∃ code message, e = .errno code message) :
    ∃ reply answer, p.Hears peer c reply ∧ answer.From c.operation.reply reply ∧
      c.outcome answer = r := by
  have hran := p.run_ran peer c
  rw [h] at hran
  generalize (p.run peer c).2 = q at hran
  cases hran
  case unprepared hreq =>
    obtain ⟨_, _, rfl⟩ := ho _ rfl
    cases Call.request_error hreq <;> simp_all
  case refused     => nomatch ho _ rfl
  case unencodable => nomatch ho _ rfl
  case lost        => nomatch ho _ rfl
  case answered answer _ hreq hc he hx =>
    have ⟨⟨reply, hh, hf⟩, _⟩ := exchange_from (hp.wf hc) hreq he hx
    exact ⟨reply, answer, hh, hf, (settle_fst ..).symm⟩

-- A call leaves an open proxy open, unless it says that the proxy is broken. Nothing is sent over a
-- proxy that is closed, and the local checks are all that its calls still do. Descriptors are
-- duplicated before that is noticed, so a call whose duplication fails reports this instead, and no
-- other call reports anything but that the proxy is closed.
theorem run_results_originate (hp : p.Reachable peer) (c : Call δ α) :
    let r := (p.run peer c).1
    let q := (p.run peer c).2
    (p.isClosed = false → (q.isClosed = true ↔ ∃ cause, r = .error (.broken cause))) ∧
    (q.isClosed = true → ∀ calls : List ((β : Type) × Call δ β),
      let last := (runAll peer calls q).2
      last.isClosed = true ∧ last.dispatcher = q.dispatcher ∧
        ∀ {β : Type} (d : Call δ β), d.PathsPass →
          (last.run peer d).1 = .error
            ((Call.firstFailure? d.copies last.attempts).elim (.broken .closed) ProxyError.io)) ∧
    (∀ code message, r = .error (.errno code message) →
      ∃ reply, p.Hears peer c reply ∧ c.FailsWith reply code) ∧
    (∀ x, r = .ok x → ∃ reply, p.Hears peer c reply ∧ c.Succeeds reply x) := by
  intro r q
  refine ⟨fun ho => run_isClosed_iff ho c, fun hq calls => ?_, fun code message hr => ?_,
    fun x hr => ?_⟩
  · have ⟨attempts, hl⟩ := runAll_closed peer hq calls
    intro last
    have hlast : last = { q with attempts } := hl
    have hc : last.isClosed = true := hlast ▸ hq
    refine ⟨hc, by rw [hlast], fun d hd => ?_⟩
    have hreq := Call.request_copies hd last.cwd last.attempts
    cases hf : Call.firstFailure? d.copies last.attempts
    case none =>
      simp only [hf] at hreq
      exact (run_closed peer hc d).right _ _ hreq
    case some cause =>
      simp only [hf] at hreq
      have ⟨_, hreq⟩ := hreq
      rw [run_unprepared hreq]
      rfl
  · have ⟨reply, answer, hh, hf, ho⟩ := heard hp hr fun _ he => ⟨_, _, (Except.error.inj he).symm⟩
    exact ⟨reply, hh, Call.outcome_errno hf ho⟩
  · have ⟨reply, answer, hh, hf, ho⟩ := heard hp hr nofun
    exact ⟨reply, hh, Call.outcome_ok hf ho⟩

-- The helper was gone before the first call.
theorem results_after_lost_helper :
    let peer : Peer Unit Nat := { react := fun _ _ => (.leave, ()) }
    let p : Proxy Unit Nat :=
      { dispatcher := { link := { channel := { patience := some 0 }, far := () } }, cwd := 0 }
    let q := (p.run peer .cleanup).2
    p.Reachable peer ∧ q.isClosed = true ∧
      (q.run peer (.unlink none [47] 0)).1 = .error (.broken .closed) := by
  intro peer p q
  have hw : ({ patience := some 0 } : Channel Nat).Wf := { (Channel.fresh_carries [] false).toWf with }
  have hp : p.Reachable peer := .attached none 0 [] hw
  have ⟨hc, hl, _⟩ := run_results_originate hp .cleanup
  have hq : q.isClosed = true := (hc rfl).mpr ⟨_, rfl⟩
  have ⟨_, _, hr⟩ := hl hq []
  exact ⟨hp, hq, hr (.unlink none [47] 0) (by simp [Call.PathsPass, Call.paths]; rfl)⟩

-- There is no descriptor left for a duplicate, which says nothing about a proxy that is closed.
theorem closed_proxy_reports_failed_duplicate :
    let peer : Peer Unit Nat := { react := fun _ _ => (.leave, ()) }
    let p : Proxy Unit Nat :=
      { dispatcher := { link := { far := () } }, cwd := 0, attempts := [some (.os Errno.mfile)] }
    let q := p.close peer
    let c : Call Nat Unit := .unlink (some 3) [47] 0
    p.Reachable peer ∧ q.Reachable peer ∧ q.isClosed = true ∧ c.PathsPass ∧
      (q.run peer c).1 = .error (.io (.os Errno.mfile)) := by
  intro peer p q c
  have hp : p.Reachable peer := .attached none 0 _ (Channel.fresh_carries [] false).toWf
  refine ⟨hp, .closed hp, close_isClosed .., ?_, rfl⟩
  simp [Call.PathsPass, Call.paths, c]
  rfl

end Proxy

end FileBroker
