import Mathlib
import FileBroker.Proofs.Proxy.Preparing
import FileBroker.Proxy.Basic

namespace FileBroker

variable {ω δ : Type} {peer : Peer ω δ}

-- A published answer has come over the link.
theorem Dispatcher.take_ok {d d' : Dispatcher ω δ} {id : Nat}
    (h : d.take peer (.request id e) = (some published, d')) (hr : published.result = .ok answer) :
    ∃ link, d.link.exchange peer e = (.ok answer, link) ∧ d' = { d with link } := by
  by_cases hf : d.finished = true
  case pos =>
    rw [take_finished hf] at h
    simp at h
  case neg =>
    rw [take_request (Bool.not_eq_true _ ▸ hf)] at h
    unfold serve at h
    match hl : d.link.exchange peer e with
    | (.ok a, link) =>
      simp only [hl, publish, Prod.mk.injEq, Option.some.injEq] at h
      obtain ⟨rfl, rfl⟩ := h
      cases hr
      exact ⟨link, rfl, rfl⟩
    | (.error (.io cause), link) =>
      simp only [hl] at h
      split at h
      · simp at h
      · simp only [tryPublish, Prod.mk.injEq, Option.some.injEq] at h
        simp [←h.left] at hr
    | (.error (.overflow ..), link) | (.error (.malformed _), link) =>
      simp only [hl, publish, Prod.mk.injEq, Option.some.injEq] at h
      simp [←h.left] at hr

namespace Proxy

variable {p q : Proxy ω δ} {c : Call δ α}

inductive Ran (peer : Peer ω δ) (p : Proxy ω δ) (c : Call δ α) :
    Except ProxyError α → Proxy ω δ → Prop
  | unprepared {e attempts} :
    (c.request p.cwd).run.run p.attempts = (.error e, attempts) →
    Ran peer p c (.error e) { p with attempts }
  | refused {r attempts} :
    (c.request p.cwd).run.run p.attempts = (.ok r, attempts) → p.isClosed = true →
    Ran peer p c (.error (.broken .closed)) { p with attempts }
  | unencodable {r attempts e} :
    (c.request p.cwd).run.run p.attempts = (.ok r, attempts) → p.isClosed = false →
    r.encode = .error e →
    Ran peer p c (.error (.invalidArgument (.unencodable e))) { p with attempts }
  | lost {r attempts e cause q} :
    (c.request p.cwd).run.run p.attempts = (.ok r, attempts) → p.isClosed = false →
    r.encode = .ok e → { p with attempts }.exchange peer e = (.error cause, q) →
    Ran peer p c (.error (.broken cause)) (q.close peer)
  | answered {r attempts e answer q} :
    (c.request p.cwd).run.run p.attempts = (.ok r, attempts) → p.isClosed = false →
    r.encode = .ok e → { p with attempts }.exchange peer e = (.ok answer, q) →
    Ran peer p c (q.settle peer (c.outcome answer)).1 (q.settle peer (c.outcome answer)).2

theorem run_ran (peer : Peer ω δ) (c : Call δ α) (p : Proxy ω δ) :
    p.Ran peer c (p.run peer c).1 (p.run peer c).2 := by
  unfold run
  match hr : (c.request p.cwd).run.run p.attempts with
  | (.error e, attempts) => exact .unprepared hr
  | (.ok r, attempts) =>
    dsimp only
    split
    case isTrue hc => exact .refused hr hc
    case isFalse hc =>
      have hc : p.isClosed = false := Bool.not_eq_true _ ▸ hc
      split
      case h_1 he => exact .unencodable hr hc he
      case h_2 he =>
        split
        case h_1 hx => exact .lost hr hc he hx
        case h_2 hx => exact .answered hr hc he hx

theorem run_unprepared {e : ProxyError} {attempts : Call.Duplications}
    (h : (c.request p.cwd).run.run p.attempts = (.error e, attempts)) :
    p.run peer c = (.error e, { p with attempts }) := by
  rw [run, h]

theorem run_unencodable {r : Request δ} {attempts : Call.Duplications}
    (hr : (c.request p.cwd).run.run p.attempts = (.ok r, attempts)) (ho : p.isClosed = false)
    (he : r.encode = .error e) :
    p.run peer c = (.error (.invalidArgument (.unencodable e)), { p with attempts }) := by
  have ho : { p with attempts }.isClosed = false := ho
  rw [run, hr]
  simp only [ho, he]
  rfl

theorem run_answered {r : Request δ} {attempts : Call.Duplications}
    (hr : (c.request p.cwd).run.run p.attempts = (.ok r, attempts)) (ho : p.isClosed = false)
    (he : r.encode = .ok e) (hx : { p with attempts }.exchange peer e = (.ok answer, q)) :
    p.run peer c = q.settle peer (c.outcome answer) := by
  have ho : { p with attempts }.isClosed = false := ho
  rw [run, hr]
  simp only [ho, he, hx]
  rfl

theorem close_isClosed (peer : Peer ω δ) (p : Proxy ω δ) : (p.close peer).isClosed = true := by
  unfold close
  split
  case isTrue h => simp [isClosed, h]
  case isFalse  => rfl

theorem settle_fst (peer : Peer ω δ) (p : Proxy ω δ) (r : Except ProxyError α) :
    (p.settle peer r).1 = r := by
  cases r <;> rfl

-- A result that does not say that the proxy is broken leaves it as it is.
theorem settle_intact {r : Except ProxyError α} (h : ∀ e, r = .error e → e.isBroken = false) :
    p.settle peer r = (r, p) := by
  cases r
  case ok      => rfl
  case error e => simp [settle, h e rfl]

theorem settle_isClosed_iff (hp : p.isClosed = false) (r : Except ProxyError α) :
    (p.settle peer r).2.isClosed = true ↔ ∃ cause, r = .error (.broken cause) := by
  cases r
  case ok => simp [settle, hp]
  case error e =>
    cases e
    case broken cause => simp [settle, ProxyError.isBroken, close_isClosed]
    all_goals simp [settle, ProxyError.isBroken, hp]

theorem settle_of_open {r : Except ProxyError α} (h : (p.settle peer r).2.isClosed = false) :
    (p.settle peer r).2 = p := by
  cases r
  case ok => rfl
  case error e =>
    cases hb : e.isBroken
    case false => simp [settle, hb]
    case true  => simp [settle, hb, close_isClosed] at h

-- An answer comes over the link, and changes nothing but the link.
theorem exchange_ok (h : p.exchange peer e = (.ok answer, q)) :
    ∃ link, p.dispatcher.link.exchange peer e = (.ok answer, link) ∧
      q = { p with dispatcher := { p.dispatcher with link }, nextId := p.nextId + 1 } := by
  unfold exchange at h
  match ht : p.dispatcher.take peer (.request p.nextId e) with
  | (none, d) => simp [ht] at h
  | (some published, d) =>
    simp only [ht, Prod.mk.injEq] at h
    have ⟨link, hl, hd⟩ := Dispatcher.take_ok ht h.left
    exact ⟨link, hl, hd ▸ h.right.symm⟩

theorem exchange_of_link (hf : p.dispatcher.finished = false)
    (hl : p.dispatcher.link.exchange peer e = (.ok answer, link)) :
    p.exchange peer e =
      (.ok answer, { p with dispatcher := { p.dispatcher with link }, nextId := p.nextId + 1 }) := by
  simp [exchange, Dispatcher.take_request hf, Dispatcher.serve, Dispatcher.publish, hl]

-- An open proxy is closed by the calls that say that it is broken, and by no others.
theorem run_isClosed_iff (hp : p.isClosed = false) (c : Call δ α) :
    (p.run peer c).2.isClosed = true ↔ ∃ cause, (p.run peer c).1 = .error (.broken cause) := by
  generalize hr : (p.run peer c).1 = r
  generalize hq : (p.run peer c).2 = q
  have h := p.run_ran peer c
  rw [hr, hq] at h
  cases h
  case unprepared he =>
    refine ⟨fun h => absurd (hp.symm.trans h) (by decide), fun ⟨_, h⟩ => ?_⟩
    obtain ⟨_, rfl⟩ | ⟨_, rfl⟩ := Call.request_error he <;> simp at h
  case refused hc => exact absurd (hp.symm.trans hc) (by decide)
  case unencodable =>
    refine ⟨fun h => ?_, fun ⟨_, h⟩ => ?_⟩
    · exact absurd (hp.symm.trans h) (by decide)
    · simp at h
  case lost => exact ⟨fun _ => ⟨_, rfl⟩, fun _ => close_isClosed ..⟩
  case answered hx =>
    have ⟨_, _, hq⟩ := exchange_ok hx
    rw [settle_fst]
    exact settle_isClosed_iff (hq ▸ hp) _

-- A closed proxy does nothing but check the arguments of a call.
theorem run_closed (peer : Peer ω δ) (hp : p.isClosed = true) (c : Call δ α) :
    (∃ attempts, (p.run peer c).2 = { p with attempts }) ∧
      ∀ r attempts, (c.request p.cwd).run.run p.attempts = (.ok r, attempts) →
        (p.run peer c).1 = .error (.broken .closed) := by
  generalize hr : (p.run peer c).1 = r
  generalize hq : (p.run peer c).2 = q
  have h := p.run_ran peer c
  rw [hr, hq] at h
  cases h
  case unprepared he => exact ⟨⟨_, rfl⟩, fun _ _ h => nomatch he.symm.trans h⟩
  case refused => exact ⟨⟨_, rfl⟩, fun _ _ _ => rfl⟩
  case unencodable hc _ => exact absurd (hp.symm.trans hc) (by decide)
  case lost hc _ _      => exact absurd (hp.symm.trans hc) (by decide)
  case answered hc _ _  => exact absurd (hp.symm.trans hc) (by decide)

-- The calls that one caller makes one after the other, and their results.
def runAll (peer : Peer ω δ) : List ((α : Type) × Call δ α) → Proxy ω δ →
    List ((α : Type) × Except ProxyError α) × Proxy ω δ
  | [],              p => ([], p)
  | ⟨α, c⟩ :: calls, p =>
    let (r, p) := p.run peer c
    let (rs, p) := runAll peer calls p
    (⟨α, r⟩ :: rs, p)

theorem runAll_closed (peer : Peer ω δ) (hp : p.isClosed = true) (calls : List ((α : Type) × Call δ α)) :
    ∃ attempts, (runAll peer calls p).2 = { p with attempts } := by
  induction calls generalizing p
  case nil => exact ⟨_, rfl⟩
  case cons c calls hi =>
    have ⟨⟨attempts, hq⟩, _⟩ := run_closed peer hp c.2
    have ⟨later, hl⟩ := hi (hq ▸ hp : (p.run peer c.2).2.isClosed = true)
    exact ⟨later, by rw [runAll]; exact hl.trans (by rw [hq])⟩

end Proxy

end FileBroker
