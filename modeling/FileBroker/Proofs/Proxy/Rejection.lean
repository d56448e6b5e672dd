import Mathlib
import FileBroker.Proofs.Proxy.Lifecycle

namespace FileBroker

variable {ω δ : Type} {peer : Peer ω δ}

-- What an answer that is no success can mean.
def ProxyError.Reported (e : ProxyError) : Prop :=
  (∃ code text, e = .errno code text) ∨ ∃ cause, e = .broken cause

namespace Call

-- How the arguments of a call can be wrong.
inductive Misuse (c : Call δ α) : Prop
  | emptyPath : c.operation ≠ .stat → [] ∈ c.paths → Misuse c
  | nulInPath {path} : path ∈ c.paths → 0 ∈ path → Misuse c
  | longPath {path} : path ∈ c.paths → 2 ^ 31 ≤ path.length → Misuse c
  | largeDevice : 2 ^ 31 ≤ c.device.toNat → Misuse c

variable {c : Call δ α}

theorem misuse_iff : c.Misuse ↔ ¬c.Accepted := by
  constructor
  case mp =>
    intro h ha
    cases h
    case emptyPath ho hm => exact ha.nonempty.elim ho (· hm)
    case nulInPath hm hn => exact ha.noNul _ hm hn
    case longPath hm hl  => exact absurd (ha.lengths _ hm) (by omega)
    case largeDevice hd  => exact absurd ha.device (by omega)
  case mpr =>
    intro ha
    by_contra h
    refine ha ⟨fun path hm hn => h (.nulInPath hm hn), ?_, fun path hm => ?_, ?_⟩
    · by_contra he
      obtain ⟨ho, hm⟩ := not_or.mp he
      exact h <| .emptyPath ho (not_not.mp hm)
    · exact Nat.lt_of_not_le fun hl => h (.longPath hm hl)
    · exact Nat.lt_of_not_le fun hd => h (.largeDevice hd)

theorem refusal_reported (text : String) : (refusal text).Reported := by
  unfold refusal
  split
  · exact .inl ⟨_, _, rfl⟩
  · exact .inr ⟨_, rfl⟩

theorem ready_reported {a : Answer δ} (h : ready a = .error e) : e.Reported := by
  unfold ready at h
  split at h
  · nomatch h
  · exact Except.error.inj h ▸ refusal_reported _

theorem outcome_reported {a : Answer δ} (h : c.outcome a = .error e) : e.Reported := by
  cases c
  case openFile | create | readLink =>
    obtain hr | ⟨_, _, h⟩ := bind_eq_error h
    case inl => exact ready_reported hr
    case inr =>
      split at h
      · nomatch h
      · exact .inr ⟨_, (Except.error.inj h).symm⟩
  case init =>
    obtain hr | ⟨_, _, h⟩ := bind_eq_error h
    case inl => exact ready_reported hr
    case inr => nomatch h
  case makeDir | unlink | makeNode | rename | link | cleanup => exact ready_reported h
  case access =>
    rw [outcome] at h
    split at h
    case h_1 => nomatch h
    case h_2 =>
      split at h
      · nomatch h
      · exact .inl ⟨_, _, (Except.error.inj h).symm⟩
    case h_3 hr => exact Except.error.inj h ▸ ready_reported hr
  case stat =>
    rw [outcome] at h
    split at h
    · nomatch h
    · exact Except.error.inj h ▸ refusal_reported _
  case addWatch =>
    rw [outcome] at h
    split at h
    · split at h
      · nomatch h
      · exact Except.error.inj h ▸ refusal_reported _
    · exact Except.error.inj h ▸ refusal_reported _

-- With descriptors that can all be duplicated, preparing a request uses up nothing.
theorem request_attempts (h : (c.request cwd).run.run [] = (r, attempts)) : attempts = [] := by
  by_cases hp : c.PathsPass
  case pos => exact (Prod.mk.inj <| h.symm.trans <| request_run hp cwd).right
  case neg =>
    have ⟨_, hr⟩ := request_refused hp cwd
    exact (Prod.mk.inj <| h.symm.trans hr).right

end Call

namespace Proxy

variable {p q : Proxy ω δ} {c : Call δ α}

theorem exchange_attempts (h : p.exchange peer e = (r, q)) : q.attempts = p.attempts := by
  have hx : (p.exchange peer e).2.attempts = p.attempts := by
    unfold exchange
    dsimp only
    split <;> rfl
  rwa [h] at hx

theorem close_attempts (peer : Peer ω δ) (p : Proxy ω δ) : (p.close peer).attempts = p.attempts := by
  unfold close
  split <;> rfl

theorem settle_attempts (peer : Peer ω δ) (p : Proxy ω δ) (r : Except ProxyError α) :
    (p.settle peer r).2.attempts = p.attempts := by
  cases r
  case ok => rfl
  case error e =>
    rw [settle]
    split
    · exact close_attempts ..
    · rfl

-- Descriptors are duplicated only to prepare a request.
theorem run_attempts (peer : Peer ω δ) (p : Proxy ω δ) (c : Call δ α) :
    (p.run peer c).2.attempts = ((c.request p.cwd).run.run p.attempts).2 := by
  generalize hr : (p.run peer c).1 = r
  generalize hq : (p.run peer c).2 = q
  have h := p.run_ran peer c
  rw [hr, hq] at h
  cases h
  case unprepared hreq => rw [hreq]
  case refused hreq _ => rw [hreq]
  case unencodable hreq _ _ => rw [hreq]
  case lost hreq _ _ hx => rw [close_attempts, exchange_attempts hx, hreq]
  case answered hreq _ _ hx => rw [settle_attempts, exchange_attempts hx, hreq]

-- Whether this is the result of a rejected call.
def rejected : Except ProxyError α → Bool
  | .error (.invalidArgument _) => true
  | _                           => false

theorem rejected_iff {r : Except ProxyError α} :
    rejected r = true ↔ ∃ cause, r = .error (.invalidArgument cause) := by
  unfold rejected
  split <;> simp_all

theorem answered_not_rejected (peer : Peer ω δ) (q : Proxy ω δ) (c : Call δ α) (a : Answer δ) :
    rejected (q.settle peer (c.outcome a)).1 = false := by
  rw [settle_fst, Bool.eq_false_iff, ne_eq, rejected_iff]
  intro ⟨cause, h⟩
  obtain ⟨_, _, he⟩ | ⟨_, he⟩ := Call.outcome_reported h <;> nomatch he

-- A call is rejected before anything is sent.
theorem rejected_early (h : rejected (p.run peer c).1 = true) :
    ∃ r attempts, (c.request p.cwd).run.run p.attempts = (r, attempts) ∧
      (p.run peer c).2 = { p with attempts } ∧ ∀ x, r = .ok x → ∃ e, x.encode = .error e := by
  generalize hr : (p.run peer c).1 = r at h
  generalize hq : (p.run peer c).2 = q
  have hran := p.run_ran peer c
  rw [hr, hq] at hran
  cases hran
  case unprepared hreq => exact ⟨_, _, hreq, rfl, nofun⟩
  case unencodable e hreq _ he => exact ⟨_, _, hreq, rfl, fun _ hx => ⟨e, Except.ok.inj hx ▸ he⟩⟩
  case refused => nomatch h
  case lost => nomatch h
  case answered =>
    rw [answered_not_rejected] at h
    nomatch h

-- Nothing of a proxy changes when it rejects a call.
theorem run_rejected (hd : p.attempts = []) (h : rejected (p.run peer c).1 = true) :
    (p.run peer c).2 = p := by
  have ⟨_, attempts, hreq, hq, _⟩ := rejected_early h
  have ha : attempts = p.attempts := (Call.request_attempts (hd ▸ hreq)).trans hd.symm
  rw [hq, ha]

theorem run_too_large (hd : p.attempts = []) (ho : p.isClosed = false) (hp : c.PathsPass)
    (he : (c.asks p.cwd).encode = .error e) :
    p.run peer c = (.error (.invalidArgument (.unencodable e)), p) := by
  have hr : (c.request p.cwd).run.run p.attempts = (.ok (c.asks p.cwd), p.attempts) :=
    hd ▸ Call.request_run hp p.cwd
  exact run_unencodable hr ho he

-- An open proxy rejects nothing but misuse, and all of it.
theorem rejected_iff_misuse (hd : p.attempts = []) (ho : p.isClosed = false) (c : Call δ α) :
    rejected (p.run peer c).1 = true ↔ c.Misuse := by
  rw [Call.misuse_iff, Call.accepted_iff p.cwd, not_and_or]
  constructor
  case mp =>
    intro h
    have ⟨r, attempts, hreq, _, he⟩ := rejected_early h
    by_cases hp : c.PathsPass
    case neg => exact .inl hp
    case pos =>
      have hr := (Prod.mk.inj <| hreq.symm.trans <| hd ▸ Call.request_run hp p.cwd).left
      exact .inr <| Request.exists_encode_error_iff.mp <| he _ hr
  case mpr =>
    intro h
    by_cases hp : c.PathsPass
    case neg =>
      have ⟨cause, hr⟩ := Call.request_refused hp p.cwd
      rw [run_unprepared (hd ▸ hr)]
      rfl
    case pos =>
      have ⟨e, he⟩ := Request.exists_encode_error_iff.mpr <| h.resolve_left (not_not.mpr hp)
      rw [run_too_large hd ho hp he]
      rfl

-- The calls of a sequence that are not rejected.
def kept (peer : Peer ω δ) (calls : List ((α : Type) × Call δ α)) (p : Proxy ω δ) :
    List ((α : Type) × Call δ α) :=
  ((calls.zip (runAll peer calls p).1).filter fun (_, r) => !rejected r.2).map (·.1)

theorem kept_cons (calls : List ((α : Type) × Call δ α)) (d : (α : Type) × Call δ α) :
    kept peer (d :: calls) p =
      if rejected (p.run peer d.2).1 then kept peer calls (p.run peer d.2).2
      else d :: kept peer calls (p.run peer d.2).2 := by
  cases h : rejected (p.run peer d.2).1 <;> simp [kept, runAll, h]

theorem runAll_kept (hd : p.attempts = []) (calls : List ((α : Type) × Call δ α)) :
    runAll peer (kept peer calls p) p =
      ((runAll peer calls p).1.filter fun r => !rejected r.2, (runAll peer calls p).2) := by
  induction calls generalizing p
  case nil => rfl
  case cons d calls hi =>
    rw [kept_cons]
    split
    case isTrue h =>
      rw [run_rejected hd h, hi hd]
      simp [runAll, h, run_rejected hd h]
    case isFalse h =>
      have hq : (p.run peer d.2).2.attempts = [] := by
        rw [run_attempts, hd]
        exact Call.request_attempts rfl
      simp [runAll, h, hi hq]

-- With an open proxy and no failure to duplicate a descriptor, the calls that are rejected are those that
-- are misused, and the values that do not fit into a record are reported as they are. A rejected call
-- changes nothing of the proxy, its link and the helper, so a run is what it is without such calls.
theorem rejected_calls_leave_no_trace (peer : Peer ω δ) (hd : p.attempts = []) :
    (p.isClosed = false → ∀ {α : Type} (c : Call δ α),
      ((∃ cause, (p.run peer c).1 = .error (.invalidArgument cause)) ↔ c.Misuse) ∧
      ∀ e, c.PathsPass → (c.asks p.cwd).Overflows e →
        (p.run peer c).1 = .error (.invalidArgument (.unencodable e))) ∧
    (∀ (r : Request δ) e, r.encode = .error e ↔ r.Overflows e) ∧
    (∀ {α : Type} (c : Call δ α) cause,
      (p.run peer c).1 = .error (.invalidArgument cause) → (p.run peer c).2 = p) ∧
    ∀ calls, runAll peer (kept peer calls p) p =
      ((runAll peer calls p).1.filter fun r => !rejected r.2, (runAll peer calls p).2) := by
  refine ⟨fun ho _ c => ⟨?_, fun e hp he => ?_⟩, fun r e => Request.encode_error_iff,
    fun c cause h => ?_, runAll_kept hd⟩
  · rw [←rejected_iff]
    exact rejected_iff_misuse hd ho c
  · rw [run_too_large hd ho hp (Request.encode_error_iff.mpr he)]
  · exact run_rejected hd <| rejected_iff.mpr ⟨cause, h⟩

-- A helper that keeps what it is sent and is content with everything. Of the second call and the third,
-- it sees nothing.
theorem helper_sees_accepted_calls :
    let peer : Peer (List (Segment Nat)) Nat :=
      { react := fun sent seen => ({ segments := [Reply.ready.segment] }, seen ++ sent) }
    let p : Proxy (List (Segment Nat)) Nat := { dispatcher := { link := { far := [] } }, cwd := 0 }
    let makeDir : Call Nat Unit  := .makeDir (some 5) [97] 0o700
    let makeNode : Call Nat Unit := .makeNode none [98] 0 0xFFFFFFFFFFFFFFFF
    let openFile : Call Nat Nat  := .openFile none [99, 0] 0
    let calls : List ((α : Type) × Call Nat α) :=
      [⟨_, makeDir⟩, ⟨_, makeNode⟩, ⟨_, openFile⟩, ⟨_, .cleanup⟩]
    let run := runAll peer calls p
    p.attempts = [] ∧ p.isClosed = false ∧
      (p.run peer makeNode).1 =
        .error (.invalidArgument (.unencodable (.overflow "dev" 18446744073709551615))) ∧
      (∃ cause, (p.run peer openFile).1 = .error (.invalidArgument cause)) ∧
      runAll peer [⟨_, makeDir⟩, ⟨_, .cleanup⟩] p = (run.1.filter fun r => !rejected r.2, run.2) ∧
      run.2.dispatcher.link.far =
        [{ bytes := Utf8.encode "MKDIR\n1 448 1 a\n" }, { bytes := [1], fds := [5] },
          { bytes := Utf8.encode "CLEANUP\n0 0\n" }] := by
  intro peer p makeDir makeNode openFile calls run
  have ⟨ho, _, _, hk⟩ := rejected_calls_leave_no_trace peer (p := p) rfl
  have hpass : makeNode.PathsPass := List.forall_mem_singleton.mpr rfl
  have hc : kept peer calls p = [⟨_, makeDir⟩, ⟨_, .cleanup⟩] := by
    simp only [calls, kept_cons]
    rw [if_neg (by decide +kernel), if_pos (by decide +kernel), if_pos (by decide +kernel),
      if_neg (by decide +kernel)]
    rfl
  have hs := hk calls
  rw [hc] at hs
  refine ⟨rfl, rfl, (ho rfl makeNode).right _ hpass <| .device (by decide), ?_, hs, by decide +kernel⟩
  exact (ho rfl openFile).left.mpr <| .nulInPath List.mem_cons_self (by decide)

end Proxy

end FileBroker
