import Mathlib
import FileBroker.Proofs.Helper.Serving
import FileBroker.Proofs.Proxy.Lifecycle
import FileBroker.Proofs.Proxy.Plan

namespace FileBroker

open Channel

variable {σ δ ε : Type} {k : Kernel σ δ}

-- A request over a link, when nothing else is on its way.
theorem Link.exchange_one {l : Link (Server σ δ) δ} {r : Request δ} {reply : Reply δ} {w : σ}
    (hn : l.channel.Idle) (hs : l.far.Ready) (hf : ∀ n ∈ r.numbers, Decimal.fits 32 n)
    (hx : (r.record.execute k).run l.far.world = (reply, w)) (hr : reply.Suits r.operation.reply) :
    ∃ l', l.exchange (Server.peer k) r.encoded = (.ok reply.answer, l') ∧ l'.channel.Idle ∧
      l'.far.Ready ∧ l'.far.world = w ∧ l'.far.served = l.far.served + 1 := by
  have ht := transmit_ok hn.patience r.encoded
  obtain ⟨t, hreact, hready, hw, hserved⟩ := Server.react_one hs hf hx
  let near : Channel δ := { l.channel with sent := [] }.arrive { segments := [reply.segment] }
  have hsettle :
      Link.settle (Server.peer k) { l with channel.sent := l.channel.sent ++ r.encoded.segments } =
        { channel := near, far := t } := by
    have hne : r.encoded.segments ≠ [] := by simp [Encoded.segments, Request.encoded, layout_ne_nil]
    simp [Link.settle, hn.sent, hne, Server.peer, hreact, near]
  have hc : near.Carries { cells := reply.segment.cells } := by
    have hc : ({ l.channel with sent := [] } : Channel δ).Carries { cells := [] } := { hn.carries with }
    have := hc.arrive { segments := [reply.segment] }
    simpa using this
  obtain ⟨d, hd, hdc, hdo⟩ := Answer.read_yields hr (s := { cells := [] }) ⟨rfl, rfl⟩ near hc
  change near.readAnswer r.encoded.operation.reply = _ at hd
  refine ⟨{ channel := d, far := t }, ?_, idle_of_outgoing hdc hdo, hready, hw, hserved⟩
  rw [exchange, ht]
  simp only [hsettle, hd]

namespace Proxy

variable {p : Proxy (Server σ δ) δ}

-- Between two calls of a proxy whose helper serves.
structure Attached (p : Proxy (Server σ δ) δ) : Prop where
  near     : p.dispatcher.link.channel.Idle
  far      : p.dispatcher.link.far.Ready
  running  : p.dispatcher.finished = false
  isOpen   : p.isClosed = false
  attempts : p.attempts = []

-- A proxy and a helper that have just been connected, over a stream that is received in any pieces.
def attached (cwd : δ) (world : σ) (near far : List Nat) : Proxy (Server σ δ) δ where
  dispatcher.link :=
    { channel := { inbound := { pace := near } }
      far := { channel := { inbound := { pace := far } }, world } }
  cwd

theorem attached_attached (cwd : δ) (world : σ) (near far : List Nat) :
    (attached cwd world near far).Attached where
  near     := fresh_idle near
  far      := ⟨fresh_idle far, rfl⟩
  running  := rfl
  isOpen   := rfl
  attempts := rfl

def helper (p : Proxy (Server σ δ) δ) : Server σ δ :=
  p.dispatcher.link.far

-- One call.
theorem run_attached (hk : k.Lawful) (hp : p.Attached) {c : Call δ α} (hc : c.Accepted) :
    ∃ q, p.run (Server.peer k) c = ((c.direct k p.cwd p.helper.world).1, q) ∧ q.Attached ∧
      q.cwd = p.cwd ∧ q.helper.world = (c.direct k p.cwd p.helper.world).2 ∧
      q.helper.served = p.helper.served + 1 := by
  have ⟨reply, hx, hs, ho⟩ := Call.execute_plan hk hc p.cwd p.helper.world
  have hs : reply.Suits (c.asks p.cwd).operation.reply := Call.asks_operation c p.cwd ▸ hs
  have ⟨l, hl, hnear, hfar, hw, hserved⟩ :=
    Link.exchange_one (k := k) hp.near hp.far (hc.fits p.cwd) hx hs
  let q := { p with dispatcher := { p.dispatcher with link := l }, nextId := p.nextId + 1 }
  have hx : p.exchange (Server.peer k) (c.asks p.cwd).encoded = (.ok reply.answer, q) :=
    exchange_of_link hp.running hl
  have he : (c.asks p.cwd).encode = .ok (c.asks p.cwd).encoded := Request.encode_ok (hc.fits p.cwd)
  have hr : (c.request p.cwd).run.run p.attempts = (.ok (c.asks p.cwd), p.attempts) :=
    hp.attempts ▸ Call.request_run (hc.pathsPass p.cwd) p.cwd
  have hran := run_answered hr hp.isOpen he hx
  rw [ho] at hran
  refine ⟨q, hran.trans <| settle_intact fun _ => Call.direct_not_broken,
    ⟨hnear, hfar, hp.running, hp.isOpen, hp.attempts⟩, rfl, hw, hserved⟩

-- Calls made with no helper, one after the other.
def directAll (k : Kernel σ δ) (cwd : δ) : List ((α : Type) × Call δ α) → σ →
    List ((α : Type) × Except ProxyError α) × σ
  | [],              w => ([], w)
  | ⟨α, c⟩ :: calls, w =>
    let (r, w) := c.direct k cwd w
    let (rs, w) := directAll k cwd calls w
    (⟨α, r⟩ :: rs, w)

variable {calls : List ((α : Type) × Call δ α)}

theorem runAll_attached (hk : k.Lawful) (hp : p.Attached) (hc : ∀ c ∈ calls, c.2.Accepted) :
    ∃ q, runAll (Server.peer k) calls p = ((directAll k p.cwd calls p.helper.world).1, q) ∧
      q.Attached ∧ q.helper.world = (directAll k p.cwd calls p.helper.world).2 ∧
      q.helper.served = p.helper.served + calls.length := by
  induction calls generalizing p
  case nil => exact ⟨p, rfl, hp, rfl, rfl⟩
  case cons c calls hi =>
    have ⟨hc, hcs⟩ := List.forall_mem_cons.mp hc
    have ⟨q, hq, hqa, hcwd, hw, hs⟩ := run_attached hk hp hc
    have ⟨q', hq', ha, hw', hs'⟩ := hi hqa hcs
    rw [hcwd, hw] at hq' hw'
    refine ⟨q', ?_, ha, hw', ?_⟩
    · simp only [runAll, hq, hq', directAll]
    · rw [hs', hs, List.length_cons]
      omega

theorem directAll_recorded (k : Kernel σ δ) (note : {β : Type} → Syscall δ β → ε) (cwd : δ) (w : σ)
    (log : List ε) :
    directAll (k.recorded note) cwd calls (w, log) =
      ((directAll k cwd calls w).1, (directAll k cwd calls w).2,
        log ++ calls.flatMap fun c => (c.2.plan k.number cwd).notes note) := by
  induction calls generalizing w log
  case nil => simp [directAll]
  case cons c calls hi => simp [directAll, Call.direct_recorded, hi]

-- The system calls that the helper makes are those that were planned, one for each call that needs
-- one, in the order of the calls, and the caller gets what the kernel has answered.
theorem runAll_makes_planned_calls (hk : k.Lawful) (hc : ∀ c ∈ calls, c.2.Accepted) (cwd : δ)
    (world : σ) (near far : List Nat) (note : {β : Type} → Syscall δ β → ε) :
    let run := runAll (Server.peer (k.recorded note)) calls (attached cwd (world, []) near far)
    let direct := directAll k cwd calls world
    run.1 = direct.1 ∧
      run.2.helper.world = (direct.2, calls.flatMap fun c => (c.2.plan k.number cwd).notes note) ∧
      run.2.helper.served = calls.length ∧ run.2.isClosed = false := by
  have ⟨q, hq, ha, hw, hs⟩ :=
    runAll_attached (hk.recorded note) (attached_attached cwd (world, []) near far) hc
  change runAll _ _ _ = ((directAll (k.recorded note) cwd calls (world, [])).1, q) at hq
  change q.helper.world = (directAll (k.recorded note) cwd calls (world, [])).2 at hw
  change q.helper.served = 0 + calls.length at hs
  rw [directAll_recorded] at hq hw
  intro run direct
  have hrun : run = (direct.1, q) := hq
  rw [hrun]
  exact ⟨rfl, hw, hs.trans <| Nat.zero_add _, ha.isOpen⟩

-- A world with one file to open and one link, where a watch can be set and the rest is denied or
-- missing. The answers arrive in pieces of one byte.
theorem calls_on_small_world :
    let k : Kernel Unit Nat :=
      { call := fun s w => match s with
          | .openAt ..     => (.ok 3, w)
          | .readlinkAt .. => (.ok [47], w)
          | .accessAt ..   => (.error Errno.acces, w)
          | .watch ..      => (.ok 1, w)
          | _              => (.error Errno.noent, w)
        number := id }
    let note {β : Type} (s : Syscall Nat β) : Option Nat × Option Nat × Bytes × UInt32 :=
      match s with
      | .openAt base path flags _           => (base, none, path, flags.toUInt32)
      | .renameAt oldBase _ newBase _ flags => (oldBase, newBase, [], flags)
      | .watch inotify path mask            => (some inotify, none, path, mask)
      | _                                   => (none, none, [], 0)
    let calls : List ((α : Type) × Call Nat α) :=
      [⟨_, .openFile (some 5) [97] (-1)⟩, ⟨_, .readLink none [98]⟩, ⟨_, .access none [99] 4⟩,
        ⟨_, .rename none [100] (some 6) [101, 10] 0x80000000⟩,
        ⟨_, .addWatch 9 (some 5) [97] 0xFF000000⟩]
    let run := runAll (Server.peer (k.recorded note)) calls
      (attached 0 ((), []) (List.replicate 100 1) [1, 2])
    run.1 = [⟨Nat, .ok 3⟩, ⟨Bytes, .ok [47]⟩, ⟨Bool, .ok false⟩,
        ⟨Unit, .error (.errno Errno.noent "No such file or directory")⟩, ⟨Int32, .ok 1⟩] ∧
      run.2.helper.world = ((), [(some 5, none, [97], 0xFFFFFFFF), (none, none, [], 0),
        (none, none, [], 0), (some 0, some 6, [], 0x80000000),
        (some 9, none, Utf8.encode "/proc/self/fd/5/a", 0xFF000000)]) := by
  intro k note calls run
  have hk : k.Lawful :=
    { returns := fun {_ s _ _ _} h => by cases s <;> cases h <;> simp [Syscall.Returns]
      fails := fun {_ s _ _ _} h => by cases s <;> cases h <;> decide }
  have hc : ∀ c ∈ calls, c.2.Accepted := by
    simp only [calls, List.forall_mem_cons]
    refine ⟨?_, ?_, ?_, ?_, ?_, nofun⟩
    all_goals exact ⟨by decide, .inr (by decide), by decide, by decide⟩
  have ⟨hr, hw, _⟩ := runAll_makes_planned_calls hk hc 0 () (List.replicate 100 1) [1, 2] note
  have hu : Utf8.encode (Utf8.decodeLossy [47]) = [47] :=
    congrArg Utf8.encode (Utf8.decodeLossy_encode "/")
  have hp : Call.watched k.number (some 5) [97] = Utf8.encode "/proc/self/fd/5/a" := by decide
  refine ⟨?_, ?_⟩
  · rw [←hu]
    exact hr.trans rfl
  · rw [←hp]
    exact hw.trans rfl

end Proxy

end FileBroker
