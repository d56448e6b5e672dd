import Mathlib
import FileBroker.Proofs.Channel.Frame
import FileBroker.Proofs.Channel.Link
import FileBroker.Proofs.Channel.Receiving
import FileBroker.Proofs.Reply.Reading
import FileBroker.Proofs.Reply.RoundTrip
import FileBroker.Proxy.Call

namespace FileBroker

open Channel Reading

variable {δ : Type}

-- A reply that has been read, and the channel around it.
structure Heard (δ : Type) where
  shape  : ReplyShape
  before : Channel δ
  after  : Channel δ
  answer : Answer δ

namespace Heard

-- What came in while the reply was read.
def received (t : Heard δ) : List (Cell δ) :=
  t.before.inbound.cells.take (t.before.inbound.cells.length - t.after.inbound.cells.length)

-- A reply keeps nothing from before, and leaves nothing behind.
structure Clean (t : Heard δ) : Prop where
  cells  : t.before.inbound.cells = t.received ++ t.after.inbound.cells
  before : t.before.pending = []
  after  : t.after.pending = []
  -- What is pending when the status text has been read is what came in with it.
  status : t.shape = .statusWithDescriptor → t.before.readMessage.2.pending = attached t.received
  fd     : ∀ fd, t.answer.fd = some fd ↔
    t.shape = .statusWithDescriptor ∧ t.before.readMessage.2.pending = [fd]

theorem received_eq {t : Heard δ} (h : t.before.inbound.cells = new ++ t.after.inbound.cells) :
    t.received = new := by
  rw [received, h, List.length_append, Nat.add_sub_cancel, List.take_left]

end Heard

-- The replies are read off `c` one after the other, while requests are sent and more arrives.
inductive Channel.Replies : Channel δ → List (Heard δ) → Channel δ → Prop
  | nil : Replies c [] c
  | arrive (r : Reaction δ) : Replies (c.arrive r) heard d → Replies c heard d
  | send (o : List (Segment δ) × Option Nat) : Replies (c.sending o) heard d → Replies c heard d
  | read : c.readAnswer shape = (.ok a, d) → Replies d heard e → Replies c (⟨shape, c, d, a⟩ :: heard) e

variable {c d e : Channel δ} {a : Answer δ}

-- The element of a list that has no other.
def only : List α → Option α
  | [a] => some a
  | _   => none

theorem only_eq_some {x : α} {l : List α} : only l = some x ↔ l = [x] := by
  unfold only
  split
  case h_1    => simp
  case h_2 hn => simpa using hn x

namespace Channel

theorem takeFd_eq (c : Channel δ) : c.takeFd = (only c.pending, c.discardFds) := by
  unfold takeFd only
  split
  case h_1 h   => simp [h, discardFds]
  case h_2 hn  =>
    split
    case h_1 h => exact absurd h (hn _)
    case h_2   => rfl

-- Between `c` and `d`, `new` has come in, and nothing is kept of it but what an answer brings.
structure Clears (c : Channel δ) (new : List (Cell δ)) (d : Channel δ) : Prop where
  wf      : d.Wf
  cells   : c.inbound.cells = new ++ d.inbound.cells
  pending : d.pending = []

theorem Receives.clears (h : c.Receives new d) : c.Clears new d.discardFds :=
  ⟨discardFds_wf h.wf, h.cells, rfl⟩

end Channel

namespace Answer

theorem collects_readMessage : Collects (io (readMessage (δ := δ))) :=
  collects_io fun _ h => readMessage_receives h

theorem collects_readStat : Collects (readStat (δ := δ)) := by
  refine (collects_io fun _ h => readWith_receives StatDecoder.feed_le h _ _).bind fun decoder => ?_
  split
  case h_1 => exact collects_pure _
  case h_2 => exact collects_throw _

-- An answer without a descriptor, at the end of what is read for it.
theorem discarded_clears {x : Answer δ} (hx : x.fd = none) (hc : c.Receives new e)
    (h : (do modify discardFds; return x : Reading δ FrameError (Answer δ)).on e = (.ok a, d)) :
    a.fd = none ∧ c.Clears new d := by
  obtain ⟨rfl, rfl⟩ := discarded_ok h
  exact ⟨hx, hc.clears⟩

theorem taken_ok {answer : Option δ → Answer δ}
    (h : (do let fd ← modifyGet takeFd; return answer fd : Reading δ FrameError (Answer δ)).on e =
      (.ok a, d)) : a = answer (only e.pending) ∧ d = e.discardFds := by
  change (Except.ok (answer e.takeFd.1), e.takeFd.2) = (Except.ok a, d) at h
  rw [takeFd_eq] at h
  cases h
  exact ⟨rfl, rfl⟩

-- The descriptor is claimed as soon as the status has been read.
theorem readStatus_clears (h : c.Wf) (hr : (read .statusWithDescriptor).on c = (.ok a, d)) :
    ∃ new, c.Clears new d ∧ c.readMessage.2.pending = c.pending ++ attached new ∧
      a.fd = only c.readMessage.2.pending := by
  have ⟨message, e, hm, hr⟩ := bind_ok hr
  have ⟨new, he⟩ := collects_readMessage.of_on h hm
  rw [io_ok hm]
  obtain ⟨rfl, rfl⟩ := taken_ok hr
  exact ⟨new, he.clears, he.pending, rfl⟩

theorem read_clears {shape : ReplyShape} (h : c.Wf) (hr : (read shape).on c = (.ok a, d)) :
    ∃ new, c.Clears new d ∧
      (if shape = .statusWithDescriptor then
        c.readMessage.2.pending = c.pending ++ attached new ∧ a.fd = only c.readMessage.2.pending
      else a.fd = none) := by
  cases shape
  case status | watchId =>
    have ⟨_, e, hm, hr⟩ := bind_ok hr
    have ⟨new, he⟩ := collects_readMessage.of_on h hm
    have ⟨hfd, hd⟩ := discarded_clears rfl he hr
    exact ⟨new, hd, hfd⟩
  case statusWithDescriptor => exact readStatus_clears h hr
  case statusWithText =>
    have ⟨message, e, hm, hr⟩ := bind_ok hr
    have ⟨_, he⟩ := collects_readMessage.of_on h hm
    split at hr
    case isTrue =>
      have ⟨data, e', hd, hr⟩ := bind_ok hr
      have ⟨_, he'⟩ := ((collects_readMessage.map Payload.text).map some).of_on he.wf hd
      have ⟨hfd, hd⟩ := discarded_clears rfl (he.trans he') hr
      exact ⟨_, hd, hfd⟩
    case isFalse =>
      have ⟨data, e', hd, hr⟩ := bind_ok hr
      obtain ⟨rfl, rfl⟩ := pure_ok hd
      have ⟨hfd, hd⟩ := discarded_clears rfl he hr
      exact ⟨_, hd, hfd⟩
  case snapshot =>
    have ⟨outcome, e, hs, hr⟩ := bind_ok hr
    have ⟨_, he⟩ := collects_readStat.of_on h hs
    cases outcome
    case snapshot s =>
      have ⟨hfd, hd⟩ := discarded_clears rfl he hr
      exact ⟨_, hd, hfd⟩
    case errorFollows =>
      have ⟨message, e', hm, hr⟩ := bind_ok hr
      have ⟨_, he'⟩ := collects_readMessage.of_on he.wf hm
      have ⟨hfd, hd⟩ := discarded_clears rfl (he.trans he') hr
      exact ⟨_, hd, hfd⟩

end Answer

namespace Call

variable {base : Option δ} {path : Bytes}

theorem ready_ok_iff : ready a = .ok () ↔ a.message = readyStatus := by
  simp [ready, Answer.isReady]

theorem openFile_ok_iff :
    (openFile base path flags).outcome a = .ok fd ↔ a.message = readyStatus ∧ a.fd = some fd := by
  rw [outcome, ←ready_ok_iff]
  rcases ready a with _ | _ <;> rcases a.fd with _ | _ <;> simp [bind, Except.bind, pure, Except.pure]

theorem create_outcome (a : Answer δ) (path : Bytes) (mode : UInt32) :
    (create path mode).outcome a = (openFile none path 0).outcome a :=
  rfl

theorem init_ok_iff {fd? : Option δ} :
    init.outcome a = .ok fd? ↔ a.message = readyStatus ∧ a.fd = fd? := by
  rw [outcome, ←ready_ok_iff]
  rcases ready a with _ | _ <;> simp [bind, Except.bind, pure, Except.pure]

end Call

namespace Channel

theorem readAnswer_clean {shape : ReplyShape} (h : c.Wf) (hp : c.pending = [])
    (hr : c.readAnswer shape = (.ok a, d)) : d.Wf ∧ (Heard.mk shape c d a).Clean := by
  have ⟨new, hc, hfd⟩ := Answer.read_clears h hr
  have hnew : (Heard.mk shape c d a).received = new := Heard.received_eq hc.cells
  rw [hp, List.nil_append] at hfd
  refine ⟨hc.wf, hnew ▸ hc.cells, hp, hc.pending, fun hs => ?_, fun fd => ?_⟩
  · rw [if_pos hs] at hfd
    exact hnew ▸ hfd.left
  · split at hfd
    case isTrue hs  => simp [hs, hfd.right, only_eq_some]
    case isFalse hs => simp [hs, hfd]

theorem Replies.clean (hr : c.Replies heard d) (h : c.Wf) (hp : c.pending = []) :
    d.pending = [] ∧ ∀ t ∈ heard, t.Clean := by
  induction hr
  case nil             => exact ⟨hp, by simp⟩
  case arrive r _ hi   => exact hi (arrive_wf h r) hp
  case send o _ hi     => exact hi ⟨h.start_le, h.stop_le, h.capacity_pos, h.bytes_ne⟩ hp
  case read hr _ hi =>
    have ⟨hd, hc⟩ := readAnswer_clean h hp hr
    have ⟨he, ht⟩ := hi hd hc.after
    exact ⟨he, List.forall_mem_cons.mpr ⟨hc, ht⟩⟩

-- Any run of replies, of any shapes.
theorem replies_keep_their_own_descriptors (h : c.Wf) (hp : c.pending = []) (hr : c.Replies heard d) :
    d.pending = [] ∧ ∀ t ∈ heard, t.Clean ∧
      (t.shape = .statusWithDescriptor →
        (∀ base path flags fd, (Call.openFile base path flags).outcome t.answer = .ok fd ↔
          t.answer.message = readyStatus ∧ attached t.received = [fd]) ∧
        (∀ path mode fd, (Call.create path mode).outcome t.answer = .ok fd ↔
          t.answer.message = readyStatus ∧ attached t.received = [fd]) ∧
        (∀ fd?, Call.init.outcome t.answer = .ok fd? ↔
          t.answer.message = readyStatus ∧ fd? = only (attached t.received))) := by
  have ⟨hd, hall⟩ := hr.clean h hp
  refine ⟨hd, fun t ht => ⟨hall t ht, fun hs => ?_⟩⟩
  have hc := hall t ht
  have hfd : t.answer.fd = only (attached t.received) := Option.ext fun fd => by
    rw [hc.fd, hc.status hs, only_eq_some]
    exact and_iff_right hs
  refine ⟨?_, ?_, ?_⟩
  · intro _ _ _ fd
    rw [Call.openFile_ok_iff, hfd, only_eq_some]
  · intro _ _ fd
    rw [Call.create_outcome, Call.openFile_ok_iff, hfd, only_eq_some]
  · intro fd?
    rw [Call.init_ok_iff, hfd]
    exact and_congr_right fun _ => eq_comm

theorem ready_keeps_its_descriptor :
    let reply : Reply Nat := .readyWithFd 5
    let c : Channel Nat := { inbound := [reply.segment].foldl Inbound.push { pace := [2] } }
    c.Wf ∧ c.pending = [] ∧ ∃ d, c.Replies [⟨.statusWithDescriptor, c, d, reply.answer⟩] d ∧
      d.pending = [] ∧ (Call.create [97] 0).outcome reply.answer = .ok 5 := by
  intro reply c
  have hc : c.Carries { cells := reply.segment.cells } := by
    have := (fresh_carries (δ := Nat) [2] false).pushAll [reply.segment]
    rwa [List.flatMap_singleton] at this
  have hs : ({ cells := [] } : Stream Nat).Quiet := ⟨rfl, rfl⟩
  have ⟨d, hd, hdc, _⟩ := Answer.read_yields (.readyWithFd 5) hs c hc
  have hr : c.Replies [⟨.statusWithDescriptor, c, d, reply.answer⟩] d := .read hd .nil
  have ⟨hp, hall⟩ := replies_keep_their_own_descriptors hc.toWf rfl hr
  have ⟨hclean, hcall⟩ := hall _ List.mem_cons_self
  have hcells : c.inbound.cells = (Heard.mk .statusWithDescriptor c d reply.answer).received := by
    have hn : d.inbound.cells = [] := by rw [Inbound.cells, (hdc.held_of_cells_nil rfl).right.left]; rfl
    have := hclean.cells
    rwa [hn, List.append_nil] at this
  refine ⟨hc.toWf, rfl, d, hr, hp, ((hcall rfl).right.left _ _ _).mpr ⟨rfl, ?_⟩⟩
  rw [←hcells]
  rfl

end Channel

end FileBroker
