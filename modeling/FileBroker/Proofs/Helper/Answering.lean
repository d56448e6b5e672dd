import Mathlib
import FileBroker.Channel.Pair
import FileBroker.Proofs.Channel.Link
import FileBroker.Proofs.Proxy.Plan
import FileBroker.Proofs.Reply.RoundTrip

namespace FileBroker

variable {σ δ : Type}

-- What a reply can report: link targets are text up to a NUL, and error numbers are positive.
structure Kernel.Reportable (k : Kernel σ δ) : Prop where
  target {base : Option δ} {path target : Bytes} {w w' : σ} :
    k.call (.readlinkAt base path) w = (.ok target, w') → 0 ∉ target
  fails {α : Type} {s : Syscall δ α} {w w' : σ} {code : Errno.Code} :
    k.call s w = (.error code, w') → 0 < code

-- Every value of a computation is good, and it fails with positive numbers only.
structure KernelM.Ensures (m : KernelM σ α) (good : α → Prop) : Prop where
  value {w w' : σ} {a : α} : m.run.run w = (.ok a, w') → good a
  error {w w' : σ} {code : Errno.Code} : m.run.run w = (.error code, w') → 0 < code

namespace KernelM

theorem bind_run (m : KernelM σ α) (f : α → KernelM σ β) (w : σ) :
    (m >>= f).run.run w =
      match m.run.run w with
      | (.ok a, w')    => (f a).run.run w'
      | (.error e, w') => (.error e, w') := by
  change (ExceptT.bindCont f (m w).1) (m w).2 = _
  change _ = (match m w with | (.ok a, w') => _ | (.error e, w') => _)
  split
  case h_1 h => rw [h]; rfl
  case h_2 h => rw [h]; rfl

namespace Ensures

variable {m : KernelM σ α} {good : α → Prop} {k : Kernel σ δ}

theorem pure {a : α} (h : good a) : Ensures (pure a : KernelM σ α) good where
  value hr := by cases hr; exact h
  error hr := by cases hr

theorem lift {x : Except Errno.Code α} (h : ∀ code, x = .error code → 0 < code) :
    Ensures (liftM x : KernelM σ α) fun _ => True where
  value _ := trivial
  error hr := by
    cases x
    case ok         => cases hr
    case error code => cases hr; exact h _ rfl

theorem bind {f : α → KernelM σ β} {fine : β → Prop} (hm : Ensures m good)
    (hf : ∀ a, good a → Ensures (f a) fine) : Ensures (m >>= f) fine where
  value {w _ _} hr := by
    rw [bind_run] at hr
    match ha : m.run.run w with
    | (.ok a, _)    => exact (hf a <| hm.value ha).value (by simpa only [ha] using hr)
    | (.error _, _) =>
      rw [ha] at hr
      cases hr
  error {w _ _} hr := by
    rw [bind_run] at hr
    match ha : m.run.run w with
    | (.ok a, _) => exact (hf a <| hm.value ha).error (by simpa only [ha] using hr)
    | (.error _, _) =>
      rw [ha] at hr
      cases hr
      exact hm.error ha

-- A system call whose value is of no interest.
theorem call (hk : k.Reportable) (s : Syscall δ α) : Ensures (k.run s) fun _ => True where
  value _ := trivial
  error   := hk.fails

theorem call_readlink (hk : k.Reportable) (base : Option δ) (path : Bytes) :
    Ensures (k.run (.readlinkAt base path)) (0 ∉ ·) where
  value := hk.target
  error := hk.fails

end Ensures

end KernelM

namespace Record

open KernelM

variable {k : Kernel σ δ}

theorem nameOf_error {bytes : Bytes} (code : Errno.Code) (h : nameOf bytes = .error code) : 0 < code := by
  unfold nameOf at h
  split at h
  case isTrue  => cases h; decide
  case isFalse => simp at h

theorem requiredFd_error {r : Record δ} (code : Errno.Code) (h : r.requiredFd i = .error code) :
    0 < code := by
  unfold requiredFd at h
  split at h
  case h_1 => simp at h
  case h_2 => cases h; decide

-- A record that lacks a path or has too many numbers is carried out as far as it goes.
theorem perform_ensures (hk : k.Reportable) (r : Record δ) :
    Ensures (r.perform k) (Reply.Suits r.operation.reply) := by
  have hp (i : Nat) : Ensures (liftM (r.pathArg i) : KernelM σ Bytes) fun _ => True :=
    .lift nameOf_error
  have hd (i : Nat) : Ensures (liftM (r.requiredFd i) : KernelM σ δ) fun _ => True :=
    .lift requiredFd_error
  unfold perform
  cases r.operation
  case openFile | create =>
    exact (hp 0).bind fun _ _ => (Ensures.call hk _).bind fun fd _ => .pure (.readyWithFd fd)
  case makeDir | unlink | makeNode | access =>
    exact (hp 0).bind fun _ _ => (Ensures.call hk _).bind fun _ _ => .pure .ready
  case rename | link =>
    exact (hp 0).bind fun _ _ => (hp 1).bind fun _ _ => (Ensures.call hk _).bind fun _ _ => .pure .ready
  case readLink =>
    refine (hp 0).bind fun _ _ => (Ensures.call_readlink hk _ _).bind fun _ ht => .pure ?_
    exact .readyWithText fun hm => ht <| List.mem_of_mem_take hm
  case stat =>
    refine (hd 0).bind fun _ _ => (hp 0).bind fun path _ => ?_
    dsimp only
    split
    all_goals exact (Ensures.call hk _).bind fun status _ => .pure (.stat (.ofStatus status))
  case addWatch =>
    exact (hd 0).bind fun _ _ => (Ensures.lift nameOf_error).bind fun _ _ =>
      (Ensures.call hk _).bind fun id _ => .pure (.watchId id)
  case init    => exact (Ensures.call hk _).bind fun fd _ => .pure (.readyWithFd fd)
  case cleanup => exact .pure .ready

theorem execute_suits (hk : k.Reportable) (r : Record δ) (w : σ) :
    ((r.execute k).run w).1.Suits r.operation.reply := by
  have h := perform_ensures hk r
  rw [Call.execute_run]
  match hr : (r.perform k).run.run w with
  | (.ok reply, _)   => exact h.value hr
  | (.error code, _) => exact Reply.suits_failure _ <| h.error hr

-- Carries out records one after the other.
def executeAll (k : Kernel σ δ) (records : List (Record δ)) : StateM σ (List (Reply δ)) :=
  records.mapM fun r => r.execute k

theorem executeAll_cons (k : Kernel σ δ) (r : Record δ) (records : List (Record δ)) (w : σ) :
    (executeAll k (r :: records)).run w =
      let (reply, w)   := (r.execute k).run w
      let (replies, w) := (executeAll k records).run w
      (reply :: replies, w) := by
  rw [executeAll, List.mapM_cons]
  rfl

end Record

-- How the reply to one record went over the stream: how its writer and its reader fared, and what was
-- then left of it.
structure Delivery (δ : Type) where
  written : Option (Except IoError Unit)
  answer  : Option (Except FrameError (Answer δ))
  unread  : Option Bytes
  pending : Option (List δ)

-- A reply that has arrived whole.
def Delivery.whole (reply : Reply δ) : Delivery δ where
  written := some (.ok ())
  answer  := some (.ok reply.answer)
  unread  := some []
  pending := some []

namespace Pair

-- Nothing is on its way, and both ends can send.
structure Idle (p : Pair δ) : Prop where
  left  : ∃ c, p.left = some c ∧ c.Idle
  right : ∃ c, p.right = some c ∧ c.Idle

-- The helper at the left end carries out records, one at a time. Each reply is read at the right end,
-- as one to the record's operation, before the next record is carried out.
def answerAll (k : Kernel σ δ) : List (Record δ) → Pair δ → σ → List (Delivery δ) × Pair δ × σ
  | [],           p, w => ([], p, w)
  | r :: records, p, w =>
    let (reply, w)   := (r.execute k).run w
    let (written, p) := p.act .left (·.sendReply reply)
    let (answer, p)  := p.act .right (·.readAnswer r.operation.reply)
    let delivery     := ⟨written, answer, p.right.map (·.unread), p.right.map (·.pending)⟩
    let (more, p, w) := answerAll k records p w
    (delivery :: more, p, w)

variable {p : Pair δ} {reply : Reply δ}

theorem act_sendReply (h : p.Idle) (reply : Reply δ) :
    ∃ c d, c.Idle ∧ d.outgoing = ([], none) ∧ d.Carries { cells := reply.segment.cells } ∧
      p.act .left (·.sendReply reply) = (some (.ok ()), { left := some c, right := some d }) := by
  obtain ⟨⟨c, hl, hc⟩, ⟨d, hr, hd⟩⟩ := h
  have hs : c.sendReply reply = (.ok (), { c with sent := [reply.segment] }) := by
    simp [Channel.sendReply, Channel.send, hc.patience, hc.sent]
  have hdc : (deliver [reply.segment] d).Carries { cells := reply.segment.cells } := by
    have := hd.carries.pushAll [reply.segment]
    rwa [List.flatMap_singleton, List.nil_append] at this
  refine ⟨{ c with sent := [] }, deliver [reply.segment] d, ⟨{ hc.carries with }, rfl, hc.patience⟩,
    ?_, hdc, ?_⟩
  · exact Prod.ext hd.sent hd.patience
  · simp [act, at?, set, otherSide, hl, hr, hs]

theorem act_readAnswer {c d : Channel δ} {shape : ReplyShape} (hc : c.Idle)
    (hd : d.Carries { cells := reply.segment.cells }) (ho : d.outgoing = ([], none))
    (hs : reply.Suits shape) :
    ∃ q, Pair.act { left := some c, right := some d } .right (·.readAnswer shape) =
        (some (.ok reply.answer), q) ∧
      q.Idle ∧ q.right.map (·.unread) = some [] ∧ q.right.map (·.pending) = some [] := by
  obtain ⟨e, he, hec, heo⟩ := Answer.read_yields hs (s := { cells := [] }) ⟨rfl, rfl⟩ d hd
  change d.readAnswer shape = _ at he
  have hei := Channel.idle_of_outgoing hec (heo.trans ho)
  have ⟨_, _, hp⟩ := hec.held_of_cells_nil rfl
  have hsame : ({ e with sent := [] } : Channel δ) = e := by rw [←hei.sent]
  refine ⟨{ left := some c, right := some e }, ?_, ⟨⟨c, rfl, hc⟩, ⟨e, rfl, hei⟩⟩, ?_, ?_⟩
  · simp [act, at?, set, otherSide, he, hei.sent, hsame, deliver]
  · simp [hec.unread_eq, Stream.bytes]
  · simp [hp]

theorem answerAll_idle {k : Kernel σ δ} (hk : k.Reportable) (hp : p.Idle) (records : List (Record δ))
    (w : σ) :
    ∃ q, answerAll k records p w =
        (((Record.executeAll k records).run w).1.map .whole, q,
          ((Record.executeAll k records).run w).2) ∧
      q.Idle := by
  induction records generalizing p w
  case nil => exact ⟨p, rfl, hp⟩
  case cons r records hi =>
    have hs := Record.execute_suits hk r w
    rcases hx : (r.execute k).run w with ⟨reply, w'⟩
    rw [hx] at hs
    have ⟨c, d, hc, hdo, hd, hw⟩ := act_sendReply hp reply
    have ⟨q, hr, hq, hu, hn⟩ := act_readAnswer hc hd hdo hs
    have ⟨q', ha, hq'⟩ := hi hq w'
    refine ⟨q', ?_, hq'⟩
    simp only [Record.executeAll_cons, answerAll, hx, hw, hr, ha, hu, hn]
    rfl

-- Replies to any records, received in any pieces.
theorem replies_arrive_whole {k : Kernel σ δ} (hk : k.Reportable) (records : List (Record δ)) (w : σ)
    (pace : List Nat) :
    let start : Pair δ := { right := some { inbound := { pace } } }
    let executed := (Record.executeAll k records).run w
    let run := answerAll k records start w
    run.1 = executed.1.map .whole ∧ run.2.2 = executed.2 := by
  intro start executed run
  have hp : start.Idle := ⟨⟨_, rfl, Channel.fresh_idle []⟩, ⟨_, rfl, Channel.fresh_idle pace⟩⟩
  have ⟨q, hq, _⟩ := answerAll_idle hk hp records w
  have hr : run = (executed.1.map .whole, q, executed.2) := hq
  rw [hr]
  exact ⟨rfl, rfl⟩

-- Links have a target that is no text, and most other things are not there.
def sparse : Kernel Unit Nat where
  call
    | .openAt .., w     => (.ok 3, w)
    | .readlinkAt .., w => (.ok [47, 0xFF], w)
    | .watch .., w      => (.ok 7, w)
    | _, w              => (.error Errno.noent, w)
  number := id

-- Records without a path, without a descriptor and with a NUL in a path. The first replies arrive byte
-- by byte.
theorem replies_to_incomplete_records :
    let records : List (Record Nat) :=
      [⟨.openFile, [], [], []⟩, ⟨.stat, [0], [[]], []⟩, ⟨.readLink, [], [[97]], []⟩,
        ⟨.makeDir, [7], [[97, 0]], []⟩, ⟨.addWatch, [1], [], [4]⟩, ⟨.stat, [0], [[]], [5]⟩]
    let start : Pair Nat := { right := some { inbound := { pace := List.replicate 30 1 } } }
    (answerAll sparse records start ()).1.map (·.answer) =
        [some (.ok { message := "READY", fd := some 3 }),
          some (.ok { message := "9 Bad file number" }),
          some (.ok { message := "READY", data := some (.text (Utf8.decodeLossy [47, 0xFF])) }),
          some (.ok { message := "22 Invalid argument" }), some (.ok { message := "7" }),
          some (.ok { message := "2 No such file or directory" })] := by
  intro records start
  have hk : sparse.Reportable :=
    { target := fun h => by cases h; decide
      fails  := fun {_ s _ _ _} h => by cases s <;> cases h <;> decide }
  obtain ⟨hr, _⟩ := replies_arrive_whole hk records () (List.replicate 30 1)
  exact (congrArg (List.map (·.answer)) hr).trans rfl

end Pair

end FileBroker
