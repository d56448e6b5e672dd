import Mathlib
import FileBroker.Helper.Execute
import FileBroker.Proofs.Proxy.Preparing
import FileBroker.Proofs.Record.RoundTrip
import FileBroker.Proofs.Reply.RoundTrip

namespace FileBroker

variable {σ δ ε : Type}

-- What system calls return if they succeed: targets are text up to a NUL, and watches are numbered
-- from zero.
def Syscall.Returns : Syscall δ α → α → Prop
  | readlinkAt .., target => 0 ∉ target
  | watch ..,      id     => 0 ≤ id
  | _,             _      => True

structure Kernel.Lawful (k : Kernel σ δ) : Prop where
  returns {α : Type} {s : Syscall δ α} {w w' : σ} {v : α} : k.call s w = (.ok v, w') → s.Returns v
  fails {α : Type} {s : Syscall δ α} {w w' : σ} {code : Errno.Code} :
    k.call s w = (.error code, w') → 0 < code

-- A kernel that takes note of every system call.
def Kernel.recorded (k : Kernel σ δ) (note : {β : Type} → Syscall δ β → ε) : Kernel (σ × List ε) δ where
  call s w :=
    let (r, w') := k.call s w.1
    (r, w', w.2 ++ [note s])
  number := k.number

theorem Kernel.Lawful.recorded {k : Kernel σ δ} (hk : k.Lawful)
    (note : {β : Type} → Syscall δ β → ε) : (k.recorded note).Lawful where
  returns h := hk.returns <| Prod.ext (congrArg (·.1) h) rfl
  fails h   := hk.fails <| Prod.ext (congrArg (·.1) h) rfl

inductive Plan (δ α : Type) : Type 1
  | call {β : Type} (s : Syscall δ β) (value : β → α) : Plan δ α
  | nothing (a : α) : Plan δ α

namespace Plan

def run (k : Kernel σ δ) : Plan δ α → KernelM σ α
  | call s value => value <$> k.run s
  | nothing a    => pure a

-- What is noted of the planned system call.
def notes (note : {β : Type} → Syscall δ β → ε) : Plan δ α → List ε
  | call s _  => [note s]
  | nothing _ => []

end Plan

namespace Call

-- What a watch is put on. An absolute path is that, and any other path without a base; with a base, a
-- relative path continues the name that the base has in the table of open descriptors.
def watched (number : δ → Nat) : Option δ → Bytes → Bytes
  | some dir, path =>
    if path.head? = some pathSeparator then path else Utf8.encode s!"/proc/self/fd/{number dir}/" ++ path
  | none, path     => path

open Syscall in
def plan (number : δ → Nat) (cwd : δ) : Call δ α → Plan δ α
  | openFile base path flags    => .call (.openAt base path flags 0o666) id
  | create path mode            =>
    .call (.openAt none path (oCreate ||| oWriteOnly ||| oTruncate).toInt32 mode) id
  | makeDir base path mode      => .call (.mkdirAt base path mode) id
  | unlink base path flags      => .call (.unlinkAt base path flags) id
  | makeNode base path mode dev => .call (.mknodAt base path mode dev.toUInt32) id
  | readLink base path          =>
    .call (.readlinkAt base path) fun target => Utf8.encode (Utf8.decodeLossy (target.take 4096))
  | rename oldBase old newBase new flags =>
    .call (.renameAt (oldBase <|> newBase.map fun _ => cwd) old newBase new flags) id
  | link oldBase old newBase new flags   =>
    .call (.linkAt (oldBase <|> newBase.map fun _ => cwd) old newBase new flags) id
  | access base path mode       => .call (.accessAt base path mode) fun _ => true
  | stat base path flags        =>
    if path.isEmpty then .call (.statFd (base.getD cwd)) .ofStatus
    else
      .call (.statAt (some (base.getD cwd)) path (flags.toUInt32 &&& ~~~atEmptyPath).toInt32) .ofStatus
  | addWatch inotify base path mask => .call (.watch inotify (watched number base path) mask) id
  | init                        => .call .temporary some
  | cleanup                     => .nothing ()

-- What a failed system call means. Only a question about access is answered by one.
def denied : Call δ α → Errno.Code → Except ProxyError α
  | access .., code =>
    if code = Errno.acces then .ok false else .error (.errno code (Errno.describe code))
  | _, code => .error (.errno code (Errno.describe code))

-- The call made with no helper.
def direct (k : Kernel σ δ) (cwd : δ) (c : Call δ α) (w : σ) : Except ProxyError α × σ :=
  match ((c.plan k.number cwd).run k).run.run w with
  | (.ok a, w)       => (.ok a, w)
  | (.error code, w) => (c.denied code, w)

end Call

-- How the helper carries out a record: it makes the planned call, and the reply says how that went.
inductive Record.Follows (k : Kernel σ δ) (r : Record δ) (c : Call δ α) : Plan δ α → Prop
  | call {β : Type} {s : Syscall δ β} {value : β → α} (reply : β → Reply δ) :
    r.perform k = reply <$> k.run s →
    (∀ v, s.Returns v → (reply v).Suits c.operation.reply ∧ c.outcome (reply v).answer = .ok (value v)) →
    Follows k r c (.call s value)
  | nothing {a : α} (reply : Reply δ) :
    r.perform k = pure reply → reply.Suits c.operation.reply → c.outcome reply.answer = .ok a → Follows k r c (.nothing a)

namespace Call

variable {c : Call δ α}

-- An argument that is there, before the system call.
theorem lift_then {x : Except Errno.Code α} (h : x = .ok a) (f : α → KernelM σ β) :
    liftM x >>= f = f a := by
  subst h
  rfl

theorem nameOf_ok (h : 0 ∉ path) : Record.nameOf path = .ok path := by
  simp [Record.nameOf, h]

theorem run_then {s s' : Syscall δ α} (h : s = s') (k : Kernel σ δ) (f : α → β) :
    (do let v ← k.run s; return f v) = f <$> k.run s' := by
  subst h
  rfl

theorem Accepted.pathArg (h : c.Accepted) (cwd : δ) (i : Nat) :
    (c.asks cwd).record.pathArg i = .ok ((c.asks cwd).record.path i) := by
  have hn : 0 ∉ (c.asks cwd).record.path i := by
    rw [Record.path, Request.record, asks_paths, List.getD_eq_getElem?_getD]
    cases hp : c.paths[i]?
    case none      => simp
    case some path => exact h.noNul path <| List.mem_of_getElem? hp
  simp [Record.pathArg, Record.nameOf, hn]

theorem toUInt32_ofInt_toNat (dev : UInt64) : (Int32.ofInt dev.toNat).toUInt32 = dev.toUInt32 := by
  rw [Int32.ofInt_eq_ofNat]
  rfl

@[simp] theorem record_path (r : Request δ) (i : Nat) : r.record.path i = r.paths.getD i [] := rfl

@[simp] theorem record_arg (r : Request δ) (i : Nat) :
    r.record.arg i = (r.args.map fun (_, n) => Int32.ofInt n).getD i 0 := rfl

@[simp] theorem record_wordArg (r : Request δ) (i : Nat) :
    r.record.wordArg i = (r.record.arg i).toUInt32 := rfl

@[simp] theorem record_fd?_zero (r : Request δ) : r.record.fd? 0 = r.slots.head?.join := by
  simp only [Record.fd?, Request.record, Request.fds]
  rcases r.slots with _ | ⟨_ | _, _⟩
  case nil       => rfl
  case cons.none => rfl
  case cons.some => rfl

-- The second descriptor is the second one only if there is a first one.
@[simp] theorem record_fd?_one (r : Request δ) :
    r.record.fd? 1 = r.slots.head?.join.bind fun _ => r.slots[1]?.join := by
  simp only [Record.fd?, Request.record, Request.fds]
  rcases r.slots with _ | ⟨_ | _, _ | ⟨_ | _, _⟩⟩
  all_goals rfl

theorem pathBelow_eq (k : Kernel σ δ) (dir : δ) (path : Bytes) :
    k.pathBelow dir path = Utf8.encode s!"/proc/self/fd/{k.number dir}/" ++ path := by
  have ht : toString (k.number dir) = Decimal.text (k.number dir) := rfl
  have hs : Utf8.encode "/" = [pathSeparator] := by decide
  rw [Kernel.pathBelow, descriptorTable, ht]
  simp [Utf8.encode_append, hs, toString]

theorem record_watched (k : Kernel σ δ) (inotify : δ) (base : Option δ) (path : Bytes) (mask : UInt32) :
    (Request.addWatch inotify base path mask).record.watched k = watched k.number base path := by
  cases base
  case none     => rfl
  case some dir =>
    rw [watched, ←pathBelow_eq]
    rfl

-- A name in the table of open descriptors has no NUL.
theorem watched_noNul (k : Kernel σ δ) (h : 0 ∉ path) : 0 ∉ watched k.number base path := by
  cases base
  case none     => exact h
  case some dir =>
    have ht : 0 ∉ descriptorTable := by decide
    have hd : 0 ∉ Utf8.encode (Decimal.text (k.number dir)) := Answer.number_no_nul _
    rw [watched, ←pathBelow_eq]
    split
    case isTrue  => exact h
    case isFalse => simp [Kernel.pathBelow, pathSeparator, ht, hd, h]

theorem follows_plan (k : Kernel σ δ) : (c : Call δ α) → c.Accepted → (cwd : δ) →
    (c.asks cwd).record.Follows k c (c.plan k.number cwd)
  | openFile .., h, cwd | create .., h, cwd => by
    refine .call (fun fd => .readyWithFd fd) ?_ (fun fd _ => ⟨.readyWithFd fd, rfl⟩)
    refine (lift_then (h.pathArg cwd 0) _).trans <| run_then ?_ k _
    simp [asks, Request.slots, Request.args, Request.paths, Record.openCreateMode]
  | makeDir .., h, cwd | unlink .., h, cwd | makeNode .., h, cwd => by
    refine .call (fun _ => .ready) ?_ (fun _ _ => ⟨.ready, rfl⟩)
    refine (lift_then (h.pathArg cwd 0) _).trans <| run_then ?_ k _
    simp [asks, Request.slots, Request.args, Request.paths, toUInt32_ofInt_toNat]
  | access .., h, cwd => by
    refine .call (fun _ => .ready) ?_ (fun _ _ => ⟨.ready, rfl⟩)
    refine (lift_then (h.pathArg cwd 0) _).trans <| run_then ?_ k _
    simp [asks, Request.slots, Request.args, Request.paths]
  | readLink .., h, cwd => by
    refine .call (fun target => .readyWithText (target.take 4096)) ?_ (fun target ht => ?_)
    · refine (lift_then (h.pathArg cwd 0) _).trans <| run_then ?_ k _
      simp [asks, Request.slots, Request.paths]
    · exact ⟨.readyWithText fun hm => ht <| List.mem_of_mem_take hm, rfl⟩
  | rename oldBase _ newBase .., h, cwd | link oldBase _ newBase .., h, cwd => by
    refine .call (fun _ => .ready) ?_ (fun _ _ => ⟨.ready, rfl⟩)
    refine (lift_then (h.pathArg cwd 0) _).trans <| (lift_then (h.pathArg cwd 1) _).trans ?_
    refine run_then ?_ k _
    cases oldBase <;> cases newBase <;> simp [asks, Request.slots, Request.args, Request.paths]
  | stat base path flags, h, cwd => by
    have hf : ((stat base path flags).asks cwd).record.requiredFd 0 = .ok (base.getD cwd) := by
      simp [Record.requiredFd, asks, Request.slots]
    rw [plan]
    split
    case isTrue hp =>
      refine .call (fun status => .stat (.ofStatus status)) ?_ (fun _ _ => ⟨.stat _, rfl⟩)
      refine (lift_then hf _).trans <| (lift_then (h.pathArg cwd 0) _).trans ?_
      exact (if_pos hp).trans <| run_then rfl k _
    case isFalse hp =>
      refine .call (fun status => .stat (.ofStatus status)) ?_ (fun _ _ => ⟨.stat _, rfl⟩)
      refine (lift_then hf _).trans <| (lift_then (h.pathArg cwd 0) _).trans ?_
      refine (if_neg hp).trans <| run_then ?_ k _
      simp [asks, Request.args, Request.paths]
  | addWatch inotify base path mask, h, cwd => by
    have hf : ((addWatch inotify base path mask).asks cwd).record.requiredFd 0 = .ok inotify := rfl
    have hw : ((addWatch inotify base path mask).asks cwd).record.watched k = watched k.number base path :=
      record_watched k inotify base path mask
    have hn : 0 ∉ path := h.noNul path List.mem_cons_self
    refine .call (fun id => .watchId id) ?_ (fun id hi => ⟨.watchId id, ?_⟩)
    · refine (lift_then hf _).trans <| (lift_then (hw ▸ nameOf_ok (watched_noNul k hn)) _).trans ?_
      refine run_then ?_ k _
      simp only [hw]
      simp [asks, Request.args]
    · have hi : (0 : Int32) ≤ id := hi
      simp [outcome, Reply.answer, Decimal.text, Decimal.int32?_render, Decimal.fits_toInt, hi]
  | init, h, cwd =>
    .call (fun fd => .readyWithFd fd) (run_then rfl k _) (fun fd _ => ⟨.readyWithFd fd, rfl⟩)
  | cleanup, h, cwd => .nothing .ready rfl .ready rfl

-- A failed system call is reported with its number.
theorem refusal_render (h : 0 < code) :
    refusal (ErrorText.render code) = .errno code (Errno.describe code) := by
  rw [refusal, ErrorText.parse_render h]

theorem ready_render (h : 0 < code) :
    ready ({ message := ErrorText.render code } : Answer δ) =
      .error (.errno code (Errno.describe code)) := by
  have hr : Answer.isReady ({ message := ErrorText.render code } : Answer δ) = false := by
    simp [Answer.isReady, ErrorText.render_ne_ready h]
  rw [ready, hr, ←refusal_render h]
  rfl

theorem outcome_failure (c : Call δ α) (h : 0 < code) :
    c.outcome (Record.failure c.operation code : Reply δ).answer = c.denied code := by
  have hr := ready_render (δ := δ) h
  cases c
  case stat => exact congrArg _ <| refusal_render h
  case addWatch =>
    simp [outcome, operation, Record.failure, Reply.answer, ErrorText.int32?_render,
      refusal_render h, denied]
  case openFile | create | readLink | init =>
    change ready { message := ErrorText.render code } >>= _ = _
    rw [hr]
    rfl
  case makeDir | unlink | makeNode | rename | link | cleanup => exact hr
  case access =>
    simp only [outcome, operation, Record.failure, Reply.answer, hr, denied]

theorem map_run (k : Kernel σ δ) (s : Syscall δ α) (f : α → β) (w : σ) :
    (f <$> k.run s).run.run w =
      match k.call s w with
      | (.ok v, w)       => (.ok (f v), w)
      | (.error code, w) => (.error code, w) := by
  have hr : (k.run s).run.run w = k.call s w := rfl
  rw [ExceptT.run_map, StateT.run_map, hr]
  match k.call s w with
  | (.ok v, w')       => rfl
  | (.error code, w') => rfl

theorem execute_run (k : Kernel σ δ) (r : Record δ) (w : σ) :
    (r.execute k).run w =
      match (r.perform k).run.run w with
      | (.ok reply, w)   => (reply, w)
      | (.error code, w) => (Record.failure r.operation code, w) := by
  simp only [Record.execute, bind, StateT.bind, StateT.run]
  match (r.perform k).run w with
  | (.ok reply, w')   => rfl
  | (.error code, w') => rfl

-- The helper carries out what is planned, and the caller learns how it went.
theorem execute_plan {k : Kernel σ δ} (hk : k.Lawful) (h : c.Accepted) (cwd : δ) (w : σ) :
    ∃ reply, ((c.asks cwd).record.execute k).run w = (reply, (c.direct k cwd w).2) ∧
      reply.Suits c.operation.reply ∧ c.outcome reply.answer = (c.direct k cwd w).1 := by
  have hf := follows_plan k c h cwd
  have ho := asks_operation c cwd
  unfold direct
  generalize c.plan k.number cwd = plan at hf
  cases hf
  case nothing a reply hr hs ha =>
    rw [execute_run, hr]
    exact ⟨reply, rfl, hs, ha⟩
  case call s value reply hr hv =>
    rw [execute_run, hr, map_run, Plan.run, map_run]
    match hc : k.call s w with
    | (.ok v, w') =>
      have ⟨hs, ha⟩ := hv v (hk.returns hc)
      exact ⟨reply v, rfl, hs, ha⟩
    | (.error code, w') =>
      have hpos := hk.fails hc
      refine ⟨Record.failure c.operation code, ?_, Reply.suits_failure _ hpos, outcome_failure c hpos⟩
      rw [←ho]
      rfl

theorem denied_error (h : c.denied code = .error e) : e = .errno code (Errno.describe code) := by
  cases c
  case access =>
    rw [denied] at h
    split at h
    · simp at h
    · exact (Except.error.inj h).symm
  all_goals exact (Except.error.inj h).symm

theorem direct_error {k : Kernel σ δ} (h : (c.direct k cwd w).1 = .error e) :
    ∃ code, e = .errno code (Errno.describe code) := by
  unfold direct at h
  split at h
  case h_1         => simp at h
  case h_2 code _ _ => exact ⟨code, denied_error h⟩

theorem direct_not_broken {k : Kernel σ δ} (h : (c.direct k cwd w).1 = .error e) :
    e.isBroken = false := by
  have ⟨_, he⟩ := direct_error h
  exact he ▸ rfl

theorem direct_recorded (k : Kernel σ δ) (note : {β : Type} → Syscall δ β → ε) (cwd : δ)
    (c : Call δ α) (w : σ) (log : List ε) :
    c.direct (k.recorded note) cwd (w, log) =
      ((c.direct k cwd w).1, (c.direct k cwd w).2, log ++ (c.plan k.number cwd).notes note) := by
  have hn : (k.recorded note).number = k.number := rfl
  unfold direct
  rw [hn]
  cases c.plan k.number cwd
  case nothing =>
    rw [Plan.notes, List.append_nil]
    rfl
  case call s value =>
    have hr : (k.recorded note).call s (w, log) =
      ((k.call s w).1, (k.call s w).2, log ++ [note s]) := rfl
    rw [Plan.run, Plan.run, map_run, map_run, hr, Plan.notes]
    match k.call s w with
    | (.ok v, w')       => rfl
    | (.error code, w') => rfl

end Call

end FileBroker
