import Mathlib
import FileBroker.FileService.Direct
import FileBroker.Proofs.Proxy.Simulation
import FileBroker.Proxy.Basic

namespace FileBroker

open Syscall

variable {σ δ : Type}

-- How system calls compare that differ only in form, with `cwd` open on the working directory.
structure Kernel.Uniform (k : Kernel σ δ) (cwd : δ) (w : σ) : Prop where
  -- The flag is about programs that are run later.
  closeExec (path : Bytes) (flags mode : UInt32) :
    k.call (.openAt none path (flags ||| oCloseExec).toInt32 mode) w =
      k.call (.openAt none path flags.toInt32 mode) w
  workingDir {path : Bytes} (flags : Int32) : path ≠ [] →
    k.call (.statAt (some cwd) path flags) w = k.call (.statAt none path flags) w
  -- The target of a link is a path, and paths are no longer than that.
  pathMax {path target : Bytes} {w' : σ} :
    k.call (.readlinkAt none path) w = (.ok target, w') → target.length ≤ 4096

namespace FileCall

def paths : FileCall δ α → List Bytes
  | openFile path _ => [path]
  | create path _   => [path]
  | makeDir path _  => [path]
  | unlink path _   => [path]
  | rename old new  => [old, new]
  | link old new    => [old, new]
  | readLink path   => [path]
  | access path _   => [path]
  | statFd _        => []
  | stat path _     => [path]

def removal? : FileCall δ α → Option Int32
  | unlink _ flags => some flags
  | _              => none

-- If the call reads a link, the link's target is text.
def TargetIsText (k : Kernel σ δ) (w : σ) : FileCall δ α → Prop
  | readLink path => ∀ target w', k.call (.readlinkAt none path) w = (.ok target, w') →
      ∃ text, Utf8.encode text = target
  | _             => True

-- A file call that is no mistake in itself.
structure Proper (c : FileCall δ α) : Prop where
  nonempty : [] ∉ c.paths
  noNul    : ∀ path ∈ c.paths, 0 ∉ path
  lengths  : ∀ path ∈ c.paths, path.length ≤ 2 ^ 31 - 1
  removal  : ∀ flags ∈ c.removal?, flags = 0 ∨ flags = atRemoveDir.toInt32

variable {c : FileCall δ α}

theorem call_paths (c : FileCall δ α) : ∀ path ∈ c.call.paths, path ∈ c.paths ∨ path = [] := by
  cases c
  case statFd => simp [call, Call.statFd, Call.paths]
  all_goals exact fun path hp => .inl hp

theorem call_nonempty (h : [] ∉ c.paths) : c.call.operation = .stat ∨ [] ∉ c.call.paths := by
  cases c
  case statFd | stat => exact .inl rfl
  all_goals exact .inr h

theorem call_device (c : FileCall δ α) : c.call.device = 0 := by
  cases c
  all_goals rfl

theorem Proper.accepted (h : c.Proper) : c.call.Accepted where
  nonempty := call_nonempty h.nonempty
  device   := by simp [call_device]
  noNul path hp := by
    cases call_paths c path hp
    case inl hm => exact h.noNul path hm
    case inr he => simp [he]
  lengths path hp := by
    cases call_paths c path hp
    case inl hm =>
      have := h.lengths path hm
      omega
    case inr he => simp [he]

end FileCall

namespace FileService

variable {k : Kernel σ δ} {c : FileCall δ α}

-- Both ways to read the numbers give the same ones.
theorem metadata_eq (s : Status) : metadata s = Snapshot.ofStatus s := by
  have hb : s.blksize.toUInt64.toUInt32.toInt32 = s.blksize.toInt32 := by
    apply Int32.toBitVec_inj.mp
    rw [Int64.toBitVec_toInt32, BitVec.signExtend_eq_setWidth_of_le _ (by decide)]
    rfl
  rw [metadata, hb]
  rfl

theorem openName_ok (h : 0 ∉ path) : openName path = .ok path := by
  simp [openName, h]

theorem plainName_ok (h : 0 ∉ path) : plainName path = .ok path := by
  simp [plainName, h]

theorem lift_then {x : Except ProxyError β} (h : x = .ok a) (f : β → DirectM σ α) :
    liftM x >>= f = f a := by
  subst h
  rfl

theorem attempt_run (k : Kernel σ δ) (s : Syscall δ β) (w : σ) :
    (attempt k s).run.run w =
      match k.call s w with
      | (.ok v, w)       => (.ok v, w)
      | (.error code, w) => (.error (.ofErrno code), w) :=
  rfl

theorem map_attempt_run (k : Kernel σ δ) (s : Syscall δ β) (f : β → α) (w : σ) :
    (f <$> attempt k s).run.run w =
      match k.call s w with
      | (.ok v, w)       => (.ok (f v), w)
      | (.error code, w) => (.error (.ofErrno code), w) := by
  rw [ExceptT.run_map, StateT.run_map, attempt_run]
  match k.call s w with
  | (.ok v, w')       => rfl
  | (.error code, w') => rfl

theorem answered_run (m : DirectM σ Unit) (w : σ) :
    (do
      try
        m
        return true
      catch e =>
        if e.code? = some Errno.acces then return false
        throw e : DirectM σ Bool).run.run w =
      match m.run.run w with
      | (.ok _, w')    => (.ok true, w')
      | (.error e, w') => (if e.code? = some Errno.acces then .ok false else .error e, w') := by
  simp only [ExceptT.run, StateT.run, tryCatch, tryCatchThe, MonadExceptOf.tryCatch, ExceptT.tryCatch,
    bind, ExceptT.bind, ExceptT.mk, StateT.bind]
  rcases m w with ⟨_ | _, w'⟩
  case ok      => rfl
  case error e =>
    by_cases h : e.code? = some Errno.acces
    all_goals
      simp only [ExceptT.bindCont, StateT.pure, pure, h, if_true, if_false]
      rfl

-- One system call either way, and the same meaning of what it gives.
theorem direct_of_plan {cwd : δ} {w : σ} {s s' : Syscall δ β} {f f' : β → α}
    (hplan : c.call.plan k.number cwd = .call s f) (hperform : perform k [] c = f' <$> attempt k s')
    (hs : k.call s' w = k.call s w) (hf : ∀ v w', k.call s w = (.ok v, w') → f' v = f v)
    (hd : ∀ code, c.call.denied code = .error (.ofErrno code)) :
    (direct k).call c w = c.call.direct k cwd w := by
  have hr : (direct k).call c w = (perform k [] c).run.run w := rfl
  rw [hr, hperform, map_attempt_run, hs, Call.direct, hplan, Plan.run, Call.map_run]
  rcases hc : k.call s w with ⟨code | v, w'⟩
  case ok =>
    change (Except.ok (f' v), w') = (Except.ok (f v), w')
    rw [hf v w' hc]
  case error => exact congrArg (·, w') (hd code).symm

-- The same, where the value is handed on as it is.
theorem direct_of_call {cwd : δ} {w : σ} {s s' : Syscall δ α} (hplan : c.call.plan k.number cwd = .call s id)
    (hperform : perform k [] c = attempt k s') (hs : k.call s' w = k.call s w)
    (hd : ∀ code, c.call.denied code = .error (.ofErrno code)) :
    (direct k).call c w = c.call.direct k cwd w :=
  direct_of_plan hplan (hperform.trans (id_map _).symm) hs (fun _ _ _ => rfl) hd

-- A question about access is answered by one of the errors.
theorem direct_access {cwd : δ} {w : σ} {path : Bytes} (hp : 0 ∉ path) (mode : Int32) :
    (direct k).call (.access path mode) w = (FileCall.access path mode).call.direct k cwd w := by
  have hplan : (FileCall.access path mode).call.plan k.number cwd = .call (.accessAt none path mode) fun _ => true :=
    rfl
  have hr : (direct k).call (.access path mode) w = _ :=
    (congrArg (fun m : DirectM σ Bool => m.run.run w) <| lift_then (openName_ok hp) _).trans <|
      answered_run _ w
  rw [hr, attempt_run, Call.direct, hplan, Plan.run, Call.map_run]
  rcases k.call (.accessAt none path mode) w with ⟨code | _, w'⟩
  case ok => rfl
  case error =>
    have hcode : (ProxyError.ofErrno code).code? = some code := rfl
    simp only [hcode, Option.some.injEq]
    rfl

theorem direct_eq {cwd : δ} {w : σ} (hu : k.Uniform cwd w) (hc : c.Proper)
    (ht : c.TargetIsText k w) : (direct k).call c w = c.call.direct k cwd w := by
  have hn := hc.noNul
  cases c
  case openFile path flags =>
    have hp : openName path = .ok path := openName_ok <| hn path List.mem_cons_self
    exact direct_of_call rfl (lift_then hp _) (hu.closeExec path flags.toUInt32 _) fun _ => rfl
  case create path mode =>
    have hp : plainName path = .ok path := plainName_ok <| hn path List.mem_cons_self
    exact direct_of_call rfl (lift_then hp _) (hu.closeExec path _ mode) fun _ => rfl
  case makeDir path mode =>
    have hp : plainName path = .ok path := plainName_ok <| hn path List.mem_cons_self
    exact direct_of_call rfl (lift_then hp _) rfl fun _ => rfl
  case unlink path flags =>
    have hp : plainName path = .ok path := plainName_ok <| hn path List.mem_cons_self
    have hf : (if hasBits flags atRemoveDir then atRemoveDir.toInt32 else 0) = flags := by
      obtain rfl | rfl := hc.removal flags rfl
      · rfl
      · rfl
    refine direct_of_call rfl (lift_then hp _) ?_ fun _ => rfl
    rw [hf]
  case rename old new | link old new =>
    have hold : plainName old = .ok old := plainName_ok <| hn old List.mem_cons_self
    have hnew : plainName new = .ok new := plainName_ok <| hn new <| .tail _ List.mem_cons_self
    exact direct_of_call rfl ((lift_then hold _).trans (lift_then hnew _)) rfl fun _ => rfl
  case readLink path =>
    have hp : plainName path = .ok path := plainName_ok <| hn path List.mem_cons_self
    refine direct_of_plan rfl ((lift_then hp _).trans (id_map _).symm) rfl (fun target w' hcall => ?_)
      fun _ => rfl
    have ⟨text, htext⟩ := ht target w' hcall
    rw [List.take_of_length_le (hu.pathMax hcall), ←htext, Utf8.decodeLossy_encode]
    rfl
  case access path mode => exact direct_access (hn path List.mem_cons_self) mode
  case statFd fd => exact direct_of_plan rfl rfl rfl (fun s _ _ => metadata_eq s) fun _ => rfl
  case stat path follow =>
    have hp : plainName path = .ok path := plainName_ok <| hn path List.mem_cons_self
    have hne : path ≠ [] := fun he => hc.nonempty (he ▸ List.mem_cons_self)
    have hf : ((if follow then 0 else atNoFollow.toInt32).toUInt32 &&& ~~~atEmptyPath).toInt32 =
        if follow then 0 else atNoFollow.toInt32 := by
      cases follow
      all_goals rfl
    refine direct_of_plan (if_neg (by simpa using hne)) ((lift_then hp _).trans rfl) ?_
      (fun s _ _ => metadata_eq s) fun _ => rfl
    rw [hf]
    exact (hu.workingDir _ hne).symm

variable {p : Proxy (Server σ δ) δ}

theorem service_call (hk : k.Lawful) (hp : p.Attached) (hu : k.Uniform p.cwd p.helper.world)
    (hc : c.Proper) (ht : c.TargetIsText k p.helper.world) :
    ∃ q, (Proxy.service (Server.peer k)).call c p = (((direct k).call c p.helper.world).1, q) ∧
      q.Attached ∧ q.cwd = p.cwd ∧ q.helper.world = ((direct k).call c p.helper.world).2 := by
  have ⟨q, hq, ha, hcwd, hw, _⟩ := Proxy.run_attached hk hp hc.accepted
  rw [←direct_eq hu hc ht] at hq hw
  exact ⟨q, hq, ha, hcwd, hw⟩

-- Calls one after the other.
def callAll (s : FileService σ δ) : List ((α : Type) × FileCall δ α) → σ →
    List ((α : Type) × Except ProxyError α) × σ
  | [],              w => ([], w)
  | ⟨α, c⟩ :: calls, w =>
    let (r, w) := s.call c w
    let (rs, w) := callAll s calls w
    (⟨α, r⟩ :: rs, w)

-- In any order, as long as every call leaves what the comparison rests on.
theorem callAll_agree {calls : List ((α : Type) × FileCall δ α)} {kept : σ → Prop} (hk : k.Lawful)
    (hp : p.Attached) (hw : kept p.helper.world) (hu : ∀ w, kept w → k.Uniform p.cwd w)
    (hkept : ∀ c ∈ calls, ∀ w, kept w → kept ((direct k).call c.2 w).2)
    (hc : ∀ c ∈ calls, c.2.Proper) (ht : ∀ c ∈ calls, ∀ w, kept w → c.2.TargetIsText k w) :
    ∃ q, callAll (Proxy.service (Server.peer k)) calls p =
        ((callAll (direct k) calls p.helper.world).1, q) ∧
      q.Attached ∧ q.helper.world = (callAll (direct k) calls p.helper.world).2 := by
  induction calls generalizing p
  case nil => exact ⟨p, rfl, hp, rfl⟩
  case cons c calls hi =>
    have ⟨hk₀, hkept⟩ := List.forall_mem_cons.mp hkept
    have ⟨hc₀, hc⟩ := List.forall_mem_cons.mp hc
    have ⟨ht₀, ht⟩ := List.forall_mem_cons.mp ht
    have ⟨q, hq, ha, hcwd, hqw⟩ := service_call hk hp (hu _ hw) hc₀ (ht₀ _ hw)
    have ⟨r, hr, hra, hrw⟩ := hi ha (hqw ▸ hk₀ _ hw) (hcwd ▸ hu) hkept hc ht
    rw [hqw] at hr hrw
    refine ⟨r, ?_, hra, hrw⟩
    simp only [callAll, hq, hr]

-- Any call, in any state of the file system.
theorem privileged_and_direct_agree (hk : k.Lawful) (hp : p.Attached)
    (hu : k.Uniform p.cwd p.helper.world) (hc : c.Proper) (ht : c.TargetIsText k p.helper.world) :
    let privileged := (Proxy.service (Server.peer k)).call c p
    let own := (direct k).call c p.helper.world
    privileged.1 = own.1 ∧ privileged.2.helper.world = own.2 ∧
      (∀ e, own.1 = .error e → ∃ code, e = .errno code (Errno.describe code)) ∧
      privileged.2.Attached ∧ privileged.2.cwd = p.cwd := by
  intro privileged own
  have ⟨q, hq, ha, hcwd, hw⟩ := service_call hk hp hu hc ht
  have hprivileged : privileged = (own.1, q) := hq
  have hown : own = c.call.direct k p.cwd p.helper.world := direct_eq hu hc ht
  rw [hprivileged]
  exact ⟨rfl, hw, fun e he => Call.direct_error (hown ▸ he), ha, hcwd⟩

-- A world of directories and one link. Their numbers are too big for a snapshot.
def smallKernel : Kernel (List Bytes) Nat where
  call
    | .mkdirAt _ path _, w => if path ∈ w then (.error Errno.exist, w) else (.ok (), path :: w)
    | .readlinkAt ..,    w => (.ok [47], w)
    | .statAt ..,        w =>
      (.ok { dev := 1, ino := 2, size := -1, mode := 0o040755, blksize := 0x100001000 }, w)
    | _,                 w => (.error Errno.noent, w)
  number := id

theorem smallKernel_lawful : smallKernel.Lawful where
  returns {_ s _ _ _} h := by
    cases s
    case mkdirAt => trivial
    all_goals cases h <;> simp [Syscall.Returns]
  fails {_ s w _ _} h := by
    cases s
    case mkdirAt _ path _ =>
      by_cases hm : path ∈ w
      all_goals simp [smallKernel, hm] at h
      exact h.left ▸ by decide
    all_goals cases h <;> decide

theorem calls_agree_on_small_world :
    let p := Proxy.attached 0 [[97]] (List.replicate 100 1) [1, 2]
    let privileged {α : Type} (c : FileCall Nat α) := (Proxy.service (Server.peer smallKernel)).call c p
    (privileged (.makeDir [97] 0o755)).1 = .error (.errno Errno.exist "File exists") ∧
      (privileged (.makeDir [98] 0o755)).2.helper.world = [[98], [97]] ∧
      (privileged (.readLink [108])).1 = .ok [47] ∧
      (privileged (.stat [97] true)).1 =
        .ok { dev := 1, ino := 2, size := -1, fileType := .directory, blksize := 4096 } := by
  intro p privileged
  have hp : p.Attached := Proxy.attached_attached ..
  have hu : smallKernel.Uniform p.cwd p.helper.world :=
    { closeExec := fun _ _ _ => rfl
      workingDir := fun _ _ => rfl
      pathMax := fun h => by cases h; decide }
  have ht : (FileCall.readLink [108] : FileCall Nat Bytes).TargetIsText smallKernel p.helper.world := by
    rintro target w' ⟨⟩
    exact ⟨"/", rfl⟩
  have htaken := privileged_and_direct_agree smallKernel_lawful hp hu (c := .makeDir [97] 0o755)
    ⟨by decide, by decide, by decide, nofun⟩ trivial
  have hnew := privileged_and_direct_agree smallKernel_lawful hp hu (c := .makeDir [98] 0o755)
    ⟨by decide, by decide, by decide, nofun⟩ trivial
  have hlink := privileged_and_direct_agree smallKernel_lawful hp hu (c := .readLink [108])
    ⟨by decide, by decide, by decide, nofun⟩ ht
  have hstat := privileged_and_direct_agree smallKernel_lawful hp hu (c := .stat [97] true)
    ⟨by decide, by decide, by decide, nofun⟩ trivial
  exact ⟨htaken.left.trans rfl, hnew.right.left.trans rfl, hlink.left.trans rfl,
    hstat.left.trans rfl⟩

end FileService

end FileBroker
