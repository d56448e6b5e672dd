import Mathlib
import FileBroker.Proofs.Record.Overflow
import FileBroker.Proxy.Call

namespace FileBroker.Call

variable {δ : Type}

def operation : Call δ α → Operation
  | openFile .. => .openFile
  | create ..   => .create
  | makeDir ..  => .makeDir
  | unlink ..   => .unlink
  | makeNode .. => .makeNode
  | readLink .. => .readLink
  | rename ..   => .rename
  | link ..     => .link
  | access ..   => .access
  | stat ..     => .stat
  | addWatch .. => .addWatch
  | init        => .init
  | cleanup     => .cleanup

def paths : Call δ α → List Bytes
  | openFile _ path _         => [path]
  | create path _             => [path]
  | makeDir _ path _          => [path]
  | unlink _ path _           => [path]
  | makeNode _ path _ _       => [path]
  | readLink _ path           => [path]
  | rename _ old _ new _      => [old, new]
  | link _ old _ new _        => [old, new]
  | access _ path _           => [path]
  | stat _ path _             => [path]
  | addWatch _ _ path _       => [path]
  | init | cleanup            => []

-- What a path of the call has to pass. Only a stat has a meaning for an empty one.
def check : Call δ α → Bytes → Except ProxyError Bytes
  | stat .. => withoutNul
  | _       => checked

def PathsPass (c : Call δ α) : Prop :=
  ∀ path ∈ c.paths, c.check path = .ok path

def device : Call δ α → UInt64
  | makeNode _ _ _ dev => dev
  | _                  => 0

-- The calls whose arguments pass the local checks and fit into a record.
structure Accepted (c : Call δ α) : Prop where
  noNul    : ∀ path ∈ c.paths, 0 ∉ path
  nonempty : c.operation = .stat ∨ [] ∉ c.paths
  lengths  : ∀ path ∈ c.paths, path.length < 2 ^ 31
  device   : c.device.toNat < 2 ^ 31

-- The request of a call when all descriptors can be duplicated.
def asks (cwd : δ) : Call δ α → Request δ
  | openFile base path flags    => .openFile base path flags
  | create path mode            => .create path mode
  | makeDir base path mode      => .makeDir base path mode
  | unlink base path flags      => .unlink base path flags
  | makeNode base path mode dev => .makeNode base path mode dev
  | readLink base path          => .readLink base path
  | rename oldBase old newBase new flags =>
    .rename (oldBase <|> newBase.map fun _ => cwd) old newBase new flags
  | link oldBase old newBase new flags   =>
    .link (oldBase <|> newBase.map fun _ => cwd) old newBase new flags
  | access base path mode       => .access base path mode
  | stat base path flags        => .stat (base.getD cwd) path flags
  | addWatch inotify base path mask => .addWatch inotify base path mask
  | init                        => .init
  | cleanup                     => .cleanup

-- How many descriptors of its own the request of a call has to have.
def copies : Call δ α → Nat
  | openFile base .. | makeDir base .. | unlink base .. | makeNode base .. | readLink base ..
  | access base ..                  => base.toList.length
  | rename oldBase _ newBase .. | link oldBase _ newBase .. =>
    newBase.toList.length + (oldBase <|> newBase).toList.length
  | stat ..                         => 1
  | addWatch _ base ..              => 1 + base.toList.length
  | create .. | init | cleanup      => 0

-- The first of so many duplications that fails.
def firstFailure? (n : Nat) (attempts : Duplications) : Option IoError :=
  (attempts.take n).findSome? id

variable {c : Call δ α}

theorem withoutNul_cases (path : Bytes) :
    withoutNul path = .ok path ∨ ∃ cause, withoutNul path = .error (.invalidArgument cause) := by
  unfold withoutNul
  split
  · exact .inr ⟨_, rfl⟩
  · exact .inl rfl

theorem checked_cases (path : Bytes) :
    checked path = .ok path ∨ ∃ cause, checked path = .error (.invalidArgument cause) := by
  unfold checked
  split
  · exact .inr ⟨_, rfl⟩
  · exact withoutNul_cases path

theorem check_cases (c : Call δ α) (path : Bytes) :
    c.check path = .ok path ∨ ∃ cause, c.check path = .error (.invalidArgument cause) := by
  cases c
  case stat => exact withoutNul_cases path
  all_goals exact checked_cases path

theorem check_error (h : c.check path = .error e) : ∃ cause, e = .invalidArgument cause := by
  obtain hc | ⟨cause, hc⟩ := c.check_cases path
  case inl => nomatch hc.symm.trans h
  case inr => exact ⟨cause, Except.error.inj <| h.symm.trans hc⟩

theorem withoutNul_ok_iff : withoutNul path = .ok path ↔ 0 ∉ path := by
  simp [withoutNul]

theorem checked_ok_iff : checked path = .ok path ↔ 0 ∉ path ∧ path ≠ [] := by
  cases path <;> simp [checked, withoutNul_ok_iff]

theorem check_ok_iff : c.check path = .ok path ↔ 0 ∉ path ∧ (c.operation = .stat ∨ path ≠ []) := by
  cases c
  case stat => simp [check, operation, withoutNul_ok_iff]
  all_goals simp [check, operation, checked_ok_iff]

theorem pathsPass_iff :
    c.PathsPass ↔ ∀ path ∈ c.paths, 0 ∉ path ∧ (c.operation = .stat ∨ path ≠ []) :=
  forall₂_congr fun _ _ => check_ok_iff

-- A computation that fails in no other way than `P` allows, and when a duplication does.
def FailsOnly (P : ProxyError → Prop) (m : Preparing α) : Prop :=
  ∀ attempts,
    match m.run.run attempts with
    | (.error e, _)  => P e ∨ ∃ cause, some cause ∈ attempts ∧ e = .io cause
    | (.ok _, later) => later <:+ attempts

variable {P : ProxyError → Prop}

theorem failsOnly_pure (a : α) : FailsOnly P (pure a) :=
  fun _ => List.suffix_refl _

theorem failsOnly_lift {x : Except ProxyError α} (h : ∀ e, x = .error e → P e) :
    FailsOnly P (liftM x : Preparing α) := by
  intro attempts
  cases x
  case error e => exact .inl <| h e rfl
  case ok      => exact List.suffix_refl _

theorem bind_run (m : Preparing α) (f : α → Preparing β) (attempts : Duplications) :
    (m >>= f).run.run attempts =
      match m.run.run attempts with
      | (.ok a, later)    => (f a).run.run later
      | (.error e, later) => (.error e, later) := by
  change (ExceptT.bindCont f (m attempts).1) (m attempts).2 = _
  change _ = (match m attempts with | (.ok a, later) => _ | (.error e, later) => _)
  split
  case h_1 h => rw [h]; rfl
  case h_2 h => rw [h]; rfl

theorem FailsOnly.bind {m : Preparing α} {f : α → Preparing β} (hm : FailsOnly P m)
    (hf : ∀ a, FailsOnly P (f a)) : FailsOnly P (m >>= f) := by
  intro attempts
  have hm := hm attempts
  rw [bind_run]
  match hr : m.run.run attempts with
  | (.error e, _)  => simpa only [hr] using hm
  | (.ok a, later) =>
    simp only [hr] at hm ⊢
    have hf := hf a later
    match hs : (f a).run.run later with
    | (.error e, _) =>
      simp only [hs] at hf ⊢
      obtain hf | ⟨cause, hc, he⟩ := hf
      case inl => exact .inl hf
      case inr => exact .inr ⟨cause, hm.subset hc, he⟩
    | (.ok _, _) =>
      simp only [hs] at hf ⊢
      exact hf.trans hm

theorem duplicate_failsOnly (fd : δ) : FailsOnly P (duplicate fd) := by
  intro attempts
  match attempts with
  | []            => exact List.suffix_refl _
  | none :: _     => exact List.suffix_cons ..
  | some cause :: _ => exact .inr ⟨cause, List.mem_cons_self, rfl⟩

theorem duplicate?_failsOnly (base : Option δ) : FailsOnly P (duplicate? base) := by
  cases base
  case none => exact failsOnly_pure none
  case some fd => exact (duplicate_failsOnly fd).bind fun _ => failsOnly_pure _

theorem bases_failsOnly (cwd : δ) (first second : Option δ) : FailsOnly P (bases cwd first second) :=
  (duplicate?_failsOnly second).bind fun _ =>
    (duplicate?_failsOnly _).bind fun _ => failsOnly_pure _

-- The path of a call that has one.
theorem failsOnly_checked {x : Except ProxyError Bytes} {f : Bytes → Request δ}
    (h : ∀ e, x = .error e → P e) :
    FailsOnly P (do let path ← (x : Preparing Bytes); return f path) :=
  (failsOnly_lift h).bind fun _ => failsOnly_pure _

theorem request_failsOnly (c : Call δ α) (h : ∀ path ∈ c.paths, ∀ e, c.check path = .error e → P e)
    (cwd : δ) : FailsOnly P (c.request cwd) := by
  match c with
  | openFile base path _ | makeDir base path _ | unlink base path _ | makeNode base path _ _
  | readLink base path | access base path _ =>
    exact (duplicate?_failsOnly base).bind fun _ => failsOnly_checked <| h path List.mem_cons_self
  | create path _ => exact failsOnly_checked <| h path List.mem_cons_self
  | rename oldBase old newBase new _ | link oldBase old newBase new _ =>
    refine (bases_failsOnly cwd oldBase newBase).bind fun _ => ?_
    refine (failsOnly_lift <| h old List.mem_cons_self).bind fun _ => ?_
    exact failsOnly_checked <| h new <| List.mem_cons_of_mem _ List.mem_cons_self
  | stat base path _ =>
    refine (failsOnly_lift <| h path List.mem_cons_self).bind fun _ => ?_
    exact (duplicate_failsOnly _).bind fun _ => failsOnly_pure _
  | addWatch inotify base path _ =>
    refine (duplicate_failsOnly inotify).bind fun _ => ?_
    exact (duplicate?_failsOnly base).bind fun _ => failsOnly_checked <| h path List.mem_cons_self
  | init | cleanup => exact failsOnly_pure _

-- All that a computation can return satisfies `Q`.
def Gives (Q : α → Prop) (m : Preparing α) : Prop :=
  ∀ attempts a later, m.run.run attempts = (.ok a, later) → Q a

theorem gives_pure {Q : α → Prop} (h : Q a) : Gives Q (pure a) := by
  intro attempts b later hb
  cases hb
  exact h

theorem Gives.of_bind {Q : β → Prop} {m : Preparing α} {f : α → Preparing β}
    (hf : ∀ a, Gives Q (f a)) : Gives Q (m >>= f) := by
  intro attempts b later h
  rw [bind_run] at h
  match hr : m.run.run attempts with
  | (.error e, _) =>
    rw [hr] at h
    exact nomatch h
  | (.ok a, later) =>
    rw [hr] at h
    exact hf a _ _ _ h

theorem request_operation {attempts : Duplications}
    (h : (c.request cwd).run.run attempts = (.ok r, later)) : r.operation = c.operation := by
  have hg : Gives (·.operation = c.operation) (c.request cwd) := by
    cases c
    case init | cleanup => exact gives_pure rfl
    case create => exact .of_bind fun _ => gives_pure rfl
    case openFile | makeDir | unlink | makeNode | readLink | access | stat =>
      exact .of_bind fun _ => .of_bind fun _ => gives_pure rfl
    case rename | link | addWatch =>
      exact .of_bind fun _ => .of_bind fun _ => .of_bind fun _ => gives_pure rfl
  exact hg _ _ _ h

theorem request_error {attempts : Duplications}
    (h : (c.request cwd).run.run attempts = (.error e, later)) :
    (∃ cause, e = .invalidArgument cause) ∨ ∃ cause, e = .io cause := by
  have := request_failsOnly (P := fun e => ∃ cause, e = .invalidArgument cause) c
    (fun _ _ _ => check_error) cwd attempts
  rw [h] at this
  obtain h | ⟨cause, _, h⟩ := this
  case inl => exact .inl h
  case inr => exact .inr ⟨cause, h⟩

-- A computation that comes to `a` by way of so many duplications, if none of them fails.
def Copies (n : Nat) (a : α) (m : Preparing α) : Prop :=
  ∀ attempts,
    match firstFailure? n attempts with
    | none       => m.run.run attempts = (.ok a, attempts.drop n)
    | some cause => ∃ later, m.run.run attempts = (.error (.io cause), later)

theorem firstFailure?_add (n k : Nat) (attempts : Duplications) :
    firstFailure? (n + k) attempts =
      (firstFailure? n attempts).or (firstFailure? k (attempts.drop n)) := by
  rw [firstFailure?, List.take_add, List.findSome?_append]
  rfl

theorem copies_pure (a : α) : Copies 0 a (pure a) :=
  fun _ => rfl

theorem copies_lift {x : Except ProxyError α} (h : x = .ok a) : Copies 0 a (liftM x : Preparing α) := by
  subst h
  exact copies_pure a

theorem copies_duplicate (fd : δ) : Copies 1 fd (duplicate fd) := by
  intro attempts
  match attempts with
  | []              => rfl
  | none :: _       => rfl
  | some cause :: _ => exact ⟨_, rfl⟩

theorem Copies.bind {m : Preparing α} {f : α → Preparing β} (hm : Copies n a m) (hf : Copies k b (f a)) :
    Copies (n + k) b (m >>= f) := by
  intro attempts
  have hm := hm attempts
  rw [firstFailure?_add, bind_run, ←List.drop_drop]
  cases hn : firstFailure? n attempts
  case some cause =>
    simp only [hn] at hm
    have ⟨later, hm⟩ := hm
    rw [hm]
    exact ⟨later, rfl⟩
  case none =>
    simp only [hn] at hm
    rw [hm]
    exact hf (attempts.drop n)

theorem Copies.return {m : Preparing α} (hm : Copies n a m) (g : α → β) :
    Copies n (g a) (do let a ← m; return g a) :=
  hm.bind (k := 0) <| copies_pure (g a)

theorem copies_duplicate? (base : Option δ) : Copies base.toList.length base (duplicate? base) := by
  cases base
  case none    => exact copies_pure none
  case some fd => exact (copies_duplicate fd).return some

theorem copies_bases (cwd : δ) (first second : Option δ) :
    Copies (second.toList.length + (first <|> second).toList.length)
      (first <|> second.map fun _ => cwd, second) (bases cwd first second) := by
  have hl : (first <|> second).toList.length = (first <|> second.map fun _ => cwd).toList.length := by
    cases first <;> cases second <;> rfl
  rw [hl]
  refine (copies_duplicate? second).bind ?_
  exact (copies_duplicate? _).return (·, second)

-- When the paths pass, there is a request unless a duplication fails.
theorem request_copies (hp : c.PathsPass) (cwd : δ) : Copies c.copies (c.asks cwd) (c.request cwd) := by
  match c with
  | openFile base path _ | makeDir base path _ | unlink base path _ | makeNode base path _ _
  | readLink base path | access base path _ =>
    refine (copies_duplicate? base).bind (k := 0) ?_
    exact (copies_lift <| hp path List.mem_cons_self).return _
  | create path _ => exact (copies_lift <| hp path List.mem_cons_self).return _
  | rename oldBase old newBase new _ | link oldBase old newBase new _ =>
    refine (copies_bases cwd oldBase newBase).bind (k := 0) ?_
    refine (copies_lift <| hp old List.mem_cons_self).bind (k := 0) ?_
    exact (copies_lift <| hp new <| List.mem_cons_of_mem _ List.mem_cons_self).return _
  | stat base path _ =>
    refine (copies_lift <| hp path List.mem_cons_self).bind (k := 1) ?_
    exact (copies_duplicate (base.getD cwd)).return _
  | addWatch inotify base path _ =>
    refine (copies_duplicate inotify).bind ?_
    refine (copies_duplicate? base).bind (k := 0) ?_
    exact (copies_lift <| hp path List.mem_cons_self).return _
  | init | cleanup => exact copies_pure _

-- With no failure in sight, all duplications succeed.
theorem Copies.run {m : Preparing α} (hm : Copies n a m) : m.run.run [] = (.ok a, []) := by
  have hf : firstFailure? n [] = none := by simp [firstFailure?]
  have hr := hm []
  rw [hf] at hr
  simpa using hr

theorem Copies.then_run {m : Preparing α} {f : α → Preparing β} (hm : Copies n a m) :
    (m >>= f).run.run [] = (f a).run.run [] := by
  rw [bind_run, hm.run]

theorem request_run (hp : c.PathsPass) (cwd : δ) :
    (c.request cwd).run.run [] = (.ok (c.asks cwd), []) :=
  (request_copies hp cwd).run

-- A first step that fails and uses up nothing.
theorem refused_run {x : Except ProxyError α} {f : α → Preparing β} (h : x = .error e)
    (attempts : Duplications) : (liftM x >>= f : Preparing β).run.run attempts = (.error e, attempts) := by
  subst h
  rfl

-- The path that is refused, when there is only one.
theorem check_refused (h : ¬c.PathsPass) (hp : c.paths = [path]) :
    ∃ cause, c.check path = .error (.invalidArgument cause) := by
  refine (c.check_cases path).resolve_left fun hok => h fun _ hm => ?_
  rw [hp, List.mem_singleton] at hm
  exact hm ▸ hok

theorem request_refused (h : ¬c.PathsPass) (cwd : δ) :
    ∃ cause, (c.request cwd).run.run [] = (.error (.invalidArgument cause), []) := by
  match c with
  | openFile base path _ | makeDir base path _ | unlink base path _ | makeNode base path _ _
  | readLink base path | access base path _ =>
    have ⟨cause, hc⟩ := check_refused h rfl
    exact ⟨cause, (copies_duplicate? base).then_run.trans <| refused_run hc _⟩
  | create path _ =>
    have ⟨cause, hc⟩ := check_refused h rfl
    exact ⟨cause, refused_run hc _⟩
  | rename oldBase old newBase new _ | link oldBase old newBase new _ =>
    obtain ho | ⟨cause, hc⟩ := checked_cases old
    case inr => exact ⟨cause, (copies_bases cwd oldBase newBase).then_run.trans <| refused_run hc _⟩
    obtain hn | ⟨cause, hc⟩ := checked_cases new
    case inl => exact (h <| List.forall_mem_cons.mpr ⟨ho, List.forall_mem_singleton.mpr hn⟩).elim
    refine ⟨cause, (copies_bases cwd oldBase newBase).then_run.trans ?_⟩
    exact (copies_lift ho).then_run.trans <| refused_run hc _
  | stat base path _ =>
    have ⟨cause, hc⟩ := check_refused h rfl
    exact ⟨cause, refused_run hc _⟩
  | addWatch inotify base path _ =>
    have ⟨cause, hc⟩ := check_refused h rfl
    refine ⟨cause, (copies_duplicate inotify).then_run.trans ?_⟩
    exact (copies_duplicate? base).then_run.trans <| refused_run hc _
  | init | cleanup => exact (h nofun).elim

theorem asks_paths (c : Call δ α) (cwd : δ) : (c.asks cwd).paths = c.paths := by
  cases c <;> rfl

theorem asks_operation (c : Call δ α) (cwd : δ) : (c.asks cwd).operation = c.operation := by
  cases c <;> rfl

theorem asks_device (c : Call δ α) (cwd : δ) : (c.asks cwd).device = c.device := by
  cases c <;> rfl

theorem accepted_iff (cwd : δ) :
    c.Accepted ↔ c.PathsPass ∧ ∀ n ∈ (c.asks cwd).numbers, Decimal.fits 32 n := by
  rw [pathsPass_iff, Request.numbers_fit_iff, asks_device, asks_paths]
  constructor
  case mp =>
    intro h
    refine ⟨fun path hm => ⟨h.noNul path hm, ?_⟩, h.device, h.lengths⟩
    exact h.nonempty.imp_right fun he hp => he (hp ▸ hm)
  case mpr =>
    intro ⟨hp, hd, hl⟩
    refine ⟨fun path hm => (hp path hm).left, ?_, hl, hd⟩
    by_cases ho : c.operation = .stat
    case pos => exact .inl ho
    case neg => exact .inr fun hm => ((hp [] hm).right.resolve_left ho) rfl

theorem Accepted.pathsPass (h : c.Accepted) (cwd : δ) : c.PathsPass :=
  ((accepted_iff cwd).mp h).left

theorem Accepted.fits (h : c.Accepted) (cwd : δ) : ∀ n ∈ (c.asks cwd).numbers, Decimal.fits 32 n :=
  ((accepted_iff cwd).mp h).right

end FileBroker.Call
