import Mathlib
import FileBroker.Proofs.Slot.Openness

namespace FileBroker

variable {τ ω δ : Type}

-- Where a caller is in its call.
inductive Phase
  | idle
  -- It has been given a proxy, and has not used it yet.
  | holding (i : Nat)
  -- Its use of a proxy has failed for good, and the slot has not been told yet.
  | bereft (i : Nat)
  deriving DecidableEq, Repr

structure Crowd (τ ω δ : Type) where
  slot      : Slot τ ω δ
  phase     : Nat → Phase := fun _ => .idle
  -- The proxies that an operation has failed on for good.
  failed    : List Nat := []
  -- The proxies that somebody meant to close.
  dismissed : List Nat := []

inductive Move (δ : Type)
  | ask (who : Nat)
  | use (who : Nat) {α : Type} (c : FileCall δ α)
  | forget (who : Nat)
  -- Somebody closes a proxy that was handed out.
  | close (i : Nat)
  -- Somebody makes the slot close and forget what it holds.
  | discard

namespace Crowd

open Slot

variable {k : Connector τ ω δ} {s t : Crowd τ ω δ}

def turn (s : Crowd τ ω δ) (who : Nat) (phase : Phase) : Crowd τ ω δ :=
  { s with phase := Function.update s.phase who phase }

def ask (k : Connector τ ω δ) (who : Nat) (s : Crowd τ ω δ) : Crowd τ ω δ :=
  match s.slot.get k with
  | (.ok i, slot)    => { s with slot }.turn who (.holding i)
  | (.error _, slot) => { s with slot }

def use (k : Connector τ ω δ) (who i : Nat) (c : FileCall δ α) (s : Crowd τ ω δ) : Crowd τ ω δ :=
  let (r, slot) := s.slot.runOn k.peer i c.call
  match r with
  | .ok _    => { s with slot }.turn who .idle
  | .error e =>
    if e.isBroken then { s with slot, failed := i :: s.failed }.turn who (.bereft i)
    else { s with slot }.turn who .idle

-- A move that a caller cannot make in its phase changes nothing.
def step (k : Connector τ ω δ) (s : Crowd τ ω δ) : Move δ → Crowd τ ω δ
  | .ask who =>
    match s.phase who with
    | .idle => s.ask k who
    | _     => s
  | .use who c =>
    match s.phase who with
    | .holding i => s.use k who i c
    | _          => s
  | .forget who =>
    match s.phase who with
    | .bereft _ => { s with slot := s.slot.invalidate k.peer }.turn who .idle
    | _         => s
  | .close i => { s with slot := s.slot.closeAt k.peer i, dismissed := i :: s.dismissed }
  | .discard =>
    { s with
      slot      := s.slot.invalidate k.peer
      dismissed := s.slot.current.toList ++ s.dismissed }

def run (k : Connector τ ω δ) (s : Crowd τ ω δ) (moves : List (Move δ)) : Crowd τ ω δ :=
  moves.foldl (step k) s

-- Nobody has called yet.
def start (source : τ) : Crowd τ ω δ where
  slot := { source }

-- Every way that a move can go.
inductive Stepped (k : Connector τ ω δ) (s : Crowd τ ω δ) : Move δ → Crowd τ ω δ → Prop
  | waits {m} : Stepped k s m s
  | asked {who i slot} :
    s.phase who = .idle → s.slot.get k = (.ok i, slot) →
    Stepped k s (.ask who) ({ s with slot }.turn who (.holding i))
  | unserved {who e slot} :
    s.phase who = .idle → s.slot.get k = (.error e, slot) →
    Stepped k s (.ask who) { s with slot }
  | used {who i} {α : Type} {c : FileCall δ α} :
    s.phase who = .holding i →
    (∀ e, (s.slot.runOn k.peer i c.call).1 = .error e → e.isBroken = false) →
    Stepped k s (.use who c) ({ s with slot := (s.slot.runOn k.peer i c.call).2 }.turn who .idle)
  | lost {who i e} {α : Type} {c : FileCall δ α} :
    s.phase who = .holding i → (s.slot.runOn k.peer i c.call).1 = .error e → e.isBroken = true →
    Stepped k s (.use who c)
      ({ s with slot := (s.slot.runOn k.peer i c.call).2, failed := i :: s.failed }.turn who (.bereft i))
  | forgot {who i} :
    s.phase who = .bereft i →
    Stepped k s (.forget who) ({ s with slot := s.slot.invalidate k.peer }.turn who .idle)
  | closed {i} :
    Stepped k s (.close i) { s with slot := s.slot.closeAt k.peer i, dismissed := i :: s.dismissed }
  | discarded :
    Stepped k s .discard
      { s with slot := s.slot.invalidate k.peer, dismissed := s.slot.current.toList ++ s.dismissed }

theorem step_stepped (k : Connector τ ω δ) (s : Crowd τ ω δ) (m : Move δ) : s.Stepped k m (s.step k m) := by
  cases m
  case ask who =>
    rw [step]
    split
    case h_2 => exact .waits
    case h_1 hp =>
      unfold ask
      split
      case h_1 hg => exact .asked hp hg
      case h_2 hg => exact .unserved hp hg
  case use who _ c =>
    rw [step]
    split
    case h_2 => exact .waits
    case h_1 i hp =>
      unfold use
      dsimp only
      split
      case h_1 hr => exact .used hp (by simp [hr])
      case h_2 e hr =>
        split
        case isTrue hb  => exact .lost hp hr hb
        case isFalse hb => exact .used hp (by simpa [hr] using hb)
  case forget who =>
    rw [step]
    split
    case h_1 hp => exact .forgot hp
    case h_2    => exact .waits
  case close   => exact .closed
  case discard => exact .discarded

theorem turn_self (s : Crowd τ ω δ) (who : Nat) (p : Phase) : (s.turn who p).phase who = p :=
  Function.update_self ..

theorem turn_ne (s : Crowd τ ω δ) (p : Phase) (h : a ≠ who) : (s.turn who p).phase a = s.phase a :=
  Function.update_of_ne h ..

-- A caller whom nobody interrupts makes the call that `Slot.run` makes.
theorem run_uninterrupted (k : Connector τ ω δ) (h : s.phase who = .idle) (c : FileCall δ α) :
    let t := s.run k [.ask who, .use who c, .forget who]
    t.slot = (s.slot.run k c.call).2 ∧ t.phase = s.phase := by
  have hidle : Function.update s.phase who .idle = s.phase := by
    rw [←h]
    exact Function.update_eq_self ..
  simp only [run, List.foldl_cons, List.foldl_nil, Slot.run, Slot.conclude]
  match hg : s.slot.get k with
  | (.error e, slot) => simp [step, ask, h, hg]
  | (.ok i, slot) =>
    match hr : slot.runOn k.peer i c.call with
    | (.ok a, slot') => simp [step, ask, use, turn, h, hg, hr, hidle]
    | (.error e, slot') =>
      cases hb : e.isBroken <;> simp [step, ask, use, turn, h, hg, hr, hb, hidle]

-- Callers know only of proxies that have been built, and have reasons to be bereft.
structure Orderly (s : Crowd τ ω δ) : Prop where
  known : ∀ a i, s.phase a = .holding i ∨ s.phase a = .bereft i → i < s.slot.built.length
  cause : ∀ a i, s.phase a = .bereft i → i ∈ s.failed

theorem start_orderly (source : τ) : (start source : Crowd τ ω δ).Orderly where
  known _ _ h := by cases h <;> contradiction
  cause _ _ h := by contradiction

-- One caller is in a new phase, and the others know no less than before.
theorem Orderly.turn {slot : Slot τ ω δ} {failed : List Nat} (h : s.Orderly)
    (hb : s.slot.built.length ≤ slot.built.length) (hf : s.failed ⊆ failed)
    (hk : ∀ i, p = .holding i ∨ p = .bereft i → i < slot.built.length)
    (hc : ∀ i, p = .bereft i → i ∈ failed) (who : Nat) (dismissed : List Nat) :
    (Crowd.turn { s with slot, failed, dismissed } who p).Orderly where
  known a i ha := by
    by_cases hw : a = who
    case pos => exact hk i <| by rwa [hw, turn_self] at ha
    case neg => exact Nat.lt_of_lt_of_le (h.known a i <| by rwa [turn_ne _ _ hw] at ha) hb
  cause a i ha := by
    by_cases hw : a = who
    case pos => exact hc i <| by rwa [hw, turn_self] at ha
    case neg => exact hf <| h.cause a i <| by rwa [turn_ne _ _ hw] at ha

theorem Orderly.stepped (h : s.Orderly) (hs : s.Stepped k m t) : t.Orderly := by
  have hslot (slot : Slot τ ω δ) (dismissed : List Nat) (hb : s.slot.built.length ≤ slot.built.length) :
      { s with slot, dismissed }.Orderly :=
    ⟨fun a i ha => Nat.lt_of_lt_of_le (h.known a i ha) hb, h.cause⟩
  cases hs
  case waits => exact h
  case asked who i slot _ hg =>
    have hb := get_built_le k s.slot
    rw [hg] at hb
    exact h.turn hb (List.Subset.refl _) (by simpa using get_ok_lt hg) (by simp) who _
  case unserved slot _ hg =>
    have hb := get_built_le k s.slot
    rw [hg] at hb
    exact hslot slot _ hb
  case used who _ _ c _ _ =>
    exact h.turn (Nat.le_of_eq (runOn_length ..).symm) (List.Subset.refl _) (by simp) (by simp) who _
  case lost who i _ _ c hp _ _ =>
    have hi := h.known who i (.inl hp)
    exact h.turn (Nat.le_of_eq (runOn_length ..).symm) (List.subset_cons_self ..)
      (by simpa [runOn_length] using hi) (by simp) who _
  case forgot who i _ =>
    exact h.turn (Nat.le_of_eq (invalidate_length ..).symm) (List.Subset.refl _) (by simp) (by simp) who _
  case closed    => exact hslot _ _ (Nat.le_of_eq (closeAt_length ..).symm)
  case discarded => exact hslot _ _ (Nat.le_of_eq (invalidate_length ..).symm)

theorem Stepped.length_le (hs : s.Stepped k m t) : s.slot.built.length ≤ t.slot.built.length := by
  cases hs
  case waits => exact Nat.le_refl _
  case asked hg | unserved hg =>
    have := get_built_le k s.slot
    rwa [hg] at this
  case used | lost        => exact Nat.le_of_eq (runOn_length ..).symm
  case forgot | discarded => exact Nat.le_of_eq (invalidate_length ..).symm
  case closed             => exact Nat.le_of_eq (closeAt_length ..).symm

-- A closed proxy is closed for good.
theorem Stepped.shut (hs : s.Stepped k m t) (hi : i < s.slot.built.length) (ho : s.slot.isOpen i = false) :
    t.slot.isOpen i = false := by
  have hrun {α : Type} (j : Nat) (c : FileCall δ α) :
      (s.slot.runOn k.peer j c.call).2.isOpen i = false := by
    by_cases hj : j = i
    case pos => exact hj ▸ runOn_shut (hj ▸ ho) _
    case neg => rwa [runOn_isOpen_ne hj]
  cases hs
  case waits => exact ho
  case asked hg | unserved hg =>
    have := get_isOpen k hi
    rw [hg] at this
    exact this.trans ho
  case used | lost        => exact hrun ..
  case forgot | discarded => exact (invalidate_isOpen ..).trans (by simp [ho])
  case closed j =>
    by_cases hj : j = i
    case pos => exact hj ▸ closeAt_isOpen_self ..
    case neg => exact (closeAt_isOpen_ne _ _ hj).trans ho

theorem Stepped.blamed (hs : s.Stepped k m t) : s.failed ⊆ t.failed ∧ s.dismissed ⊆ t.dismissed := by
  cases hs
  case lost      => exact ⟨List.subset_cons_self .., List.Subset.refl _⟩
  case closed    => exact ⟨List.Subset.refl _, List.subset_cons_self ..⟩
  case discarded => exact ⟨List.Subset.refl _, List.subset_append_right ..⟩
  all_goals exact ⟨List.Subset.refl _, List.Subset.refl _⟩

theorem run_orderly (k : Connector τ ω δ) (moves : List (Move δ)) (h : s.Orderly) :
    (s.run k moves).Orderly := by
  induction moves generalizing s
  case nil         => exact h
  case cons m _ hi => exact hi <| h.stepped <| s.step_stepped k m

theorem run_length_le (k : Connector τ ω δ) (moves : List (Move δ)) (s : Crowd τ ω δ) :
    s.slot.built.length ≤ (s.run k moves).slot.built.length := by
  induction moves generalizing s
  case nil         => exact Nat.le_refl _
  case cons m _ hi => exact Nat.le_trans (s.step_stepped k m).length_le <| hi (s.step k m)

theorem run_shut (k : Connector τ ω δ) (moves : List (Move δ)) (hi : i < s.slot.built.length)
    (ho : s.slot.isOpen i = false) : (s.run k moves).slot.isOpen i = false := by
  induction moves generalizing s
  case nil          => exact ho
  case cons m _ ih =>
    have hs := s.step_stepped k m
    exact ih (Nat.lt_of_lt_of_le hi hs.length_le) (hs.shut hi ho)

theorem run_blamed (k : Connector τ ω δ) (moves : List (Move δ)) (s : Crowd τ ω δ) :
    s.failed ⊆ (s.run k moves).failed ∧ s.dismissed ⊆ (s.run k moves).dismissed := by
  induction moves generalizing s
  case nil          => exact ⟨List.Subset.refl _, List.Subset.refl _⟩
  case cons m _ hi =>
    have ⟨hf, hd⟩ := (s.step_stepped k m).blamed
    have ⟨hf', hd'⟩ := hi (s.step k m)
    exact ⟨List.Subset.trans hf hf', List.Subset.trans hd hd'⟩

-- The slot holds `i`, which can be used, and nobody knows of a newer proxy.
structure Holds (s : Crowd τ ω δ) (i : Nat) : Prop where
  isOpen  : s.slot.isOpen i = true
  current : s.slot.current = some i
  newest  : ∀ a j, s.phase a = .holding j ∨ s.phase a = .bereft j → j ≤ i

theorem Holds.lt (h : s.Holds i) : i < s.slot.built.length :=
  lt_of_isOpen h.isOpen

theorem Holds.turn {slot : Slot τ ω δ} (h : s.Holds i) (ho : slot.isOpen i = true)
    (hc : slot.current = some i) (hp : ∀ j, p = .holding j ∨ p = .bereft j → j ≤ i) (who : Nat)
    (failed : List Nat) : (Crowd.turn { s with slot, failed } who p).Holds i where
  isOpen  := ho
  current := hc
  newest a j ha := by
    by_cases hw : a = who
    case pos => exact hp j <| by rwa [hw, turn_self] at ha
    case neg => exact h.newest a j <| by rwa [turn_ne _ _ hw] at ha

-- A proxy that nobody is to blame for closing stays, unless a call that has lost an older one makes the
-- slot forget.
theorem Stepped.holds (hs : s.Stepped k m t) (h : s.Holds i) (ho : s.Orderly) (hf : i ∉ t.failed)
    (hd : i ∉ t.dismissed) :
    t.Holds i ∨ (t.slot.isOpen i = false ∧ ∃ a j, m = .forget a ∧ s.phase a = .bereft j ∧ j < i) := by
  cases hs
  case waits => exact .inl h
  case asked who j slot _ hg =>
    cases (get_live (live?_eq h.current h.isOpen) k).symm.trans hg
    exact .inl <| h.turn h.isOpen h.current (by simp) who _
  case unserved hg =>
    cases (get_live (live?_eq h.current h.isOpen) k).symm.trans hg
  case used who j _ c hp hr =>
    refine .inl <| h.turn ?_ ((runOn_current ..).trans h.current) (by simp) who _
    by_cases hj : j = i
    case pos =>
      subst hj
      exact (runOn_isOpen h.isOpen _).mpr hr
    case neg => exact (runOn_isOpen_ne hj _).trans h.isOpen
  case lost who j _ _ c hp _ _ =>
    have hj : j ≠ i := fun hj => hf <| hj ▸ List.mem_cons_self
    have hn := h.newest who j (.inl hp)
    exact .inl <| h.turn ((runOn_isOpen_ne hj _).trans h.isOpen) ((runOn_current ..).trans h.current)
      (by simpa using hn) who _
  case forgot who j hp =>
    have hj : j ≠ i := fun hj => hf <| hj ▸ ho.cause who j hp
    have hn := h.newest who j (.inr hp)
    exact .inr ⟨(invalidate_isOpen ..).trans (by simp [h.current]), who, j, rfl, hp,
      Nat.lt_of_le_of_ne hn hj⟩
  case closed j =>
    have hj : j ≠ i := fun hj => hd <| hj ▸ List.mem_cons_self
    exact .inl ⟨(closeAt_isOpen_ne _ _ hj).trans h.isOpen, h.current, h.newest⟩
  case discarded => exact absurd (by simp [h.current]) hd

theorem run_holds (k : Connector τ ω δ) (moves : List (Move δ)) (h : s.Holds i) (ho : s.Orderly)
    (hf : i ∉ (s.run k moves).failed) (hd : i ∉ (s.run k moves).dismissed) :
    (s.run k moves).Holds i ∨ ((s.run k moves).slot.isOpen i = false ∧
      ∃ early a j late, moves = early ++ .forget a :: late ∧
        (s.run k early).phase a = .bereft j ∧ j < i) := by
  induction moves generalizing s
  case nil => exact .inl h
  case cons m moves hi =>
    have hs := s.step_stepped k m
    have ⟨hf', hd'⟩ := run_blamed k moves (s.step k m)
    obtain h' | ⟨hc, a, j, rfl, hp, hj⟩ := hs.holds h ho (mt (hf' ·) hf) (mt (hd' ·) hd)
    case inr =>
      refine .inr ⟨?_, [], a, j, moves, rfl, hp, hj⟩
      exact run_shut k moves (Nat.lt_of_lt_of_le h.lt hs.length_le) hc
    case inl =>
      obtain h'' | ⟨hc, early, a, j, late, rfl, hp, hj⟩ := hi h' (ho.stepped hs) hf hd
      case inl => exact .inl h''
      case inr => exact .inr ⟨hc, m :: early, a, j, late, rfl, hp, hj⟩

theorem run_append (k : Connector τ ω δ) (early late : List (Move δ)) (s : Crowd τ ω δ) :
    s.run k (early ++ late) = (s.run k early).run k late :=
  List.foldl_append ..

-- A call that makes the slot forget closes what the slot holds, whatever proxy it has lost.
theorem forget_shuts (k : Connector τ ω δ) (hp : s.phase a = .bereft j) (h : s.Holds i) :
    (s.step k (.forget a)).slot.isOpen i = false := by
  simp only [step, hp]
  exact (invalidate_isOpen ..).trans (by simp [h.current])

theorem Stepped.builds (hk : k.Opens) (hs : s.Stepped k (.ask who) t) (ho : s.Orderly)
    (hb : s.slot.built.length < t.slot.built.length) : t.Holds s.slot.built.length := by
  cases hs
  case waits => exact absurd hb (Nat.lt_irrefl _)
  case asked j slot hg _ =>
    have hb : s.slot.built.length < (s.slot.get k).2.built.length := by rwa [hg]
    have ⟨slot', hg', hc, hopen⟩ := get_built hk hb
    cases hg'.symm.trans hg
    refine ⟨hopen, hc, fun a j ha => ?_⟩
    by_cases hw : a = who
    case pos =>
      rw [hw, turn_self] at ha
      simp at ha
      exact Nat.le_of_eq ha.symm
    case neg => exact Nat.le_of_lt <| ho.known a j <| by rwa [turn_ne _ _ hw] at ha
  case unserved slot hg _ =>
    have hb : s.slot.built.length < (s.slot.get k).2.built.length := by rwa [hg]
    have ⟨_, hg', _⟩ := get_built hk hb
    cases hg'.symm.trans hg

-- Any callers in any order. The call of `who` builds a proxy that no operation fails on for good and
-- that nobody means to close. It stays in the slot exactly as long as no call makes the slot forget
-- that has lost an older proxy.
theorem blameless_open_iff (hk : k.Opens) (source : τ) (before after : List (Move δ)) (who : Nat) :
    let s := (start source : Crowd τ ω δ).run k before
    let i := s.slot.built.length
    let t := s.step k (.ask who)
    i < t.slot.built.length → i ∉ (t.run k after).failed → i ∉ (t.run k after).dismissed →
      ((t.run k after).slot.isOpen i = true ↔
        ¬∃ early a j late, after = early ++ .forget a :: late ∧ (t.run k early).phase a = .bereft j ∧ j < i) ∧
      ((t.run k after).slot.isOpen i = true → (t.run k after).slot.current = some i) := by
  intro s i t hb hf hd
  have hos : s.Orderly := run_orderly k before <| start_orderly source
  have hst := s.step_stepped k (.ask who)
  have hot : t.Orderly := hos.stepped hst
  have ht : t.Holds i := hst.builds hk hos hb
  refine ⟨⟨fun hopen => ?_, fun hn => ?_⟩, fun hopen => ?_⟩
  case refine_1 =>
    rintro ⟨early, a, j, late, rfl, hp, hj⟩
    rw [run_append] at hf hd hopen
    have ⟨hf', hd'⟩ := run_blamed k (.forget a :: late) (t.run k early)
    have hstep := (t.run k early).step_stepped k (.forget a)
    have hlt := Nat.lt_of_lt_of_le ht.lt (run_length_le k early t)
    have hshut : ((t.run k early).step k (.forget a)).slot.isOpen i = false := by
      obtain h | ⟨hc, _⟩ := run_holds k early ht hot (mt (hf' ·) hf) (mt (hd' ·) hd)
      case inl => exact forget_shuts k hp h
      case inr => exact hstep.shut hlt hc
    have hc := run_shut k late (Nat.lt_of_lt_of_le hlt hstep.length_le) hshut
    exact absurd (hc.symm.trans hopen) (by decide)
  case refine_2 =>
    obtain h | ⟨_, hl⟩ := run_holds k after ht hot hf hd
    case inl => exact h.isOpen
    case inr => exact absurd hl hn
  case refine_3 =>
    obtain h | ⟨hc, _⟩ := run_holds k after ht hot hf hd
    case inl => exact h.current
    case inr => simp [hc] at hopen

-- Sessions whose helpers leave as soon as anybody asks them for something. The connector is told
-- beforehand which of its sessions wait for an answer, and which give up at once.
def unsteady : Connector (List Bool) Unit Nat where
  peer := { react := fun _ w => (.leave, w) }
  connect
    | []            => (.error (.startup .noHelperPid), [])
    | waits :: rest =>
      let link : Link Unit Nat :=
        { channel := { patience := if waits then none else some 0 }, far := () }
      (.ok { dispatcher := { link }, cwd := 0 }, rest)

theorem unsteady_opens : unsteady.Opens := by
  intro source p _ h
  match source with
  | []     => cases h
  | _ :: _ => cases h; rfl

-- Caller 0 gets proxy 0 and is overtaken: caller 1 loses proxy 0 and makes the slot forget it, and
-- caller 2 has proxy 1 built. Only then does caller 0 use proxy 0, which is closed by now.
def overtaken : List (Move Nat) :=
  [.ask 0, .ask 1, .use 1 (.statFd 3), .forget 1, .ask 2, .use 0 (.statFd 3)]

-- When caller 0 makes the slot forget at last, that closes proxy 1, on which no operation has failed.
theorem late_forget_closes_newer :
    let s := (start [false, true]).run unsteady overtaken
    let t := s.step unsteady (.forget 0)
    s.phase 0 = .bereft 0 ∧ s.slot.current = some 1 ∧ s.slot.isOpen 1 = true ∧
      1 ∉ t.failed ∧ 1 ∉ t.dismissed ∧ t.slot.current = none ∧ t.slot.isOpen 1 = false := by
  intro s t
  refine ⟨rfl, rfl, rfl, ?_, ?_, rfl, rfl⟩
  case refine_1 => exact (by decide : 1 ∉ [0, 0])
  case refine_2 => exact List.not_mem_nil

-- As long as caller 0 has not come to that, proxy 1 stays in the slot.
theorem newer_stays_before_late_forget :
    let s := (start [false, true]).run unsteady [.ask 0, .ask 1, .use 1 (.statFd 3), .forget 1]
    let t := s.step unsteady (.ask 2)
    unsteady.Opens ∧ s.slot.built.length = 1 ∧ t.slot.built.length = 2 ∧
      1 ∉ (t.run unsteady [.use 0 (.statFd 3)]).failed ∧
      1 ∉ (t.run unsteady [.use 0 (.statFd 3)]).dismissed ∧
      (t.run unsteady [.use 0 (.statFd 3)]).slot.current = some 1 := by
  intro s t
  have hf : 1 ∉ (t.run unsteady [.use 0 (.statFd 3)]).failed := (by decide : 1 ∉ [0, 0])
  have hd : 1 ∉ (t.run unsteady [.use 0 (.statFd 3)]).dismissed := List.not_mem_nil
  have h := blameless_open_iff unsteady_opens [false, true]
    [.ask 0, .ask 1, .use 1 (.statFd 3), .forget 1] [.use 0 (.statFd 3)] 2
    (by decide : 1 < 2) hf hd
  refine ⟨unsteady_opens, rfl, rfl, hf, hd, h.2 <| h.1.mpr ?_⟩
  rintro ⟨early, a, j, late, hl, _, _⟩
  have hm : .forget a ∈ [Move.use 0 (.statFd 3)] := hl ▸ List.mem_append_right _ List.mem_cons_self
  cases hm
  contradiction

end Crowd

end FileBroker
