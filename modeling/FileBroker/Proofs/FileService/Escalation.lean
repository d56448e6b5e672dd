import Mathlib
import FileBroker.FileService.Basic
import FileBroker.Proofs.FileService.Agreement
import FileBroker.Proofs.Slot.Succession

namespace FileBroker

namespace FileService

-- Who is asked to carry out a call.
inductive Tier
  | plain | privileged
  deriving DecidableEq, Repr

-- A result that says that permission was missing.
inductive Denial {δ : Type} : {α : Type} → FileCall δ α → Except ProxyError α → Prop
  | errno {α : Type} {c : FileCall δ α} {code text} :
    code = Errno.acces ∨ code = Errno.perm → Denial c (.error (.errno code text))
  | io {α : Type} {c : FileCall δ α} {code} :
    code = Errno.acces ∨ code = Errno.perm → Denial c (.error (.io (.os code)))
  | withheld {path mode} : Denial (.access path mode) (.ok false)

-- One operation: what it was, what the plain service gave, and what the privileged one gave if it was
-- asked.
structure Escalation (δ α : Type) where
  call : FileCall δ α
  own  : Except ProxyError α
  lent : Option (Except ProxyError α)

-- The last word.
def Escalation.answer (x : Escalation δ α) : Except ProxyError α :=
  x.lent.getD x.own

variable {σ δ ε : Type}

abbrev Note (δ ε : Type) :=
  Tier → {α : Type} → FileCall δ α → Except ProxyError α → ε

-- Who was asked for what, in this order, and what came of it.
def Escalation.notes (note : Note δ ε) (x : Escalation δ α) : List ε :=
  note .plain x.call x.own :: (x.lent.map (note .privileged x.call)).toList

-- A service that takes a note of every call, and does not behave any differently for it.
def noting (note : Note δ ε) (tier : Tier) (f : FileService σ δ) : FileService (σ × List ε) δ where
  call c s :=
    let (r, t) := f.call c s.1
    (r, t, s.2 ++ [note tier c r])

variable {plain privileged : FileService σ δ} {s t u : σ}

section

variable {α : Type} {c : FileCall δ α} {own lent : Except ProxyError α}

theorem isDenied_error (c : FileCall δ α) (e : ProxyError) :
    isDenied c (.error e) = true ↔ e.code? = some Errno.acces ∨ e.code? = some Errno.perm := by
  have hd : isDenied c (.error e) = e.isPermissionDenied := by
    cases c <;> rfl
  rw [hd, ProxyError.isPermissionDenied, Bool.or_eq_true, decide_eq_true_iff, decide_eq_true_iff]

theorem isDenied_iff : isDenied c own = true ↔ Denial c own := by
  match own with
  | .ok a =>
    refine ⟨fun h => ?_, fun h => by cases h; rfl⟩
    cases c
    case access =>
      cases a
      case false => exact .withheld
      case true  => cases h
    all_goals cases h
  | .error e =>
    rw [isDenied_error]
    constructor
    case mpr =>
      intro h
      cases h <;> simpa [ProxyError.code?, IoError.code?]
    case mp =>
      intro h
      cases e
      case errno code _ => exact .errno <| by simpa [ProxyError.code?] using h
      case io error =>
        cases error
        case os code => exact .io <| by simpa [ProxyError.code?, IoError.code?] using h
        all_goals simp [ProxyError.code?, IoError.code?] at h
      all_goals simp [ProxyError.code?] at h

theorem escalating_of_denied (hp : plain.call c s = (own, t)) (hd : Denial c own) :
    (escalating plain privileged).call c s = privileged.call c t := by
  simp only [escalating, hp, isDenied_iff.mpr hd, if_true]

theorem escalating_of_not_denied (hp : plain.call c s = (own, t)) (hd : ¬Denial c own) :
    (escalating plain privileged).call c s = (own, t) := by
  simp only [escalating, hp, if_neg (mt isDenied_iff.mp hd)]

theorem noting_call {f : FileService σ δ} (hf : f.call c s = (own, t)) (note : Note δ ε) (tier : Tier)
    (log : List ε) : (noting note tier f).call c (s, log) = (own, t, log ++ [note tier c own]) := by
  simp only [noting, hf]

end

-- A run of operations. `Course plain privileged s turns t` says who is asked for what on the way from
-- `s` to `t`.
inductive Course (plain privileged : FileService σ δ) : σ → List ((α : Type) × Escalation δ α) → σ → Prop
  | nil {s : σ} : Course plain privileged s [] s
  | allowed {α : Type} {c : FileCall δ α} {own turns} {s t u : σ} :
    plain.call c s = (own, t) → ¬Denial c own → Course plain privileged t turns u →
    Course plain privileged s (⟨α, c, own, none⟩ :: turns) u
  | denied {α : Type} {c : FileCall δ α} {own lent turns} {s t u v : σ} :
    plain.call c s = (own, t) → Denial c own → privileged.call c t = (lent, u) →
    Course plain privileged u turns v →
    Course plain privileged s (⟨α, c, own, some lent⟩ :: turns) v

abbrev Calls (δ : Type) := List ((α : Type) × FileCall δ α)

abbrev Turns (δ : Type) := List ((α : Type) × Escalation δ α)

theorem exists_course (plain privileged : FileService σ δ) (calls : Calls δ) (s : σ) :
    ∃ (turns : Turns δ) (t : σ), calls = turns.map (fun x => ⟨x.1, x.2.call⟩) ∧
      Course plain privileged s turns t := by
  induction calls generalizing s
  case nil => exact ⟨[], s, rfl, .nil⟩
  case cons c calls hi =>
    match hp : plain.call c.2 s with
    | (own, t) =>
      by_cases hd : Denial c.2 own
      case neg =>
        have ⟨turns, u, hcalls, h⟩ := hi t
        exact ⟨⟨c.1, c.2, own, none⟩ :: turns, u, congrArg (c :: ·) hcalls, .allowed hp hd h⟩
      case pos =>
        have ⟨turns, u, hcalls, h⟩ := hi (privileged.call c.2 t).2
        exact ⟨⟨c.1, c.2, own, some (privileged.call c.2 t).1⟩ :: turns, u,
          congrArg (c :: ·) hcalls, .denied hp hd rfl h⟩

namespace Course

variable {turns : Turns δ}

theorem lent_iff (h : Course plain privileged s turns t) :
    ∀ x ∈ turns, x.2.lent.isSome = true ↔ Denial x.2.call x.2.own := by
  induction h
  case nil              => simp
  case allowed hd _ hi  => exact List.forall_mem_cons.mpr ⟨by simp [hd], hi⟩
  case denied hd _ _ hi => exact List.forall_mem_cons.mpr ⟨by simp [hd], hi⟩

-- The operations follow this course, with or without notes.
theorem callAll_eq (h : Course plain privileged s turns t) :
    callAll (escalating plain privileged) (turns.map fun x => ⟨x.1, x.2.call⟩) s =
      (turns.map fun x => ⟨x.1, x.2.answer⟩, t) := by
  induction h
  case nil => rfl
  case allowed hp hd _ hi =>
    simp only [List.map_cons, callAll, escalating_of_not_denied hp hd, hi]
    rfl
  case denied hp hd hl _ hi =>
    simp only [List.map_cons, callAll, escalating_of_denied hp hd, hl, hi]
    rfl

theorem noted (h : Course plain privileged s turns t) (note : Note δ ε) (log : List ε) :
    callAll (escalating (noting note .plain plain) (noting note .privileged privileged))
        (turns.map fun x => ⟨x.1, x.2.call⟩) (s, log) =
      (turns.map fun x => ⟨x.1, x.2.answer⟩, t, log ++ turns.flatMap (·.2.notes note)) := by
  induction h generalizing log
  case nil => simp [callAll]
  case allowed hp hd _ hi =>
    simp only [List.map_cons, callAll, escalating_of_not_denied (noting_call hp ..) hd, hi]
    simp [Escalation.answer, Escalation.notes]
  case denied hp hd hl _ hi =>
    simp only [List.map_cons, callAll, escalating_of_denied (noting_call hp ..) hd,
      noting_call hl, hi]
    simp [Escalation.answer, Escalation.notes]

-- What only the privileged service counts up, and by no more than one, is bounded by the denials.
theorem count_le (h : Course plain privileged s turns t) (count : σ → Nat)
    (hplain : ∀ {α : Type} (c : FileCall δ α) (s : σ), count (plain.call c s).2 = count s)
    (hprivileged : ∀ {α : Type} (c : FileCall δ α) (s : σ),
      count (privileged.call c s).2 ≤ count s + 1) :
    count t ≤ count s + turns.countP (·.2.lent.isSome) := by
  induction h
  case nil => exact Nat.le_refl _
  case allowed c _ _ s t _ hp _ _ hi =>
    have hc : count t = count s := by simpa only [hp] using hplain c s
    simpa [hc] using hi
  case denied c _ _ _ s t u _ hp _ hl _ hi =>
    have hc : count t = count s := by simpa only [hp] using hplain c s
    have hc' : count u ≤ count t + 1 := by simpa only [hl] using hprivileged c t
    simp only [List.countP_cons, Option.isSome_some, if_true]
    omega

end Course

end FileService

namespace Slot

variable {τ ω δ : Type}

theorem run_asked_le (k : Connector τ ω δ) (s : Slot (τ × Nat) ω δ) (c : Call δ α) :
    (s.run k.counted c).2.asked ≤ s.asked + 1 := by
  have hg : (s.get k.counted).2.asked ≤ s.asked + 1 := by
    match hl : s.live? with
    | some i => exact asked_live hl ▸ Nat.le_succ _
    | none   => exact Nat.le_of_eq (asked_none hl)
  match h : s.get k.counted with
  | (.error e, t) =>
    rw [run_unserved h]
    rwa [h] at hg
  | (.ok i, t) =>
    rw [run_served h, asked, conclude_source, runOn_source]
    rwa [h] at hg

end Slot

namespace FileService

variable {σ δ : Type}

-- Any two services, which may share any state, and any calls. The notes tell who is asked, in which
-- order, for what, and with which result. If the privileged service is a slot somewhere in that state
-- and the plain one does not ask its connector, denials bound how often it is asked.
theorem privilege_follows_denial (plain privileged : FileService σ δ) (calls : Calls δ) (s : σ) :
    ∃ (turns : Turns δ) (t : σ),
      calls = turns.map (fun x => ⟨x.1, x.2.call⟩) ∧
      (∀ x ∈ turns, x.2.lent.isSome = true ↔ Denial x.2.call x.2.own) ∧
      callAll (escalating plain privileged) calls s = (turns.map fun x => ⟨x.1, x.2.answer⟩, t) ∧
      (∀ (ε : Type) (note : Note δ ε),
        callAll (escalating (noting note .plain plain) (noting note .privileged privileged)) calls
            (s, []) =
          (turns.map fun x => ⟨x.1, x.2.answer⟩, t, turns.flatMap (·.2.notes note))) ∧
      ∀ (τ ω : Type) (k : Connector τ ω δ) (slot : σ → Slot (τ × Nat) ω δ)
        (put : σ → Slot (τ × Nat) ω δ → σ),
        privileged = (Slot.service k.counted).on slot put →
        (∀ s x, (slot (put s x)).asked = x.asked) →
        (∀ {α : Type} (c : FileCall δ α) (s : σ), (slot (plain.call c s).2).asked = (slot s).asked) →
        (slot s).asked = 0 →
          (slot t).asked ≤ turns.countP (·.2.lent.isSome) ∧
          ((∀ x ∈ turns, ¬Denial x.2.call x.2.own) → (slot t).asked = 0) := by
  have ⟨turns, t, hcalls, h⟩ := exists_course plain privileged calls s
  refine ⟨turns, t, hcalls, h.lent_iff, ?eq, fun ε note => ?noted, ?asked⟩
  case eq    => exact hcalls ▸ h.callAll_eq
  case noted => exact hcalls ▸ h.noted note []
  case asked =>
    intro τ ω k slot put hslot hput hplain hs
    have hprivileged {α : Type} (c : FileCall δ α) (s : σ) :
        (slot (privileged.call c s).2).asked ≤ (slot s).asked + 1 := by
      rw [hslot]
      exact (hput ..).trans_le <| Slot.run_asked_le k (slot s) c.call
    have hle := h.count_le (fun s => (slot s).asked) hplain hprivileged
    simp only [hs, Nat.zero_add] at hle
    refine ⟨hle, fun hn => Nat.le_zero.mp <| hle.trans_eq <| List.countP_eq_zero.mpr fun x hx => ?_⟩
    exact mt (h.lent_iff x hx).mp (hn x hx)

-- A plain service that denies the first call and finds nothing for the second one.
def fickle : FileService (Nat × Slot (List Bool × Nat) Unit Nat) Nat where
  call _ s :=
    match s with
    | (0, slot)     => (.error (.ofErrno Errno.noent), 0, slot)
    | (n + 1, slot) => (.error (.ofErrno Errno.acces), n, slot)

-- The connector is asked once.
theorem one_denial_of_two :
    let k := Crowd.unsteady.counted
    let s : Nat × Slot (List Bool × Nat) Unit Nat := (1, { source := ([false, false], 0) })
    let both := escalating fickle ((Slot.service k).on Prod.snd fun s x => (s.1, x))
    let calls : Calls Nat := [⟨_, .statFd 3⟩, ⟨_, .statFd 3⟩]
    ∃ turns : Turns Nat, turns.length = 2 ∧
      (callAll both calls s).2.2.asked ≤ turns.countP (·.2.lent.isSome) ∧
      (callAll both calls s).2.2.asked = 1 := by
  intro k s both calls
  have ⟨turns, t, hcalls, _, ht, _, hasked⟩ := privilege_follows_denial fickle
    ((Slot.service k).on Prod.snd fun s x => (s.1, x)) calls s
  have hplain {α : Type} (c : FileCall Nat α) (s : Nat × Slot (List Bool × Nat) Unit Nat) :
      (fickle.call c s).2.2.asked = s.2.asked := by
    match s with
    | (0, _)     => rfl
    | (_ + 1, _) => rfl
  have ⟨hle, _⟩ := hasked _ _ Crowd.unsteady Prod.snd (fun s x => (s.1, x)) rfl (fun _ _ => rfl) hplain rfl
  refine ⟨turns, by simpa [calls] using (congrArg List.length hcalls).symm, ?_, rfl⟩
  rw [show (callAll both calls s).2 = t from congrArg Prod.snd ht]
  exact hle

end FileService

end FileBroker
