import Mathlib
import FileBroker.Guard

namespace FileBroker.Guard

variable {σ : Type} {action : σ → Ending × σ}

-- What an owner can do with a guard.
inductive Step
  | run | isDone | debug
  deriving DecidableEq, Repr

inductive Seen
  | ran (now : Bool)
  | done (yet : Bool)
  | text (debug : String)
  deriving DecidableEq, Repr

-- What a step shows of a guard that has run its action or not.
def Step.shows (label : String) (done : Bool) : Step → Seen
  | run    => .ran !done
  | isDone => .done done
  | debug  => .text { label, done : Guard }.text

def step (action : σ → Ending × σ) (g : Guard) (s : σ) : Step → Seen × Guard × σ
  | .run    =>
    let (now, g, s) := g.run action s
    (.ran now, g, s)
  | .isDone => (.done g.done, g, s)
  | .debug  => (.text g.text, g, s)

def steps (action : σ → Ending × σ) : List Step → Guard → σ → List Seen × Guard × σ
  | [],         g, s => ([], g, s)
  | act :: acts, g, s =>
    let (seen, g, s) := g.step action s act
    let (more, g, s) := steps action acts g s
    (seen :: more, g, s)

-- The action runs in the first step that is to run it.
theorem step_eq (action : σ → Ending × σ) (g : Guard) (s : σ) (act : Step) :
    g.step action s act =
      (act.shows g.label g.done, { g with done := g.done || act = .run },
        if act = .run ∧ g.done = false then (action s).2 else s) := by
  obtain ⟨label, done⟩ := g
  cases done <;> cases act <;> rfl

theorem steps_eq (action : σ → Ending × σ) (acts : List Step) (g : Guard) (s : σ) :
    steps action acts g s =
      (acts.mapIdx fun i act => act.shows g.label (g.done || .run ∈ acts.take i),
        { g with done := g.done || .run ∈ acts },
        if .run ∈ acts ∧ g.done = false then (action s).2 else s) := by
  induction acts generalizing g s
  case nil => simp [steps]
  case cons act acts hi =>
    obtain ⟨label, done⟩ := g
    cases done <;> cases act <;> simp [steps, step_eq, hi, List.mapIdx_cons]

-- After its owner has gone, too.
theorem drop_steps (action : σ → Ending × σ) (acts : List Step) (label : String) (s : σ) :
    let (_, g, s') := steps action acts { label } s
    g.drop action s' = (action s).2 := by
  simp only [steps_eq, drop, run, Bool.false_or]
  by_cases h : .run ∈ acts <;> simp [h]

structure Panic

-- A computation that ends at a panic, unless it catches it.
abbrev Unwinding (σ : Type) := ExceptT Panic (StateM σ)

namespace Unwinding

def on (m : Unwinding σ α) (s : σ) : Except Panic α × σ :=
  m s

theorem bind_on (m : Unwinding σ α) (f : α → Unwinding σ β) (s : σ) :
    (m >>= f).on s =
      match m.on s with
      | (.ok a, s)        => (f a).on s
      | (.error panic, s) => (.error panic, s) := by
  change (ExceptT.bindCont f (m s).1) (m s).2 = _
  unfold on
  split
  case h_1 h => rw [h]; rfl
  case h_2 h => rw [h]; rfl

theorem tryCatch_on (m : Unwinding σ α) (handle : Panic → Unwinding σ α) (s : σ) :
    (tryCatch m handle).on s =
      match m.on s with
      | (.ok a, s)        => (.ok a, s)
      | (.error panic, s) => (handle panic).on s := by
  simp only [on, tryCatch, tryCatchThe, MonadExceptOf.tryCatch, ExceptT.tryCatch, ExceptT.mk, bind,
    StateT.bind]
  rcases m s with ⟨_ | _, _⟩ <;> rfl

@[simp] theorem pure_on (a : α) (s : σ) : (pure a : Unwinding σ α).on s = (.ok a, s) :=
  rfl

end Unwinding

-- An action that lets its panics go.
def raise (action : σ → Ending × σ) : Unwinding σ Unit :=
  ExceptT.mk fun s =>
    match action s with
    | (.finished, s) => (.ok (), s)
    | (.panicked, s) => (.error ⟨⟩, s)

-- A guard that keeps its action until it takes it out to run it, and what the action works on.
structure Armed (σ : Type) where
  label : String
  slot  : Option (Unwinding σ Unit)
  world : σ

namespace Armed

def within (action : Unwinding σ Unit) : Unwinding (Armed σ) Unit :=
  ExceptT.mk fun a =>
    let (r, world) := action.on a.world
    (r, { a with world })

def caught (action : Unwinding σ Unit) : Unwinding (Armed σ) Bool := do
  tryCatch (within action) fun _ => return
  return true

def run : Unwinding (Armed σ) Bool := do
  let a ← get
  set { a with slot := none }
  match a.slot with
  | none        => return false
  | some action => caught action

def perform : Step → Unwinding (Armed σ) Seen
  | .run    => return .ran (← run)
  | .isDone => return .done (← get).slot.isNone
  | .debug  => do
    let a ← get
    return .text { label := a.label, done := a.slot.isNone : Guard }.text

-- The steps of an owner that goes away after them.
def life (acts : List Step) : Unwinding (Armed σ) (List Seen) := do
  let seen ← acts.mapM perform
  let _ ← run
  return seen

end Armed

def arm (action : σ → Ending × σ) (g : Guard) (s : σ) : Armed σ where
  label := g.label
  slot  := if g.done then none else some (raise action)
  world := s

-- However the action ends, the computation goes on.
theorem caught_on (action : σ → Ending × σ) (a : Armed σ) :
    (Armed.caught (raise action)).on a = (.ok true, { a with world := (action a.world).2 }) := by
  have hw : (Armed.within (raise action)).on a =
      match action a.world with
      | (.finished, world) => (.ok (), { a with world })
      | (.panicked, world) => (.error ⟨⟩, { a with world }) := by
    change (((raise action).on a.world).1, { a with world := ((raise action).on a.world).2 }) = _
    rw [raise, Unwinding.on, ExceptT.mk]
    rcases action a.world with ⟨_ | _, world⟩ <;> rfl
  rw [Armed.caught, Unwinding.bind_on, Unwinding.tryCatch_on, hw]
  rcases action a.world with ⟨_ | _, world⟩ <;> rfl

theorem arm_run (action : σ → Ending × σ) (g : Guard) (s : σ) :
    Armed.run.on (g.arm action s) =
      let (now, g, s) := g.run action s
      (.ok now, g.arm action s) := by
  obtain ⟨label, done⟩ := g
  cases done
  case true  => rfl
  case false => exact caught_on action { label, slot := none, world := s }

theorem arm_perform (action : σ → Ending × σ) (g : Guard) (s : σ) (act : Step) :
    (Armed.perform act).on (g.arm action s) =
      let (seen, g, s) := g.step action s act
      (.ok seen, g.arm action s) := by
  cases act
  case run    => rw [Armed.perform, Unwinding.bind_on, arm_run]; rfl
  case isDone => obtain ⟨_, _ | _⟩ := g <;> rfl
  case debug  => obtain ⟨_, _ | _⟩ := g <;> rfl

theorem arm_performAll (action : σ → Ending × σ) (acts : List Step) (g : Guard) (s : σ) :
    (acts.mapM Armed.perform).on (g.arm action s) =
      let (seen, g, s) := steps action acts g s
      (.ok seen, g.arm action s) := by
  induction acts generalizing g s
  case nil => rfl
  case cons act acts hi =>
    rw [List.mapM_cons, Unwinding.bind_on, arm_perform]
    dsimp only
    rw [Unwinding.bind_on, hi]
    rfl

theorem arm_life (action : σ → Ending × σ) (acts : List Step) (label : String) (s : σ) :
    (Armed.life acts).on (arm action { label } s) =
      (.ok (acts.mapIdx fun i act => act.shows label (.run ∈ acts.take i)),
        { label, slot := none, world := (action s).2 }) := by
  rw [Armed.life, Unwinding.bind_on, arm_performAll, steps_eq]
  dsimp only
  rw [Unwinding.bind_on, arm_run]
  simp only [run, Bool.false_or]
  by_cases h : .run ∈ acts <;> simp [h, arm]

example :
    let armed := arm (fun n => (.panicked, n + 1)) { label := "session" } 0
    (Armed.life [.isDone, .run, .run, .isDone]).on armed =
      (.ok [.done false, .ran true, .ran false, .done true], { armed with slot := none, world := 1 }) :=
  rfl

end FileBroker.Guard
