import Mathlib
import FileBroker.Proofs.Guard
import FileBroker.Proofs.Proxy.Lifecycle

namespace FileBroker

variable {ω δ σ : Type} {peer : Peer ω δ}

namespace Dispatcher

-- Something that happens to a loop while nobody hands it anything, such as the loss of its helper.
structure Upset (ω δ : Type) where
  change : Dispatcher ω δ → Dispatcher ω δ
  stops  : ∀ d, (change d).stops = d.stops

theorem publish_stops (u : Uptake) (p : Publication δ) (d : Dispatcher ω δ) :
    (d.publish u p).2.stops = d.stops := by
  cases u
  all_goals rfl

theorem serve_stops (peer : Peer ω δ) (u : Uptake) (d : Dispatcher ω δ) (id : Nat) (e : Encoded δ) :
    (d.serve peer u id e).2.stops = d.stops := by
  unfold serve
  rcases d.link.exchange peer e with ⟨answer, link⟩
  dsimp only
  split
  case h_1 => exact publish_stops ..
  case h_2 => split <;> rfl
  case h_3 => exact publish_stops ..

-- Every stop that is handed in counts, whether or not the loop is still there to take it.
theorem take_stops (peer : Peer ω δ) (d : Dispatcher ω δ) (i : Item δ) (u : Uptake) :
    (d.take peer i u).2.stops = d.stops + i.isStop.toNat := by
  unfold take
  dsimp only
  split
  case isTrue  => rfl
  case isFalse =>
    cases i
    case request id e => exact serve_stops peer u d id e
    case stop         => rfl
    case hangUp       => rfl

end Dispatcher

namespace Proxy

variable {p q m : Proxy ω δ}

-- The teardown of a proxy, from wherever it is started.
def tearDown (peer : Peer ω δ) (p : Proxy ω δ) : Proxy ω δ :=
  let (_, teardown, dispatcher, shutdowns) :=
    p.teardown.run (shutDown peer) (p.dispatcher, p.shutdowns)
  { p with teardown, dispatcher, shutdowns }

theorem close_eq (peer : Peer ω δ) (p : Proxy ω δ) :
    p.close peer = if p.closed then p else tearDown peer { p with closed := true } :=
  rfl

theorem tearDown_done (h : p.teardown.done = true) : p.tearDown peer = p := by
  simp [tearDown, Guard.run, h]

theorem tearDown_pending (h : p.teardown.done = false) :
    p.tearDown peer =
      { p with
        teardown   := { p.teardown with done := true }
        dispatcher := (p.dispatcher.take peer .stop).2
        shutdowns  := p.shutdowns + 1 } := by
  simp [tearDown, Guard.run, h, shutDown]

-- A proxy that goes away closes, and then its guard goes away.
theorem drop_eq (peer : Peer ω δ) (p : Proxy ω δ) : p.drop peer = (p.close peer).tearDown peer := by
  unfold drop Guard.drop
  cases h : (p.close peer).teardown.done
  case false => simp [tearDown_pending h, Guard.run, h, shutDown]
  case true  =>
    rw [tearDown_done h]
    simp only [Guard.run, h, if_true]
    rw [←h]

-- What can happen to a proxy.
inductive Event (ω δ : Type)
  | call {α : Type} (c : Call δ α)
  | close
  | upset (u : Dispatcher.Upset ω δ)

def Event.on (peer : Peer ω δ) (p : Proxy ω δ) : Event ω δ → Proxy ω δ
  | call c  => (p.run peer c).2
  | close   => p.close peer
  | upset u => { p with dispatcher := u.change p.dispatcher }

def live (peer : Peer ω δ) (p : Proxy ω δ) (events : List (Event ω δ)) : Proxy ω δ :=
  events.foldl (Event.on peer) p

-- As far as its end is concerned, the proxy is the same, and its loop has not been sent a stop.
structure Stays (p q : Proxy ω δ) : Prop where
  closed    : q.closed = p.closed
  teardown  : q.teardown = p.teardown
  shutdowns : q.shutdowns = p.shutdowns
  stops     : q.dispatcher.stops = p.dispatcher.stops

-- An open proxy stays as it is, and is closed, before it is torn down.
structure Shuts (peer : Peer ω δ) (p m q : Proxy ω δ) : Prop where
  was_open : p.closed = false
  stays    : Stays p m
  result   : q = tearDown peer { m with closed := true }

inductive Goes (peer : Peer ω δ) (p q : Proxy ω δ) : Prop
  | stays : Stays p q → Goes peer p q
  | shuts {m : Proxy ω δ} : Shuts peer p m q → Goes peer p q

theorem Stays.refl (p : Proxy ω δ) : Stays p p :=
  ⟨rfl, rfl, rfl, rfl⟩

theorem Stays.close (h : Stays p q) : Goes peer p (q.close peer) := by
  rw [close_eq]
  split
  case isTrue     => exact .stays h
  case isFalse hc =>
    have hc : q.closed = false := Bool.not_eq_true _ ▸ hc
    exact .shuts ⟨h.closed ▸ hc, h, rfl⟩

theorem exchange_snd (peer : Peer ω δ) (p : Proxy ω δ) (e : Encoded δ) :
    (p.exchange peer e).2 =
      { p with
        dispatcher := (p.dispatcher.take peer (.request p.nextId e)).2
        nextId     := p.nextId + 1 } := by
  unfold exchange
  rcases p.dispatcher.take peer (.request p.nextId e) with ⟨_ | _, _⟩ <;> rfl

theorem exchange_stays {attempts : Call.Duplications} {r : Except Breakage (Answer δ)}
    (h : { p with attempts }.exchange peer e = (r, q)) : Stays p q := by
  have hq := exchange_snd peer { p with attempts } e
  rw [h] at hq
  subst hq
  exact ⟨rfl, rfl, rfl, Dispatcher.take_stops ..⟩

theorem Stays.settle (h : Stays p q) (r : Except ProxyError α) : Goes peer p (q.settle peer r).2 := by
  cases r
  case ok      => exact .stays h
  case error e =>
    change Goes peer p (if e.isBroken then q.close peer else q)
    split
    case isTrue  => exact h.close
    case isFalse => exact .stays h

theorem run_goes (peer : Peer ω δ) (p : Proxy ω δ) (c : Call δ α) : Goes peer p (p.run peer c).2 := by
  have hq := p.run_ran peer c
  generalize (p.run peer c).1 = r, (p.run peer c).2 = q at hq
  cases hq
  case unprepared  => exact .stays ⟨rfl, rfl, rfl, rfl⟩
  case refused     => exact .stays ⟨rfl, rfl, rfl, rfl⟩
  case unencodable => exact .stays ⟨rfl, rfl, rfl, rfl⟩
  case lost hx     => exact (exchange_stays hx).close
  case answered hx => exact (exchange_stays hx).settle _

theorem Event.goes (peer : Peer ω δ) (p : Proxy ω δ) (event : Event ω δ) :
    Goes peer p (event.on peer p) := by
  cases event
  case call c  => exact run_goes peer p c
  case close   => exact (Stays.refl p).close
  case upset u => exact .stays ⟨rfl, rfl, rfl, u.stops p.dispatcher⟩

-- A proxy that has been closed has been shut down once, and no other proxy has been. Its loop has been sent
-- a stop each time.
structure Once (p : Proxy ω δ) : Prop where
  done      : p.teardown.done = p.closed
  shutdowns : p.shutdowns = p.closed.toNat
  stops     : p.dispatcher.stops = p.shutdowns

theorem Once.stays (hp : Once p) (h : Stays p q) : Once q where
  done      := by rw [h.teardown, h.closed, hp.done]
  shutdowns := by rw [h.shutdowns, h.closed, hp.shutdowns]
  stops     := by rw [h.stops, h.shutdowns, hp.stops]

theorem Once.shuts (hp : Once p) (h : Shuts peer p m q) : Once q := by
  have hm := hp.stays h.stays
  have ho : m.closed = false := h.stays.closed.trans h.was_open
  have hd : { m with closed := true }.teardown.done = false := hm.done.trans ho
  rw [h.result, tearDown_pending hd]
  exact {
    done      := rfl
    shutdowns := by simp [hm.shutdowns, ho]
    stops     := by rw [Dispatcher.take_stops, hm.stops]; rfl }

theorem Once.goes (hp : Once p) (h : Goes peer p q) : Once q := by
  cases h
  case stays h => exact hp.stays h
  case shuts h => exact hp.shuts h

theorem Once.live (hp : Once p) (events : List (Event ω δ)) : Once (p.live peer events) := by
  induction events generalizing p
  case nil                  => exact hp
  case cons event events hi => exact hi (hp.goes (event.goes peer p))

theorem Once.close (hp : Once p) : Once (p.close peer) :=
  hp.goes (Stays.refl p).close

theorem close_closed (peer : Peer ω δ) (p : Proxy ω δ) : (p.close peer).closed = true := by
  rw [close_eq]
  split
  case isTrue h => exact h
  case isFalse  => rfl

-- The guard of a closed proxy has nothing left to do.
theorem Once.drop_eq (hp : Once p) : p.drop peer = p.close peer := by
  rw [Proxy.drop_eq]
  exact tearDown_done <| hp.close.done.trans (close_closed peer p)

end Proxy

open Proxy Guard in
-- For a proxy, whatever becomes of its calls and of its loop, and for any guard, whatever its action does
-- and however it ends. The owner of the guard never sees a panic.
theorem teardown_runs_exactly_once (peer : Peer ω δ) (link : Link ω δ) (broken finished : Bool)
    (helperPid : Option UInt32) (cwd : δ) (attempts : Call.Duplications) (events : List (Event ω δ))
    (action : σ → Ending × σ) (label : String) (acts : List Step) (s : σ) :
    (let p : Proxy ω δ := { dispatcher := { link, broken, finished }, helperPid, cwd, attempts }
    let q := p.live peer events
    let r := q.drop peer
    q.shutdowns = q.closed.toNat ∧ (∀ event : Event ω δ, Goes peer q (event.on peer q)) ∧ Goes peer q r ∧
      r.shutdowns = 1 ∧ r.isClosed = true ∧ r.dispatcher.stops = 1) ∧
    (let seen := acts.mapIdx fun i act => act.shows label (.run ∈ acts.take i)
    let (seen', g, s') := steps action acts { label } s
    seen' = seen ∧ g.done = decide (.run ∈ acts) ∧ s' = (if .run ∈ acts then (action s).2 else s) ∧
      g.drop action s' = (action s).2 ∧
      (Armed.life acts).on (arm action { label } s) =
        (.ok seen, { label, slot := none, world := (action s).2 })) := by
  refine ⟨?_, ?_⟩
  case refine_1 =>
    intro p q r
    have hp : Once p := ⟨rfl, rfl, rfl⟩
    have hq : Once q := hp.live events
    have hr : r = q.close peer := hq.drop_eq
    have hc : r.closed = true := hr ▸ close_closed peer q
    have ho : Once r := hr ▸ hq.close
    have hs : r.shutdowns = 1 := by rw [ho.shutdowns, hc]; rfl
    exact ⟨hq.shutdowns, Event.goes peer q, hr ▸ (Stays.refl q).close, hs, by simp [isClosed, hc],
      ho.stops.trans hs⟩
  case refine_2 =>
    have hd := drop_steps action acts label s
    have he := steps_eq action acts { label } s
    simp only [Bool.false_or, and_true] at he
    intro seen
    rw [he] at hd ⊢
    exact ⟨rfl, rfl, rfl, hd, arm_life action acts label s⟩

end FileBroker
