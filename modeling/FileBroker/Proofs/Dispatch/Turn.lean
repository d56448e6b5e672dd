import Mathlib
import FileBroker.Dispatch
import FileBroker.Proofs.Dispatch.Exchange

namespace FileBroker

open Channel

variable {ω δ : Type}

-- A peer that takes note of all that it is shown.
def Peer.recorded (peer : Peer ω δ) : Peer (ω × List (Cell δ)) δ where
  react sent w :=
    let (reaction, far) := peer.react sent w.1
    (reaction, far, w.2 ++ sent.flatMap (·.cells))

namespace Link

variable {l : Link ω δ} {log : List (Cell δ)}

def recorded (l : Link ω δ) (log : List (Cell δ)) : Link (ω × List (Cell δ)) δ where
  channel := l.channel
  far     := (l.far, log)

-- What the peer is shown of a request.
def shown (l : Link ω δ) (e : Encoded δ) : List (Cell δ) :=
  (l.channel.taken e.segments).flatMap (·.cells)

theorem shown_all (h : l.channel.taken e.segments = e.segments) : l.shown e = e.cells := by
  rw [shown, h, Encoded.segments_cells]

-- Only a link that is found broken has not shown the peer all of a request.
theorem Exchanged.shown_eq {peer : Peer ω δ} {l' : Link ω δ} {r : Except IoError (Answer δ)}
    (h : l.Exchanged peer e r l') (hr : r ≠ .error .brokenPipe) : l.shown e = e.cells := by
  cases h
  case answered ht _ _ _ => exact shown_all ht
  case unanswered ht _   => exact shown_all ht
  case unsent            => exact absurd rfl hr

theorem shown_prefix (l : Link ω δ) (e : Encoded δ) : l.shown e <+: e.cells := by
  rw [shown, ←e.segments_cells]
  exact (l.channel.taken_prefix e.segments).flatMap _

theorem told_recorded (peer : Peer ω δ) (l : Link ω δ) (segments : List (Segment δ)) :
    (l.recorded log).told peer.recorded segments =
      (l.told peer segments).recorded (log ++ (l.channel.taken segments).flatMap (·.cells)) := by
  have hl : (l.recorded log).channel = l.channel := rfl
  unfold told
  rw [hl]
  dsimp only
  split
  case isTrue h  => simp [List.isEmpty_iff.mp h]
  case isFalse h => rfl

theorem Settled.recorded (h : l.Settled) : (l.recorded log).Settled where
  wf   := h.wf
  sent := h.sent

theorem Settled.exchange_recorded (h : l.Settled) (peer : Peer ω δ) (e : Encoded δ) :
    (l.recorded log).exchange peer.recorded e =
      ((l.exchange peer e).1, (l.exchange peer e).2.recorded (log ++ l.shown e)) := by
  have hl : (l.recorded log).channel = l.channel := rfl
  rw [exchange_eq, exchange_eq, h.recorded.asked_eq, h.asked_eq, told_recorded, hl]
  cases (l.channel.transmit e).1
  case error => rfl
  case ok    => rfl

end Link

-- What goes out for an item. Only a request does.
def Item.cells : Item δ → List (Cell δ)
  | .request _ e => e.cells
  | _            => []

namespace Dispatcher

variable {d : Dispatcher ω δ} {log : List (Cell δ)}

def recorded (d : Dispatcher ω δ) (log : List (Cell δ)) : Dispatcher (ω × List (Cell δ)) δ where
  link     := d.link.recorded log
  broken   := d.broken
  finished := d.finished
  stops    := d.stops

-- What the helper is shown of an item.
def shown (d : Dispatcher ω δ) : Item δ → List (Cell δ)
  | .request _ e => d.link.shown e
  | _            => []

-- The loop runs, and the helper has been shown all that was sent.
structure Running (d : Dispatcher ω δ) : Prop where
  link     : d.link.Settled
  broken   : d.broken = false
  finished : d.finished = false

-- A loop that has come to its end. It holds no channel any more, and that is marked.
def ended (far : ω) (stops : Nat) : Dispatcher ω δ where
  link     := { channel := .dropped, far }
  broken   := true
  finished := true
  stops

-- What is published for an item, and how that leaves the loop, when there is this to become of a reply. It
-- goes on after any reply, unless nobody is left to collect it, and ends with the first transfer that fails.
inductive Turned (peer : Peer ω δ) (u : Uptake) (d : Dispatcher ω δ) :
    Item δ → Option (Publication δ) → Dispatcher ω δ → Prop
  | answered {id : Nat} {link : Link ω δ} : u ≠ .gone → d.link.Exchanged peer e (.ok a) link →
    Turned peer u d (.request id e)
      (if u = .taken then some { id, result := .ok a, broken := false } else none) { d with link }
  | unwanted {id : Nat} {link : Link ω δ} : u = .gone → d.link.Exchanged peer e (.ok a) link →
    Turned peer u d (.request id e) none (ended link.far d.stops)
  | lost {id : Nat} {link : Link ω δ} : cause ≠ .wouldBlock → d.link.Exchanged peer e (.error cause) link →
    Turned peer u d (.request id e)
      (if u = .taken then some { id, result := .error (.disconnected cause), broken := true } else none)
      (ended link.far d.stops)
  | waiting {id : Nat} {link : Link ω δ} : d.link.Exchanged peer e (.error .wouldBlock) link →
    Turned peer u d (.request id e) none { d with link }
  | stopped : d.drain.link.channel.unread = [] → d.drain.link.channel.outgoing = d.link.channel.outgoing →
    Turned peer u d .stop none (ended d.link.far (d.stops + 1))
  | abandoned : Turned peer u d .hangUp none (ended d.link.far d.stops)

variable {peer : Peer ω δ} {u : Uptake} {item : Item δ} {published : Option (Publication δ)}
  {d' : Dispatcher ω δ}

-- All of a request is shown to the helper, unless it is the one that the loop loses its helper over.
theorem Turned.shown_eq (h : d.Turned peer .taken item published d')
    (hp : ∀ p ∈ published, ∃ a, p.result = .ok a) : d.shown item = item.cells := by
  cases h
  case answered hx         => exact hx.shown_eq nofun
  case waiting hx          => exact hx.shown_eq fun h => absurd (Except.error.inj h) (by decide)
  case unwanted hu _       => cases hu
  case stopped | abandoned => rfl
  case lost =>
    obtain ⟨_, h⟩ := hp _ rfl
    cases h

theorem shown_prefix (d : Dispatcher ω δ) (item : Item δ) : d.shown item <+: item.cells := by
  cases item
  case request id e  => exact d.link.shown_prefix e
  case stop | hangUp => exact List.prefix_refl _

theorem publish_recorded (u : Uptake) (p : Publication δ) :
    (d.recorded log).publish u p = ((d.publish u p).1, (d.publish u p).2.recorded log) := by
  cases u
  all_goals rfl

theorem Running.serve_recorded (h : d.Running) (peer : Peer ω δ) (u : Uptake) (id : Nat) (e : Encoded δ) :
    (d.recorded log).serve peer.recorded u id e =
      ((d.serve peer u id e).1, (d.serve peer u id e).2.recorded (log ++ d.link.shown e)) := by
  have hl : (d.recorded log).link = d.link.recorded log := rfl
  unfold serve
  rw [hl, h.link.exchange_recorded]
  match d.link.exchange peer e with
  | (.ok a, l) => exact publish_recorded (d := { d with link := l }) u _
  | (.error (.overflow ..), l) | (.error (.malformed _), l) =>
    exact publish_recorded (d := { d with link := l }) u _
  | (.error (.io cause), l) =>
    dsimp only
    split
    · rfl
    · rfl

theorem Running.take_recorded (h : d.Running) (peer : Peer ω δ) (item : Item δ) (u : Uptake) :
    (d.recorded log).take peer.recorded item u =
      ((d.take peer item u).1, (d.take peer item u).2.recorded (log ++ d.shown item)) := by
  have hf : (d.recorded log).finished = false := h.finished
  cases item
  case request id e => rw [take_request hf, take_request h.finished, h.serve_recorded]; rfl
  all_goals
    unfold take
    rw [if_neg (by simp [hf]), if_neg (by simp [h.finished])]
    simp only [shown, List.append_nil]
    rfl

-- One step of the loop.
theorem Running.take_turned (h : d.Running) (peer : Peer ω δ) (item : Item δ) (u : Uptake) :
    d.Turned peer u item (d.take peer item u).1 (d.take peer item u).2 ∧
      ((d.take peer item u).2.finished = false → (d.take peer item u).2.Running) := by
  cases item
  case stop =>
    have ⟨hu, ho⟩ := drain_discards h.link.wf
    unfold take
    rw [if_neg (by simp [h.finished])]
    exact ⟨.stopped hu ho, nofun⟩
  case hangUp =>
    unfold take
    rw [if_neg (by simp [h.finished])]
    exact ⟨.abandoned, nofun⟩
  case request id e =>
    have ⟨r, l, hx, he, hl⟩ := h.link.exchanged peer e
    have hr : Running { d with link := l } := ⟨hl, h.broken, h.finished⟩
    rw [take_request h.finished]
    unfold serve
    rw [hx]
    obtain cause | a := r
    case ok =>
      have ha (hu : u ≠ .gone) : Turned peer u d (.request id e) _ _ := .answered hu he
      rw [←h.broken] at ha
      cases u
      case taken | missed => exact ⟨ha (by decide), fun _ => hr⟩
      case gone           => exact ⟨.unwanted rfl he, nofun⟩
    case error =>
      by_cases hc : cause = .wouldBlock
      case pos =>
        subst hc
        exact ⟨.waiting he, fun _ => hr⟩
      case neg =>
        dsimp only [Except.mapError]
        rw [if_neg hc]
        refine ⟨?_, nofun⟩
        cases u
        all_goals exact .lost hc he

end Dispatcher

end FileBroker
