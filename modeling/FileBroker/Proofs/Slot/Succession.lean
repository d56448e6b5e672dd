import Mathlib
import FileBroker.Proofs.Slot.Interleaving

namespace FileBroker

variable {τ ω δ : Type}

-- A connector that counts how often it is asked.
def Connector.counted (k : Connector τ ω δ) : Connector (τ × Nat) ω δ where
  peer := k.peer
  connect source :=
    let (result, rest) := k.connect source.1
    (result, rest, source.2 + 1)

theorem Connector.Opens.counted {k : Connector τ ω δ} (hk : k.Opens) : k.counted.Opens := by
  intro source p _ h
  simp only [Connector.counted, Prod.mk.injEq] at h
  exact hk source.1 p (k.connect source.1).2 (Prod.ext h.left rfl)

-- Something that happens to a proxy when the slot is not looking. It opens no closed proxy.
structure Mishap (ω δ : Type) where
  change : Proxy ω δ → Proxy ω δ
  shut   : ∀ p, p.isClosed = true → (change p).isClosed = true

namespace Mishap

-- A holder closes it.
def close (peer : Peer ω δ) : Mishap ω δ where
  change := (·.close peer)
  shut p _ := Proxy.close_isClosed peer p

-- Its loop comes to an end.
def lose : Mishap ω δ where
  change p := { p with dispatcher := p.dispatcher.finish }
  shut _ _ := Bool.or_true _

-- A holder makes a call on it.
def use (peer : Peer ω δ) (c : FileCall δ α) : Mishap ω δ where
  change p := (p.run peer c.call).2
  shut p hp := by
    have ⟨⟨_, hq⟩, _⟩ := Proxy.run_closed peer hp c.call
    rw [hq]
    exact hp

end Mishap

namespace Slot

inductive Event (ω δ : Type)
  | get
  | current
  | invalidate
  | call {α : Type} (c : FileCall δ α)
  -- Something happens to a proxy that was handed out.
  | befall (i : Nat) (m : Mishap ω δ)

def befall (s : Slot τ ω δ) (i : Nat) (m : Mishap ω δ) : Slot τ ω δ :=
  { s with built := s.built.modify i m.change }

def step (k : Connector τ ω δ) (s : Slot τ ω δ) : Event ω δ → Slot τ ω δ
  | .get        => (s.get k).2
  -- All that it takes is a look at `live?`.
  | .current    => s
  | .invalidate => s.invalidate k.peer
  | .call c     => ((service k).call c s).2
  | .befall i m => s.befall i m

def runEvents (k : Connector τ ω δ) (s : Slot τ ω δ) (events : List (Event ω δ)) : Slot τ ω δ :=
  events.foldl (step k) s

-- How often the connector was asked.
def asked (s : Slot (τ × Nat) ω δ) : Nat :=
  s.source.2

variable {k : Connector τ ω δ} {peer : Peer ω δ} {s t : Slot τ ω δ} {i j : Nat}

theorem live?_eq_some_iff : s.live? = some i ↔ s.current = some i ∧ s.isOpen i = true :=
  Option.filter_eq_some_iff

theorem get_ok_live (hk : k.Opens) (h : s.get k = (.ok i, t)) : t.live? = some i := by
  match hl : s.live? with
  | some j =>
    cases (get_live hl k).symm.trans h
    exact hl
  | none =>
    obtain ⟨_, _, _, hg⟩ | ⟨p, source, hp, hg⟩ := get_none hl k <;> cases hg.symm.trans h
    exact live?_eq rfl (by simp [isOpen, hk _ _ _ hp])

theorem run_unserved (h : s.get k = (.error e, t)) (c : Call δ α) : s.run k c = (.error e, t) := by
  rw [run, h]

theorem run_served (h : s.get k = (.ok i, t)) (c : Call δ α) :
    s.run k c =
      ((t.runOn k.peer i c).1, (t.runOn k.peer i c).2.conclude k.peer (t.runOn k.peer i c).1) := by
  rw [run, h]

theorem conclude_broken (peer : Peer ω δ) (s : Slot τ ω δ) (cause : Breakage) :
    s.conclude peer (.error (.broken cause) : Except ProxyError α) = s.invalidate peer :=
  rfl

theorem conclude_intact {r : Except ProxyError α} (h : ¬∃ cause, r = .error (.broken cause)) :
    s.conclude peer r = s := by
  match r with
  | .ok _    => rfl
  | .error e =>
    cases e
    case broken cause => exact absurd ⟨cause, rfl⟩ h
    all_goals rfl

theorem invalidate_current (peer : Peer ω δ) (s : Slot τ ω δ) : (s.invalidate peer).current = none := by
  unfold invalidate
  split
  case h_1   => rfl
  case h_2 h => exact h

theorem invalidate_source (peer : Peer ω δ) (s : Slot τ ω δ) : (s.invalidate peer).source = s.source := by
  unfold invalidate
  split <;> rfl

theorem runOn_source (peer : Peer ω δ) (s : Slot τ ω δ) (i : Nat) (c : Call δ α) :
    (s.runOn peer i c).2.source = s.source := by
  unfold runOn
  split <;> rfl

theorem conclude_source (peer : Peer ω δ) (s : Slot τ ω δ) (r : Except ProxyError α) :
    (s.conclude peer r).source = s.source := by
  unfold conclude
  split
  case h_1 => rfl
  case h_2 =>
    split
    case isTrue  => exact invalidate_source ..
    case isFalse => rfl

-- No call opens a proxy.
theorem runOn_opens (h : (s.runOn peer i c).2.isOpen j = true) : s.isOpen j = true := by
  by_cases hij : i = j
  case neg => rwa [runOn_isOpen_ne hij] at h
  case pos =>
    subst hij
    cases ho : s.isOpen i
    case true  => rfl
    case false => exact absurd ((runOn_shut ho c).symm.trans h) (by decide)

theorem befall_opens {m : Mishap ω δ} (h : (s.befall i m).isOpen j = true) : s.isOpen j = true := by
  unfold isOpen befall at *
  rw [List.getElem?_modify] at h
  match hp : s.built[j]? with
  | none   => simp [hp] at h
  | some p =>
    have hm := m.shut p
    by_cases hij : i = j
    case neg => simpa [hp, hij] using h
    case pos =>
      cases hc : p.isClosed
      case false => simpa using hc
      case true  => simp [hp, hij, hm hc] at h

-- Whatever proxy is open is in the slot.
structure Sole (s : Slot τ ω δ) : Prop where
  current : ∀ i, s.isOpen i = true → s.current = some i

namespace Sole

theorem of_new (source : τ) : ({ source } : Slot τ ω δ).Sole :=
  ⟨fun _ h => nomatch h⟩

theorem mono (h : s.Sole) (hc : t.current = s.current)
    (ho : ∀ i, t.isOpen i = true → s.isOpen i = true) : t.Sole :=
  ⟨fun i hi => hc.trans <| h.current i <| ho i hi⟩

theorem get (h : s.Sole) (k : Connector τ ω δ) : (s.get k).2.Sole := by
  cases hl : s.live?
  case some i =>
    rw [get_live hl]
    exact h
  case none =>
    obtain ⟨e, source, _, hg⟩ | ⟨p, source, _, hg⟩ := get_none hl k <;> rw [hg]
    case inl => exact h.mono rfl fun _ hi => hi
    case inr =>
      refine ⟨fun i hi => ?_⟩
      -- An older proxy is closed, as it would be live otherwise.
      by_cases hb : i < s.built.length
      case neg => exact congrArg some <| Nat.le_antisymm (Nat.not_lt.mp hb)
                    (Nat.le_of_lt_succ <| by simpa using lt_of_isOpen hi)
      case pos =>
        have hi : s.isOpen i = true := by simpa only [isOpen, List.getElem?_append_left hb] using hi
        cases hl.symm.trans <| live?_eq (h.current i hi) hi

theorem invalidate_isOpen (h : s.Sole) (peer : Peer ω δ) (i : Nat) :
    (s.invalidate peer).isOpen i = false := by
  rw [Slot.invalidate_isOpen]
  cases ho : s.isOpen i
  case false => rfl
  case true  => simp [h.current i ho]

theorem invalidate (h : s.Sole) (peer : Peer ω δ) : (s.invalidate peer).Sole :=
  ⟨fun i hi => nomatch (h.invalidate_isOpen peer i).symm.trans hi⟩

theorem conclude (h : s.Sole) (peer : Peer ω δ) (r : Except ProxyError α) : (s.conclude peer r).Sole := by
  unfold Slot.conclude
  split
  case h_1 => exact h
  case h_2 =>
    split
    case isTrue  => exact h.invalidate peer
    case isFalse => exact h

theorem runOn (h : s.Sole) (peer : Peer ω δ) (i : Nat) (c : Call δ α) : (s.runOn peer i c).2.Sole :=
  h.mono (runOn_current ..) fun _ => runOn_opens

theorem run (h : s.Sole) (k : Connector τ ω δ) (c : Call δ α) : (s.run k c).2.Sole := by
  have hs := h.get k
  match hg : s.get k with
  | (.error e, t) =>
    rw [run_unserved hg]
    rwa [hg] at hs
  | (.ok i, t) =>
    rw [run_served hg]
    rw [hg] at hs
    exact (hs.runOn ..).conclude ..

theorem step (h : s.Sole) (k : Connector τ ω δ) (event : Event ω δ) : (s.step k event).Sole := by
  cases event
  case get        => exact h.get k
  case current    => exact h
  case invalidate => exact h.invalidate k.peer
  case call c     => exact h.run k c.call
  case befall     => exact h.mono rfl fun _ => befall_opens

theorem runEvents (h : s.Sole) (k : Connector τ ω δ) (events : List (Event ω δ)) :
    (s.runEvents k events).Sole := by
  induction events generalizing s
  case nil             => exact h
  case cons event _ hi => exact hi <| h.step k event

end Sole

section

variable {k : Connector τ ω δ} {s t : Slot (τ × Nat) ω δ}

theorem asked_live (h : s.live? = some i) : (s.get k.counted).2.asked = s.asked := by
  rw [get_live h]

theorem asked_none (h : s.live? = none) : (s.get k.counted).2.asked = s.asked + 1 := by
  obtain ⟨_, _, hc, hg⟩ | ⟨_, _, hc, hg⟩ := get_none h k.counted
  all_goals
    rw [hg]
    exact congrArg (·.2.2) hc.symm

-- What can be said of a slot at any moment, and of whatever is done to it next.
structure Exclusive (k : Connector τ ω δ) (s : Slot (τ × Nat) ω δ) : Prop where
  alone   : ∀ i j, s.isOpen i = true → s.isOpen j = true → i = j
  current : ∀ i, s.live? = some i ↔ s.current = some i ∧ s.isOpen i = true
  reuses  : ∀ i, s.live? = some i → s.get k.counted = (.ok i, s)
  asks    : s.live? = none → (s.get k.counted).2.asked = s.asked + 1
  -- The connector has no proxy to give. The slot is as empty as before, and asks again.
  fails   : ∀ e rest, s.live? = none → k.connect s.source.1 = (.error e, rest) →
    ∃ t, s.get k.counted = (.error e, t) ∧ t.live? = none ∧ t.current = s.current ∧
      t.built = s.built ∧ (t.get k.counted).2.asked = t.asked + 1
  builds  : ∀ p rest, s.live? = none → k.connect s.source.1 = (.ok p, rest) →
    ∃ t, s.get k.counted = (.ok s.built.length, t) ∧ t.live? = some s.built.length ∧
      t.built = s.built ++ [p]
  unserved {α : Type} (c : FileCall δ α) : ∀ e t, s.get k.counted = (.error e, t) →
    (service k.counted).call c s = (.error e, t)
  -- A call goes to the proxy that is handed out, and the slot keeps it unless it is lost.
  served {α : Type} (c : FileCall δ α) : ∀ i t, s.get k.counted = (.ok i, t) →
    let (r, u) := (service k.counted).call c s
    r = (t.runOn k.peer i c.call).1 ∧ u.asked = t.asked ∧
      ((∃ cause, r = .error (.broken cause)) → u.isOpen i = false ∧ u.current = none) ∧
      ((¬∃ cause, r = .error (.broken cause)) → u.live? = some i)
  dropped : ∀ i, (s.drop k.peer).isOpen i = false

theorem Sole.exclusive (h : s.Sole) (hk : k.Opens) : s.Exclusive k where
  alone i j hi hj := by
    simpa using (h.current i hi).symm.trans (h.current j hj)
  current _ := live?_eq_some_iff
  reuses _ hl := get_live hl _
  asks := asked_none
  fails e rest hl hc := by
    obtain ⟨e', source, hc', hg⟩ | ⟨p, _, hc', _⟩ := get_none hl k.counted <;>
      simp only [Connector.counted, hc, Prod.mk.injEq] at hc'
    case inr => exact nomatch hc'.left
    case inl =>
      cases hc'.left
      exact ⟨_, hg, hl, rfl, rfl, asked_none hl⟩
  builds p rest hl hc := by
    obtain ⟨e, _, hc', _⟩ | ⟨p', source, hc', hg⟩ := get_none hl k.counted <;>
      simp only [Connector.counted, hc, Prod.mk.injEq] at hc'
    case inl => exact nomatch hc'.left
    case inr =>
      cases hc'.left
      exact ⟨_, hg, get_ok_live hk.counted hg, rfl⟩
  unserved c e t hg := run_unserved hg c.call
  served c i t hg := by
    have ⟨hc, ho⟩ := live?_eq_some_iff.mp <| get_ok_live hk.counted hg
    have hs : (t.runOn k.peer i c.call).2.Sole := Sole.runOn (by simpa [hg] using h.get k.counted) ..
    have hr : (service k.counted).call c s = _ := run_served hg c.call
    rw [hr]
    refine ⟨rfl, ?asked, fun ⟨cause, hb⟩ => ?broken, fun hb => ?intact⟩
    case asked =>
      exact congrArg Prod.snd <| (conclude_source ..).trans (runOn_source ..)
    case broken =>
      have hb : (t.runOn k.counted.peer i c.call).1 = .error (.broken cause) := hb
      rw [hb, conclude_broken]
      exact ⟨hs.invalidate_isOpen .., invalidate_current ..⟩
    case intact =>
      rw [conclude_intact hb]
      refine live?_eq ((runOn_current ..).trans hc) <| (runOn_isOpen ho _).mpr fun e he => ?_
      cases e
      case broken cause => exact absurd ⟨cause, he⟩ hb
      all_goals rfl
  dropped := h.invalidate_isOpen k.peer

end

-- Whatever happens to a slot and to the proxies that it has handed out, and whether the connector
-- succeeds or not.
theorem exclusive_at_any_moment (hk : k.Opens) (source : τ) (events : List (Event ω δ)) :
    (runEvents k.counted { source := (source, 0) } events).Exclusive k :=
  ((Sole.of_new _).runEvents ..).exclusive hk

-- The first proxy is lost, and closed by a holder after that. A holder loses the second one too, in a
-- call that the slot knows nothing of, and nothing is left to build a third one from.
theorem exclusive_among_two :
    let k := Crowd.unsteady
    let s := runEvents k.counted { source := ([true, false], 0) }
      [.get, .befall 0 .lose, .befall 0 (.close k.peer), .get]
    let t := s.step k.counted (.befall 1 (.use k.peer (.statFd 3)))
    k.Opens ∧ s.Exclusive k ∧ s.built.length = 2 ∧ s.asked = 2 ∧ s.live? = some 1 ∧
      t.Exclusive k ∧ t.current = some 1 ∧ t.live? = none ∧ (t.get k.counted).2.asked = 3 := by
  have hs := exclusive_at_any_moment Crowd.unsteady_opens [true, false]
    [.get, .befall 0 .lose, .befall 0 (.close Crowd.unsteady.peer), .get]
  have ht := exclusive_at_any_moment Crowd.unsteady_opens [true, false]
    [.get, .befall 0 .lose, .befall 0 (.close Crowd.unsteady.peer), .get,
      .befall 1 (.use Crowd.unsteady.peer (.statFd 3))]
  exact ⟨Crowd.unsteady_opens, hs, rfl, rfl, rfl, ht, rfl, rfl, ht.asks rfl⟩

end Slot

end FileBroker
