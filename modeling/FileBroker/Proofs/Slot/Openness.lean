import Mathlib
import FileBroker.Proofs.Proxy.Lifecycle
import FileBroker.Slot.Basic

namespace FileBroker

variable {τ ω δ : Type}

-- A proxy that the connector builds can be used.
def Connector.Opens (k : Connector τ ω δ) : Prop :=
  ∀ source p source', k.connect source = (.ok p, source') → p.isClosed = false

namespace Slot

variable {s : Slot τ ω δ} {k : Connector τ ω δ} {peer : Peer ω δ} {i j : Nat}

theorem lt_of_isOpen (h : s.isOpen i = true) : i < s.built.length := by
  unfold isOpen at h
  split at h
  case h_1 hp => exact (List.getElem?_eq_some_iff.mp hp).1
  case h_2    => simp at h

theorem isOpen_eq (h : s.built[i]? = some p) : s.isOpen i = !p.isClosed := by
  rw [isOpen, h]

theorem live?_eq (hc : s.current = some i) (ho : s.isOpen i = true) : s.live? = some i := by
  simp [live?, hc, ho]

theorem lt_of_live? (h : s.live? = some i) : i < s.built.length :=
  lt_of_isOpen (Option.mem_filter_iff.mp h).2

theorem get_live (h : s.live? = some i) (k : Connector τ ω δ) : s.get k = (.ok i, s) := by
  simp only [get, h]

-- With nothing to hand out the connector is asked, and the proxies before stay as they are.
theorem get_none (h : s.live? = none) (k : Connector τ ω δ) :
    (∃ e source, k.connect s.source = (.error e, source) ∧
      s.get k = (.error e, { s with source, attempts := s.attempts + 1 })) ∨
    (∃ p source, k.connect s.source = (.ok p, source) ∧
      s.get k = (.ok s.built.length,
        { s with
          source
          built    := s.built ++ [p]
          current  := some s.built.length
          attempts := s.attempts + 1 })) := by
  simp only [get, h]
  match k.connect s.source with
  | (.error e, source) => exact .inl ⟨e, source, rfl, rfl⟩
  | (.ok p, source)    => exact .inr ⟨p, source, rfl, rfl⟩

-- What is in the slot and open is handed out again; otherwise a proxy is built.
theorem get_cases (k : Connector τ ω δ) (s : Slot τ ω δ) :
    (∃ i, s.live? = some i ∧ s.get k = (.ok i, s)) ∨
    (∃ e source, s.get k = (.error e, { s with source, attempts := s.attempts + 1 })) ∨
    (∃ p source, k.connect s.source = (.ok p, source) ∧
      s.get k = (.ok s.built.length,
        { s with
          source
          built    := s.built ++ [p]
          current  := some s.built.length
          attempts := s.attempts + 1 })) := by
  match h : s.live? with
  | some i => exact .inl ⟨i, rfl, get_live h k⟩
  | none =>
    obtain ⟨e, source, _, hg⟩ | hb := get_none h k
    case inl => exact .inr <| .inl ⟨e, source, hg⟩
    case inr => exact .inr <| .inr hb

theorem get_isOpen (k : Connector τ ω δ) (h : i < s.built.length) :
    (s.get k).2.isOpen i = s.isOpen i := by
  obtain ⟨_, _, hg⟩ | ⟨_, _, hg⟩ | ⟨_, _, _, hg⟩ := s.get_cases k <;> rw [hg]
  case inr.inl => rfl
  case inr.inr => simp only [isOpen, List.getElem?_append_left h]

theorem get_built_le (k : Connector τ ω δ) (s : Slot τ ω δ) :
    s.built.length ≤ (s.get k).2.built.length := by
  obtain ⟨_, _, hg⟩ | ⟨_, _, hg⟩ | ⟨_, _, _, hg⟩ := s.get_cases k <;> simp [hg]

theorem get_ok_lt (h : s.get k = (.ok i, s')) : i < s'.built.length := by
  obtain ⟨_, hl, hg⟩ | ⟨_, _, hg⟩ | ⟨_, _, _, hg⟩ := s.get_cases k <;> cases h.symm.trans hg
  case inl     => exact lt_of_live? hl
  case inr.inr => simp

theorem get_built (hk : k.Opens) (h : s.built.length < (s.get k).2.built.length) :
    ∃ slot, s.get k = (.ok s.built.length, slot) ∧ slot.current = some s.built.length ∧
      slot.isOpen s.built.length = true := by
  obtain ⟨_, _, hg⟩ | ⟨_, _, hg⟩ | ⟨p, _, hp, hg⟩ := s.get_cases k
  case inl | inr.inl => simp [hg] at h
  case inr.inr       => exact ⟨_, hg, rfl, by simp [isOpen, hk _ _ _ hp]⟩

theorem closeAt_isOpen_self (peer : Peer ω δ) (s : Slot τ ω δ) (i : Nat) :
    (s.closeAt peer i).isOpen i = false := by
  rw [isOpen, closeAt, List.getElem?_modify_eq]
  cases s.built[i]?
  case none => rfl
  case some p => simp [Proxy.close_isClosed]

theorem closeAt_isOpen_ne (peer : Peer ω δ) (s : Slot τ ω δ) (h : i ≠ j) :
    (s.closeAt peer i).isOpen j = s.isOpen j := by
  simp only [isOpen, closeAt, List.getElem?_modify_ne _ _ h]

theorem closeAt_length (peer : Peer ω δ) (s : Slot τ ω δ) (i : Nat) :
    (s.closeAt peer i).built.length = s.built.length := by
  simp [closeAt]

-- The slot closes what it holds, and nothing else.
theorem invalidate_isOpen (peer : Peer ω δ) (s : Slot τ ω δ) (i : Nat) :
    (s.invalidate peer).isOpen i = (s.isOpen i && s.current != some i) := by
  unfold invalidate
  split
  case h_2 h => simp [h]
  case h_1 j h =>
    change (s.closeAt peer j).isOpen i = _
    by_cases hj : j = i
    case pos => simp [hj, h, closeAt_isOpen_self]
    case neg => simp [hj, h, closeAt_isOpen_ne]

theorem invalidate_length (peer : Peer ω δ) (s : Slot τ ω δ) :
    (s.invalidate peer).built.length = s.built.length := by
  unfold invalidate
  split
  case h_1 => exact closeAt_length ..
  case h_2 => rfl

theorem runOn_isOpen_ne (h : i ≠ j) (c : Call δ α) : (s.runOn peer i c).2.isOpen j = s.isOpen j := by
  unfold runOn
  split
  case h_1 => simp only [isOpen, update, List.getElem?_set_ne h]
  case h_2 => rfl

-- An open proxy is closed by an operation on it that fails for good, and by no other one.
theorem runOn_isOpen (h : s.isOpen i = true) (c : Call δ α) :
    (s.runOn peer i c).2.isOpen i = true ↔ ∀ e, (s.runOn peer i c).1 = .error e → e.isBroken = false := by
  have hi := lt_of_isOpen h
  have hp : s.built[i]? = some s.built[i] := List.getElem?_eq_getElem hi
  rw [isOpen_eq hp, Bool.not_eq_true'] at h
  have hr : (s.built[i].run peer c).2.isClosed = true ↔ _ := Proxy.run_isClosed_iff h c
  simp only [runOn, hp]
  rw [isOpen, update, List.getElem?_set_self hi, Bool.not_eq_true', ←Bool.not_eq_true, hr]
  match (s.built[i].run peer c).1 with
  | .ok a    => simp
  | .error e => cases e <;> simp [ProxyError.isBroken]

theorem runOn_shut (h : s.isOpen i = false) (c : Call δ α) : (s.runOn peer i c).2.isOpen i = false := by
  unfold runOn
  split
  case h_2 => exact h
  case h_1 p hp =>
    rw [isOpen_eq hp, Bool.not_eq_false'] at h
    have ⟨⟨attempts, hr⟩, _⟩ := Proxy.run_closed peer h c
    have hi := (List.getElem?_eq_some_iff.mp hp).1
    dsimp only
    rw [isOpen, update, List.getElem?_set_self hi, hr, Bool.not_eq_false']
    exact h

theorem runOn_current (peer : Peer ω δ) (s : Slot τ ω δ) (i : Nat) (c : Call δ α) :
    (s.runOn peer i c).2.current = s.current := by
  unfold runOn
  split <;> rfl

theorem runOn_length (peer : Peer ω δ) (s : Slot τ ω δ) (i : Nat) (c : Call δ α) :
    (s.runOn peer i c).2.built.length = s.built.length := by
  unfold runOn
  split
  case h_1 => simp [update]
  case h_2 => rfl

end Slot

end FileBroker
