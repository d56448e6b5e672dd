import Mathlib
import FileBroker.Proofs.Dispatch.Course

namespace FileBroker

open Channel

variable {δ : Type}

namespace Dispatcher

variable {ω : Type} {d : Dispatcher ω δ}

-- The loop is never told that there was a reply and that it made no sense.
theorem run_decodes (h : d.Running) (peer : Peer ω δ) (items : List (Item δ)) :
    ∀ p ∈ (d.run peer items).1, ∀ e, p.result ≠ .error (.undecodable e) := by
  induction items generalizing d
  case nil => simp [run]
  case cons item items hi =>
    obtain ⟨ht, hr⟩ := h.take_turned peer item .taken
    rw [run]
    dsimp only
    generalize (d.take peer item).1 = published at ht ⊢
    generalize (d.take peer item).2 = d' at ht hr ⊢
    cases ht
    case answered => exact List.forall_mem_cons.mpr ⟨by simp, hi <| hr h.finished⟩
    case waiting  => exact hi <| hr h.finished
    case lost     => exact List.forall_mem_cons.mpr ⟨by simp, by simp [run_finished, ended]⟩
    case unwanted | stopped | abandoned => simp [run_finished, ended]

end Dispatcher

namespace Channel

open Reading

variable {c : Channel δ}

-- Whatever comes, in whatever pieces, and however much of it has been received. A reply is read off the
-- stream with all of its bytes and no others, if the stream has it. If not, that is a failed transfer,
-- and so there is nothing that the dispatch loop would have to publish as undecodable.
theorem readAnswer_takes_one_reply (h : c.Wf) (shape : ReplyShape) :
    (∀ said front rest, c.unread = front ++ rest → shape.Spells said front →
      ∃ a d, c.readAnswer shape = (.ok a, d) ∧ a.content = said ∧ d.unread = rest) ∧
    (∀ a d, c.readAnswer shape = (.ok a, d) →
      ∃ front, shape.Spells a.content front ∧ c.unread = front ++ d.unread) ∧
    ((∃ e d, c.readAnswer shape = (.error e, d)) ↔
      ¬∃ said front rest, c.unread = front ++ rest ∧ shape.Spells said front) ∧
    (∀ e d, c.readAnswer shape = (.error e, d) → ∃ what, e = .io (c.stream.shortage what)) ∧
    ∀ {ω : Type} (peer : Peer ω δ) (d : Dispatcher ω δ) (items : List (Item δ)), d.Running →
      ∀ p ∈ (d.run peer items).1, ∀ e, p.result ≠ .error (.undecodable e) := by
  have ha := Answer.accepts_read (δ := δ) shape
  refine ⟨fun said front rest hu hs => ha.complete h hu hs, fun a d hr => ?sound, ⟨?none, ?error⟩,
    fun e d hr => Answer.starves_read shape c h e d hr, fun peer d items hd => Dispatcher.run_decodes hd peer items⟩
  case sound =>
    have ⟨front, hp, hs⟩ := ha.sound h hr
    exact ⟨front, hs, hp.unread⟩
  case none =>
    rintro ⟨e, d, hr⟩ ⟨said, front, rest, hu, hs⟩
    have ⟨a, d', ha, _⟩ := ha.complete h hu hs
    cases hr.symm.trans ha
  case error =>
    intro hn
    match hr : c.readAnswer shape with
    | (.error e, d) => exact ⟨e, d, rfl⟩
    | (.ok a, d)    =>
      have ⟨front, hp, hs⟩ := ha.sound h hr
      exact absurd ⟨a.content, front, d.unread, hp.unread, hs⟩ hn

-- A target goes up to the second NUL, and what a helper sends after it is left for the next reply.
theorem target_ends_at_second_nul :
    let sent : List (Segment Nat) :=
      [{ bytes := Utf8.encode readyStatus, fds := [3] }, { bytes := [0] ++ Utf8.encode "/" },
        { bytes := [0, 88] }]
    let c : Channel Nat := { inbound := sent.foldl Inbound.push { pace := [2, 1], ended := true } }
    let peer : Peer Unit Nat := { react _ w := (.leave, w) }
    let d : Dispatcher Unit Nat := { link := { far := () } }
    let e : Encoded Nat := { operation := .makeDir, bytes := [0], fds := [] }
    c.Wf ∧ d.Running ∧
      (∃ a after, c.readAnswer .statusWithText = (.ok a, after) ∧
        a.content = (readyStatus, some (.text "/")) ∧ after.unread = [88]) ∧
      ∀ p ∈ (d.run peer [.request 1 e]).1, ∀ e, p.result ≠ .error (.undecodable e) := by
  intro sent c peer d e
  have hc := (fresh_carries (δ := Nat) [2, 1] true).pushAll sent
  have hd : d.Running := ⟨⟨(fresh_carries (δ := Nat) [] false).toWf, rfl⟩, rfl, rfl⟩
  have hu : c.unread = Utf8.encode readyStatus ++ [0] ++ (Utf8.encode "/" ++ [0]) ++ [88] := by
    rw [hc.unread_eq]
    simp [Stream.bytes, Segment.cells_bytes, sent]
  have hs : ReplyShape.statusWithText.Spells (readyStatus, some (.text (Utf8.decodeLossy (Utf8.encode "/"))))
      (Utf8.encode readyStatus ++ [0] ++ (Utf8.encode "/" ++ [0])) :=
    .text (by decide)
  have h := readAnswer_takes_one_reply hc.toWf .statusWithText
  rw [Utf8.decodeLossy_encode] at hs
  exact ⟨hc.toWf, hd, h.left _ _ _ hu hs, h.right.right.right.right peer d _ hd⟩

end Channel

end FileBroker
