import Mathlib
import FileBroker.Proofs.Reply.Grammar

namespace FileBroker

variable {δ : Type} {s : Stream δ} {c d : Channel δ}

-- The text at the start of a reply, up to its NUL. A stat reply has one only behind an indicator that
-- announces it.
def ReplyShape.Says (shape : ReplyShape) (reply text : Bytes) : Prop :=
  0 ∉ text ∧ ∃ rest,
    match shape with
    | .snapshot => ∃ indicator, indicator.length = 8 ∧ LittleEndian.decode indicator ≠ 0 ∧
        reply = indicator ++ text ++ 0 :: rest
    | _ => reply = text ++ 0 :: rest

-- A stat reply that brings a record.
def ReplyShape.Brings (shape : ReplyShape) (reply record : Bytes) : Prop :=
  shape = .snapshot ∧ record.length = 32 ∧ ∃ indicator rest, indicator.length = 8 ∧
    LittleEndian.decode indicator = 0 ∧ reply = indicator ++ record ++ rest

-- A text that is the first thing in a reply.
theorem ReplyShape.Says.first {shape : ReplyShape} (hs : shape ≠ .snapshot) (ht : 0 ∉ text)
    (rest : Bytes) : shape.Says (text ++ 0 :: rest) text := by
  refine ⟨ht, rest, ?_⟩
  cases shape
  case snapshot => contradiction
  all_goals rfl

namespace Answer

open Channel Reading

-- An answer is a text that was said, or a record that was brought.
inductive From (shape : ReplyShape) (reply : Bytes) (a : Answer δ) : Prop
  | said {text} :
    shape.Says reply text → a.message = Utf8.decodeLossy text →
    (∀ snapshot, a.data ≠ some (.stat snapshot)) → From shape reply a
  | brought {record} :
    shape.Brings reply record → a.data = some (.stat (.ofRecord record)) → From shape reply a

variable {a : Answer δ}

theorem discarded_ok {x : Answer δ} {c : Channel δ}
    (h : (do modify discardFds; return x : Reading δ FrameError (Answer δ)).on c = (.ok a, d)) :
    a = x ∧ d = c.discardFds := by
  cases h
  exact ⟨rfl, rfl⟩

-- What the first bytes of a stream spell is from the whole of it.
theorem From.of_spells {shape : ReplyShape} {front : Bytes} (h : shape.Spells a.content front)
    (rest : Bytes) : a.From shape (front ++ rest) := by
  obtain ⟨fd, message, data⟩ := a
  change shape.Spells (message, data) front at h
  cases h
  case status text hn _ hs =>
    rw [List.append_assoc]
    exact .said (.first hs hn _) rfl (by simp)
  case refusal text hn _ =>
    rw [List.append_assoc]
    exact .said (.first (by simp) hn _) rfl (by simp)
  case text text hn =>
    rw [List.append_assoc, List.append_assoc]
    exact .said (.first (by simp) ready_no_nul _) (Utf8.decodeLossy_encode _).symm (by simp)
  case record indicator record hi hz hr =>
    exact .brought ⟨rfl, hr, indicator, rest, hi, hz, rfl⟩ rfl
  case report indicator text hi hz hn =>
    refine .said ⟨hn, rest, indicator, hi, hz, ?_⟩ rfl (by simp)
    simp

theorem read_ok {shape : ReplyShape} (hc : c.Carries s) (h : (read shape).on c = (.ok a, d)) :
    a.From shape s.bytes ∧ d.Wf := by
  have ⟨front, hp, hs⟩ := (accepts_read shape).sound hc.toWf h
  rw [←hc.unread_eq, hp.unread]
  exact ⟨.of_spells hs _, hp.wf⟩

end Answer

end FileBroker
