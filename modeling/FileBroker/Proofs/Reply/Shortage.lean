import Mathlib
import FileBroker.Proofs.Reply.Grammar

namespace FileBroker

open Channel

variable {δ : Type}

theorem Channel.Past.shortage {c d : Channel δ} (h : c.Past front d) (what : Unfinished) :
    d.stream.shortage what = c.stream.shortage what := by
  have he : d.stream.ended = c.stream.ended := h.ended
  have hr : d.stream.reset = c.stream.reset := h.reset
  rw [Stream.shortage, Stream.shortage, he, hr]

namespace Reading

-- A computation that fails only for want of bytes. Its failure says how the stream ends.
def Starves (m : Reading δ FrameError α) : Prop :=
  ∀ c : Channel δ, c.Wf → ∀ e d, m.on c = (.error e, d) → ∃ what, e = .io (c.stream.shortage what)

namespace Starves

variable {m : Reading δ FrameError α}

theorem pure (a : α) : Starves (pure a : Reading δ FrameError α) := by
  intro c h e d hr
  cases hr

theorem io {step : Channel δ → Except IoError α × Channel δ}
    (hs : ∀ s, (∃ a t, Reads step s (.ok a) t) ∨ ∃ what t, Reads step s (.error (s.shortage what)) t) :
    Starves (Reading.io step) := by
  intro c h e d hr
  obtain ⟨a, t, ha⟩ | ⟨what, t, he⟩ := hs c.stream
  case inl =>
    have ⟨_, hd, _⟩ := ha c h.carries
    rw [io_on, hd] at hr
    cases hr
  case inr =>
    have ⟨_, hd, _⟩ := he c h.carries
    rw [io_on, hd] at hr
    cases hr
    exact ⟨what, rfl⟩

theorem map (hm : Starves m) (f : α → β) : Starves (f <$> m) := by
  intro c h e d hr
  rw [←bind_pure_comp, bind_on] at hr
  match hc : m.on c with
  | (.ok a, _)     => simp only [hc] at hr; cases hr
  | (.error e', _) =>
    simp only [hc] at hr
    cases hr
    exact hm c h _ _ hc

-- What has been read before makes no difference to how the stream ends.
theorem bind {means : α → Bytes → Prop} {f : α → Reading δ FrameError β} (hm : Starves m)
    (ha : Accepts m id means) (hf : ∀ a bytes, means a bytes → Starves (f a)) : Starves (m >>= f) := by
  intro c h e d hr
  rw [bind_on] at hr
  match hc : m.on c with
  | (.error e', _) =>
    simp only [hc] at hr
    cases hr
    exact hm c h _ _ hc
  | (.ok a, b) =>
    simp only [hc] at hr
    have ⟨front, hp, hb⟩ := ha.sound h hc
    have ⟨what, he⟩ := hf a front hb b hp.wf e d hr
    exact ⟨what, hp.shortage what ▸ he⟩

theorem aside {step : Channel δ → α × Channel δ} {f : α → Reading δ FrameError β}
    (hp : ∀ c : Channel δ, c.Wf → c.Past [] (step c).2) (hf : ∀ a, Starves (f a)) :
    Starves ((modifyGet step : Reading δ FrameError α) >>= f) := by
  intro c h e d hr
  have ⟨what, he⟩ := hf _ _ (hp c h).wf e d hr
  exact ⟨what, (hp c h).shortage what ▸ he⟩

end Starves

end Reading

namespace Answer

open Reading StatDecoder

theorem starves_readMessage : Starves (io (readMessage (δ := δ))) := by
  refine .io fun s => ?_
  by_cases hs : 0 ∈ s.bytes
  case pos =>
    have ⟨text, rest, hb, ht⟩ := List.eq_append_cons_of_mem hs
    exact .inl ⟨_, _, readMessage_found hb ht⟩
  case neg => exact .inr ⟨_, _, readMessage_missing hs⟩

theorem starves_readStat : Starves (readStat (δ := δ)) := by
  have hd : Starves (io (δ := δ) (readWith StatDecoder.feed (·.outcome.isSome) {})) := by
    refine .io fun s => ?_
    cases hv : verdict s.bytes
    case none => exact .inr ⟨_, _, readStat_missing hv⟩
    case some => exact .inl ⟨_, _, readStat_found hv⟩
  refine hd.bind accepts_decoder ?_
  rintro _ bytes ⟨rfl, hv, _⟩
  have ⟨o, hv⟩ := Option.isSome_iff_exists.mp hv
  have ho : (after bytes).outcome = some o := hv
  rw [ho]
  exact .pure o

-- A failure to read an answer says how the stream ends.
theorem starves_read (shape : ReplyShape) : Starves (read (δ := δ) shape) := by
  have hd (a : Answer δ) : Starves (do modify discardFds; return a : Reading δ FrameError (Answer δ)) :=
    .aside (fun _ h => discardFds_past h) fun _ => .pure a
  have ht {f : String → Reading δ FrameError (Answer δ)} (hf : ∀ message, Starves (f message)) :
      Starves (io readMessage >>= f) := starves_readMessage.bind .readMessage fun message _ _ => hf message
  cases shape
  case status | watchId     => exact ht fun _ => hd _
  case statusWithDescriptor => exact ht fun _ => .aside (fun _ h => takeFd_past h) fun _ => .pure _
  case statusWithText =>
    refine ht fun message => ?_
    split
    case isTrue  => exact ((starves_readMessage.map _).map _).bind ((Accepts.readMessage.map _).map _) fun _ _ _ => hd _
    case isFalse => exact (Starves.pure none).bind (.pure none) fun _ _ _ => hd _
  case snapshot =>
    refine starves_readStat.bind accepts_readStat fun outcome _ _ => ?_
    cases outcome
    case snapshot     => exact hd _
    case errorFollows => exact ht fun _ => hd _

end Answer

end FileBroker
