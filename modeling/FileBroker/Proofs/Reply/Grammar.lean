import Mathlib
import FileBroker.Proofs.Channel.Parsing
import FileBroker.Proofs.Stat.Decoding
import FileBroker.Proofs.Text.Utf8
import FileBroker.Reply

namespace FileBroker

open Channel

variable {δ : Type} {c : Channel δ}

-- A text goes up to a NUL. Behind a status of success there can be another one, and an indicator that is
-- not zero announces a text in place of a record.
inductive ReplyShape.Spells : ReplyShape → String × Option Payload → Bytes → Prop
  | status {shape text} : shape ≠ .statusWithText → shape ≠ .snapshot → 0 ∉ text →
    Spells shape (Utf8.decodeLossy text, none) (text ++ [0])
  | refusal {text} : 0 ∉ text → text ≠ Utf8.encode readyStatus →
    Spells .statusWithText (Utf8.decodeLossy text, none) (text ++ [0])
  | text {text} : 0 ∉ text →
    Spells .statusWithText (readyStatus, some (.text (Utf8.decodeLossy text)))
      (Utf8.encode readyStatus ++ [0] ++ (text ++ [0]))
  | record {indicator record} : indicator.length = 8 → LittleEndian.decode indicator = 0 →
    record.length = 32 →
    Spells .snapshot (readyStatus, some (.stat (.ofRecord record))) (indicator ++ record)
  | report {indicator text} : indicator.length = 8 → LittleEndian.decode indicator ≠ 0 → 0 ∉ text →
    Spells .snapshot (Utf8.decodeLossy text, none) (indicator ++ (text ++ [0]))

namespace Channel

theorem readWith_silent (take : σ → Bytes → σ × Nat) (done : σ → Bool) (s : σ) :
    Silent (readWith (δ := δ) take done s) := by
  intro c o
  induction hz : c.inbound.size using Nat.strongRecOn generalizing c s
  case ind z hi =>
    have hh : (c.sending o).held = c.held := rfl
    have hn : ((c.sending o).start < (c.sending o).stop) = (c.start < c.stop) := rfl
    rw [StatDecoder.readWith_eq, StatDecoder.readWith_eq, hh]
    simp only [hn]
    generalize (if c.start < c.stop then take s c.held else (s, 0)) = fed
    have hc : (c.sending o).consume fed.2 = (c.consume fed.2).sending o := rfl
    split
    case isTrue  => rfl
    case isFalse =>
      rw [hc, fill_silent]
      rcases hf : (c.consume fed.2).fill with ⟨_ | _ | _, d⟩
      case error   => rfl
      case ok.zero => rfl
      case ok.succ => exact hi _ (hz ▸ fill_size_lt (c := c.consume _) hf) _ d rfl

theorem discardFds_wf (h : c.Wf) : c.discardFds.Wf :=
  ⟨h.start_le, h.stop_le, h.capacity_pos, h.bytes_ne⟩

theorem discardFds_past (h : c.Wf) : c.Past [] c.discardFds :=
  ⟨discardFds_wf h, rfl, rfl, rfl, rfl⟩

theorem takeFd_wf (h : c.Wf) : c.takeFd.2.Wf := by
  unfold takeFd
  split
  all_goals exact ⟨h.start_le, h.stop_le, h.capacity_pos, h.bytes_ne⟩

theorem takeFd_past (h : c.Wf) : c.Past [] c.takeFd.2 := by
  have hw := takeFd_wf h
  unfold takeFd at hw ⊢
  split at hw
  all_goals exact ⟨hw, rfl, rfl, rfl, rfl⟩

theorem takeFd_silent : Silent (takeFd (δ := δ)) := by
  intro c o
  have hp : (c.sending o).pending = c.pending := rfl
  unfold takeFd
  rw [hp]
  split <;> rfl

end Channel

namespace StatDecoder

theorem extent_take_extent (bytes : Bytes) (h : verdict bytes = some o) :
    extent (bytes.take (extent bytes)) = (bytes.take (extent bytes)).length := by
  have hv := (verdict_take_extent bytes).trans h
  have ha := (verdict_append hv (bytes.drop (extent bytes))).right
  rw [List.take_append_drop] at ha
  rw [←ha, List.length_take_of_le (extent_le bytes)]

-- Bytes that are an indicator, and nothing more.
theorem verdict_errorFollows_iff :
    (verdict bytes = some .errorFollows ∧ extent bytes = bytes.length) ↔
      bytes.length = 8 ∧ LittleEndian.decode bytes ≠ 0 := by
  constructor
  case mp =>
    rintro ⟨hv, hx⟩
    obtain ⟨_, hv', _⟩ | ⟨_, hz, _, hx'⟩ | ⟨_, _, _, hv', _⟩ | ⟨_, _, hv', _⟩ := verdict_cases bytes
    case inr.inl =>
      have hl : bytes.length = 8 := hx.symm.trans hx'
      exact ⟨hl, by rwa [List.take_of_length_le (Nat.le_of_eq hl)] at hz⟩
    all_goals exact nomatch hv.symm.trans hv'
  case mpr =>
    rintro ⟨hl, hz⟩
    have ht : bytes.take 8 = bytes := List.take_of_length_le (Nat.le_of_eq hl)
    simp [verdict, extent, hl, ht, hz]

-- Bytes that are an indicator and a record.
theorem verdict_snapshot_iff {s : Snapshot} :
    (verdict bytes = some (.snapshot s) ∧ extent bytes = bytes.length) ↔
      ∃ indicator record, indicator.length = 8 ∧ LittleEndian.decode indicator = 0 ∧
        record.length = 32 ∧ bytes = indicator ++ record ∧ s = .ofRecord record := by
  constructor
  case mp =>
    rintro ⟨hv, hx⟩
    obtain ⟨_, hv', _⟩ | ⟨_, _, hv', _⟩ | ⟨_, _, _, hv', _⟩ | ⟨_, hz, hv', hx'⟩ := verdict_cases bytes
    case inr.inr.inr =>
      have hl : bytes.length = 40 := hx.symm.trans hx'
      have hr : (bytes.drop 8).length = 32 := by rw [List.length_drop, hl]
      rw [List.take_of_length_le (Nat.le_of_eq hr)] at hv'
      cases hv.symm.trans hv'
      exact ⟨bytes.take 8, bytes.drop 8, by simp [hl], hz, hr, (List.take_append_drop ..).symm, rfl⟩
    all_goals exact nomatch hv.symm.trans hv'
  case mpr =>
    rintro ⟨indicator, record, hi, hz, hr, rfl, rfl⟩
    have ht : (indicator ++ record).take 8 = indicator := List.take_left' hi
    have hd : (indicator ++ record).drop 8 = record := List.drop_left' hi
    have hl : (indicator ++ record).length = 40 := by rw [List.length_append, hi, hr]
    have hf : record.take 32 = record := List.take_of_length_le (Nat.le_of_eq hr)
    simp only [verdict, extent, ht, hd, hl, hz, hf]
    exact ⟨rfl, rfl⟩

end StatDecoder

namespace Answer

open Reading StatDecoder

theorem accepts_decoder :
    Accepts (io (δ := δ) (readWith StatDecoder.feed (·.outcome.isSome) {})) id fun decoder bytes =>
      decoder = after bytes ∧ (verdict bytes).isSome ∧ extent bytes = bytes.length := by
  refine .io ?found ?missing (readWith_silent _ _ _)
  case found =>
    rintro s _ bytes rest hs ⟨rfl, hv, hx⟩
    have ⟨o, hv⟩ := Option.isSome_iff_exists.mp hv
    have ⟨hv', hx'⟩ := verdict_append hv rest
    rw [←hs] at hv' hx'
    have hr := readStat_found (δ := δ) hv'
    rwa [hx', hx, hs, List.take_left] at hr
  case missing =>
    intro s
    cases hv : verdict s.bytes
    case none   => exact .inr ⟨_, _, readStat_missing hv⟩
    case some o =>
      refine .inl ⟨_, s.bytes.take (extent s.bytes), s.bytes.drop (extent s.bytes),
        (List.take_append_drop ..).symm, rfl, ?_, extent_take_extent _ hv⟩
      rw [verdict_take_extent, hv]
      rfl

-- A decoder stops when it has come to a verdict, and not before.
theorem accepts_readStat :
    Accepts (readStat (δ := δ)) id fun outcome bytes =>
      verdict bytes = some outcome ∧ extent bytes = bytes.length := by
  have hr : Accepts (readStat (δ := δ)) id
      (Then (fun decoder bytes =>
          decoder = after bytes ∧ (verdict bytes).isSome ∧ extent bytes = bytes.length)
        fun decoder outcome bytes => decoder.outcome = some outcome ∧ bytes = []) := by
    refine accepts_decoder.bind fun decoder => ?_
    split
    case h_1 outcome ho => exact (Accepts.pure outcome).congr fun _ _ => by simp [ho, eq_comm]
    case h_2 ho         => exact (Accepts.malformed _).congr fun _ _ => by simp [ho]
  refine hr.congr fun outcome bytes => ⟨?_, ?_⟩
  case refine_1 =>
    rintro ⟨_, front, _, rfl, ⟨rfl, _, hx⟩, hv, rfl⟩
    rw [List.append_nil]
    exact ⟨hv, hx⟩
  case refine_2 =>
    rintro ⟨hv, hx⟩
    exact ⟨after bytes, bytes, [], (List.append_nil _).symm, ⟨rfl, Option.isSome_of_mem hv, hx⟩, hv, rfl⟩

-- What an answer says, its descriptor apart.
def content (a : Answer δ) : String × Option Payload :=
  (a.message, a.data)

theorem accepts_discarded (a : Answer δ) :
    Accepts (do modify discardFds; return a : Reading δ FrameError (Answer δ)) content fun said bytes =>
      said = a.content ∧ bytes = [] :=
  .aside (fun _ h => discardFds_past h) (fun _ _ => rfl) fun _ => .pure a

theorem ready_no_nul : 0 ∉ Utf8.encode readyStatus := by
  decide

theorem decodeLossy_eq_ready : Utf8.decodeLossy text = readyStatus ↔ text = Utf8.encode readyStatus := by
  have ha : ∀ c ∈ readyStatus.toList, Char.toNat c < 0x80 := by simp [readyStatus]
  refine ⟨Utf8.decodeLossy_eq_ascii ha, ?_⟩
  rintro rfl
  exact Utf8.decodeLossy_encode _

-- A text, and nothing behind it.
theorem accepts_text {f : String → Reading δ FrameError (Answer δ)}
    (hf : ∀ message, Accepts (f message) content fun said bytes => said = (message, none) ∧ bytes = []) :
    Accepts (io readMessage >>= f) content fun said bytes =>
      ∃ text, bytes = text ++ [0] ∧ 0 ∉ text ∧ said = (Utf8.decodeLossy text, none) := by
  refine (Accepts.readMessage.bind hf).congr fun said bytes => ⟨?_, ?_⟩
  case refine_1 =>
    rintro ⟨_, _, _, rfl, ⟨text, rfl, hn, rfl⟩, rfl, rfl⟩
    exact ⟨text, List.append_nil _, hn, rfl⟩
  case refine_2 =>
    rintro ⟨text, rfl, hn, rfl⟩
    exact ⟨_, text ++ [0], [], (List.append_nil _).symm, ⟨text, rfl, hn, rfl⟩, rfl, rfl⟩

theorem accepts_status {f : String → Reading δ FrameError (Answer δ)} {shape : ReplyShape}
    (ht : shape ≠ .statusWithText) (hs : shape ≠ .snapshot)
    (hf : ∀ message, Accepts (f message) content fun said bytes => said = (message, none) ∧ bytes = []) :
    Accepts (io readMessage >>= f) content shape.Spells := by
  refine (accepts_text hf).congr fun said bytes => ⟨?_, fun h => ?_⟩
  case refine_1 =>
    rintro ⟨text, rfl, hn, rfl⟩
    exact .status ht hs hn
  case refine_2 =>
    cases h
    case status text hn _ _ => exact ⟨text, rfl, hn, rfl⟩
    all_goals contradiction

-- What is behind the status of success, or of a failure.
theorem accepts_data (message : String) :
    Accepts (do
        let data ← if message = readyStatus then some <$> Payload.text <$> io readMessage else pure none
        modify discardFds
        return { message, data } : Reading δ FrameError (Answer δ)) content
      fun said bytes =>
        (message = readyStatus ∧ ∃ text, bytes = text ++ [0] ∧ 0 ∉ text ∧
          said = (message, some (.text (Utf8.decodeLossy text)))) ∨
        (message ≠ readyStatus ∧ bytes = [] ∧ said = (message, none)) := by
  split
  case isTrue h =>
    refine (((Accepts.readMessage.map _).map _).bind fun _ => accepts_discarded _).congr
      fun said bytes => ⟨?_, ?_⟩
    case refine_1 =>
      rintro ⟨_, _, _, rfl, ⟨_, rfl, _, rfl, text, rfl, ht, rfl⟩, rfl, rfl⟩
      exact .inl ⟨h, text, List.append_nil _, ht, rfl⟩
    case refine_2 =>
      rintro (⟨_, text, rfl, ht, rfl⟩ | ⟨hn, _⟩)
      case inl =>
        exact ⟨_, _, [], (List.append_nil _).symm, ⟨_, rfl, _, rfl, text, rfl, ht, rfl⟩, rfl, rfl⟩
      case inr => exact absurd h hn
  case isFalse h =>
    refine ((Accepts.pure none).bind fun _ => accepts_discarded _).congr fun said bytes => ⟨?_, ?_⟩
    case refine_1 =>
      rintro ⟨_, _, _, rfl, ⟨rfl, rfl⟩, rfl, rfl⟩
      exact .inr ⟨h, rfl, rfl⟩
    case refine_2 =>
      rintro (⟨hr, _⟩ | ⟨_, rfl, rfl⟩)
      case inl => exact absurd hr h
      case inr => exact ⟨none, [], [], rfl, ⟨rfl, rfl⟩, rfl, rfl⟩

theorem accepts_statusWithText :
    Accepts (read (δ := δ) .statusWithText) content ReplyShape.statusWithText.Spells := by
  refine (Accepts.readMessage.bind accepts_data).congr fun said bytes => ⟨?_, fun h => ?_⟩
  case refine_1 =>
    rintro ⟨_, _, _, rfl, ⟨text, rfl, hn, rfl⟩, ⟨hr, text', rfl, hn', rfl⟩ | ⟨hr, rfl, rfl⟩⟩
    case inl =>
      rw [hr, decodeLossy_eq_ready.mp hr]
      exact .text hn'
    case inr =>
      rw [List.append_nil]
      exact .refusal hn <| mt decodeLossy_eq_ready.mpr hr
  case refine_2 =>
    cases h
    case status ht _ => exact absurd rfl ht
    case refusal text hn hr =>
      exact ⟨_, _, [], (List.append_nil _).symm, ⟨text, rfl, hn, rfl⟩,
        .inr ⟨mt decodeLossy_eq_ready.mp hr, rfl, rfl⟩⟩
    case text text hn =>
      have hr := Utf8.decodeLossy_encode readyStatus
      exact ⟨readyStatus, _, _, rfl, ⟨_, rfl, ready_no_nul, hr.symm⟩, .inl ⟨rfl, text, rfl, hn, rfl⟩⟩

-- What is behind a record, or behind the indicator of a failure.
def Behind : StatOutcome → String × Option Payload → Bytes → Prop
  | .snapshot s,   said, bytes => said = (readyStatus, some (.stat s)) ∧ bytes = []
  | .errorFollows, said, bytes =>
    ∃ text, bytes = text ++ [0] ∧ 0 ∉ text ∧ said = (Utf8.decodeLossy text, none)

theorem accepts_snapshot : Accepts (read (δ := δ) .snapshot) content ReplyShape.snapshot.Spells := by
  have hr : Accepts (read (δ := δ) .snapshot) content
      (Then (fun outcome bytes => verdict bytes = some outcome ∧ extent bytes = bytes.length) Behind) := by
    refine accepts_readStat.bind fun outcome => ?_
    cases outcome
    case snapshot     => exact accepts_discarded _
    case errorFollows => exact accepts_text fun _ => accepts_discarded _
  refine hr.congr fun said bytes => ⟨?_, fun h => ?_⟩
  case refine_1 =>
    rintro ⟨outcome, front, back, rfl, hv, hb⟩
    cases outcome
    case snapshot s =>
      obtain ⟨indicator, record, hi, hz, hr, rfl, rfl⟩ := verdict_snapshot_iff.mp hv
      obtain ⟨rfl, rfl⟩ := hb
      rw [List.append_nil]
      exact .record hi hz hr
    case errorFollows =>
      obtain ⟨hi, hz⟩ := verdict_errorFollows_iff.mp hv
      obtain ⟨text, rfl, hn, rfl⟩ := hb
      exact .report hi hz hn
  case refine_2 =>
    cases h
    case status hs => exact absurd rfl hs
    case record indicator record hi hz hr =>
      exact ⟨_, _, [], (List.append_nil _).symm,
        verdict_snapshot_iff.mpr ⟨indicator, record, hi, hz, hr, rfl, rfl⟩, rfl, rfl⟩
    case report indicator text hi hz hn =>
      exact ⟨_, indicator, _, rfl, verdict_errorFollows_iff.mpr ⟨hi, hz⟩, text, rfl, hn, rfl⟩

theorem accepts_read (shape : ReplyShape) : Accepts (read (δ := δ) shape) content shape.Spells := by
  cases shape
  case status | watchId => exact accepts_status nofun nofun fun _ => accepts_discarded _
  case statusWithDescriptor =>
    refine accepts_status nofun nofun fun _ => .aside (fun _ h => takeFd_past h) takeFd_silent fun _ => ?_
    exact .pure _
  case statusWithText => exact accepts_statusWithText
  case snapshot       => exact accepts_snapshot

end Answer

end FileBroker
