import Mathlib
import FileBroker.Proofs.Stat.Decoding

namespace FileBroker

-- The reading operations, each with the type of what it returns.
inductive ReadCall : Type → Type
  | upTo (delimiter : UInt8) : ReadCall Bytes
  | token : ReadCall (Bytes × Channel.TokenEnd)
  | message : ReadCall String
  | messageOrEnd : ReadCall (Option String)
  | exact (count : Nat) : ReadCall Bytes
  -- What a new decoder of stat replies decides.
  | stat : ReadCall (Option StatOutcome)
  | atEnd : ReadCall Bool
  | drain : ReadCall Nat

-- The bytes before the first one that `ends` accepts, and that one. Nothing is read if there is none.
def Bytes.search (ends : UInt8 → Bool) (what : Unfinished) (bytes : Bytes) :
    Except IoError (Bytes × UInt8) × Bytes :=
  match bytes.dropWhile (!ends ·) with
  | last :: rest => (.ok (bytes.takeWhile (!ends ·), last), rest)
  | []           => (.error (.closedDuring what), bytes)

theorem Bytes.search_cases (ends : UInt8 → Bool) (what : Unfinished) (bytes : Bytes) :
    (∃ before last rest, bytes = before ++ last :: rest ∧ (∀ b ∈ before, ends b = false) ∧
      ends last ∧ Bytes.search ends what bytes = (.ok (before, last), rest)) ∨
    ((∀ b ∈ bytes, ends b = false) ∧
      Bytes.search ends what bytes = (.error (.closedDuring what), bytes)) := by
  have hb : ∀ b ∈ bytes.takeWhile (!ends ·), ends b = false := fun b hb => by
    simpa using List.all_eq_true.mp List.all_takeWhile b hb
  have ht := List.takeWhile_append_dropWhile (p := (!ends ·)) (l := bytes)
  unfold search
  cases hd : bytes.dropWhile (!ends ·)
  case nil =>
    rw [hd, List.append_nil] at ht
    exact .inr ⟨ht ▸ hb, rfl⟩
  case cons last rest =>
    have hl := List.head_dropWhile_not (!ends ·) (l := bytes) (by simp [hd])
    exact .inl ⟨_, last, rest, by rw [←hd, ht], hb, by simpa [hd] using hl, rfl⟩

-- A stream that has ended, with these bytes left.
structure Stream.Ends (s : Stream δ) (bytes : Bytes) : Prop where
  bytes : s.bytes = bytes
  ended : s.ended = true
  reset : s.reset = false

namespace Stream.Ends

variable {s : Stream δ} {bytes before rest : Bytes}

theorem advance (h : s.Ends bytes) (n : Nat) : (s.advance n).Ends (bytes.drop n) where
  bytes := by rw [advance_bytes, h.bytes]
  ended := h.ended
  reset := h.reset

theorem advance_past (h : s.Ends (before ++ last :: rest)) :
    (s.advance (before.length + 1)).Ends rest := by
  have := h.advance (before.length + 1)
  rwa [List.append_cons, List.drop_left' (by simp)] at this

theorem warned (h : s.Ends bytes) : s.warned.Ends bytes where
  bytes := h.bytes
  ended := h.ended
  reset := rfl

theorem spent (h : s.Ends bytes) : s.spent.Ends [] where
  bytes := by simp [Stream.spent, Stream.advance, Stream.bytes]
  ended := h.ended
  reset := h.reset

theorem shortage (h : s.Ends bytes) (what : Unfinished) : s.shortage what = .closedDuring what := by
  simp [Stream.shortage, h.ended, h.reset]

theorem silence (h : s.Ends bytes) : s.silence = .ok 0 := by
  simp [Stream.silence, h.ended, h.reset]

theorem length (h : s.Ends bytes) : s.cells.length = bytes.length := by
  rw [←s.bytes_length, h.bytes]

end Stream.Ends

namespace ReadCall

variable {δ : Type}

def run : ReadCall α → Channel δ → Except IoError α × Channel δ
  | upTo delimiter, c => c.readUntil delimiter
  | token,          c => c.readToken
  | message,        c => c.readMessage
  | messageOrEnd,   c => c.readMessage?
  | exact count,    c => c.readExact count
  | stat,           c =>
    let (r, d) := c.readWith StatDecoder.feed (·.outcome.isSome) {}
    (r.map (·.outcome), d)
  | atEnd,          c => c.atEnd
  | drain,          c => c.drain

-- What the plain reader returns, and what it leaves. A failed search leaves everything, any other
-- failure nothing.
def plain : ReadCall α → Bytes → Except IoError α × Bytes
  | upTo delimiter, bytes =>
    let (r, rest) := bytes.search (· == delimiter) .delimited
    (r.map (·.1), rest)
  | token, bytes =>
    let (r, rest) := bytes.search (fun b => b == 32 || b == 10) .token
    (r.map fun (before, last) => (before, if last = 32 then .space else .newline), rest)
  | message, bytes =>
    let (r, rest) := bytes.search (· == 0) .delimited
    (r.map fun (before, _) => Utf8.decodeLossy before, rest)
  | messageOrEnd, bytes =>
    if bytes.isEmpty then (.ok none, []) else
    let (r, rest) := bytes.search (· == 0) .delimited
    (r.map fun (before, _) => some (Utf8.decodeLossy before), rest)
  | exact count, bytes =>
    if count ≤ bytes.length then (.ok (bytes.take count), bytes.drop count)
    else (.error (.closedDuring .fixed), [])
  | stat, bytes =>
    match StatDecoder.verdict bytes with
    | some outcome => (.ok (some outcome), bytes.drop (StatDecoder.extent bytes))
    | none         => (.error (.closedDuring .record), [])
  | atEnd, bytes => (.ok bytes.isEmpty, bytes)
  | drain, bytes => (.ok bytes.length, [])

-- Every operation below is unfolded.
attribute [local simp] plain

-- The channel and the plain reader agree on one operation.
def Agrees (call : ReadCall α) (s : Stream δ) (bytes : Bytes) : Prop :=
  ∃ t, Channel.Reads call.run s (call.plain bytes).1 t ∧ t.Ends (call.plain bytes).2

open Channel

variable {s : Stream δ} {bytes : Bytes}

theorem upTo_agrees (h : s.Ends bytes) : (upTo delimiter).Agrees s bytes := by
  rw [Agrees, plain]
  obtain ⟨before, last, rest, rfl, hb, hl, hs⟩ | ⟨hb, hs⟩ :=
    Bytes.search_cases (· == delimiter) .delimited bytes
  case inl =>
    obtain rfl := beq_iff_eq.mp hl
    have hb : last ∉ before := fun hm => by simpa using hb last hm
    rw [hs]
    exact ⟨_, readUntil_found h.bytes hb, h.advance_past⟩
  case inr =>
    have hb : delimiter ∉ s.bytes := fun hm => by simpa using hb delimiter (h.bytes ▸ hm)
    rw [hs]
    exact ⟨_, h.shortage .delimited ▸ readUntil_missing hb, h.warned⟩

theorem token_agrees (h : s.Ends bytes) : token.Agrees s bytes := by
  rw [Agrees, plain]
  obtain ⟨before, last, rest, rfl, hb, hl, hs⟩ | ⟨hb, hs⟩ :=
    Bytes.search_cases (fun b => b == 32 || b == 10) .token bytes
  case inl =>
    have hb : ∀ b ∈ before, b ≠ 32 ∧ b ≠ 10 := fun b hm => by simpa using hb b hm
    rw [hs]
    simp only [Bool.or_eq_true, beq_iff_eq] at hl
    obtain rfl | rfl := hl
    case inl => exact ⟨_, readToken_found .space h.bytes hb, h.advance_past⟩
    case inr => exact ⟨_, readToken_found .newline h.bytes hb, h.advance_past⟩
  case inr =>
    have hb : ∀ b ∈ s.bytes, b ≠ 32 ∧ b ≠ 10 := fun b hm => by simpa using hb b (h.bytes ▸ hm)
    rw [hs]
    exact ⟨_, h.shortage .token ▸ readToken_missing hb, h.warned⟩

theorem message_agrees (h : s.Ends bytes) : message.Agrees s bytes := by
  rw [Agrees, plain]
  obtain ⟨before, last, rest, rfl, hb, hl, hs⟩ | ⟨hb, hs⟩ :=
    Bytes.search_cases (· == 0) .delimited bytes
  case inl =>
    obtain rfl := beq_iff_eq.mp hl
    have hb : 0 ∉ before := fun hm => by simpa using hb 0 hm
    rw [hs]
    exact ⟨_, readMessage_found h.bytes hb, h.advance_past⟩
  case inr =>
    have hb : 0 ∉ s.bytes := fun hm => by simpa using hb 0 (h.bytes ▸ hm)
    rw [hs]
    exact ⟨_, h.shortage .delimited ▸ readMessage_missing hb, h.warned⟩

theorem messageOrEnd_agrees (h : s.Ends bytes) : messageOrEnd.Agrees s bytes := by
  rw [Agrees, plain]
  split
  case isTrue he =>
    obtain rfl := List.isEmpty_iff.mp he
    have := readMessage?_nil (List.map_eq_nil_iff.mp h.bytes)
    rw [h.silence] at this
    exact ⟨_, this, h.warned⟩
  case isFalse he =>
    have hn : s.cells ≠ [] := fun hn => he <| by simp [←h.bytes, Stream.bytes, hn]
    obtain ⟨before, last, rest, rfl, hb, hl, hs⟩ | ⟨hb, hs⟩ :=
      Bytes.search_cases (· == 0) .delimited bytes
    case inl =>
      obtain rfl := beq_iff_eq.mp hl
      have hb : 0 ∉ before := fun hm => by simpa using hb 0 hm
      rw [hs]
      exact ⟨_, readMessage?_found h.bytes hb, h.advance_past⟩
    case inr =>
      have hb : 0 ∉ s.bytes := fun hm => by simpa using hb 0 (h.bytes ▸ hm)
      rw [hs]
      exact ⟨_, h.shortage .delimited ▸ readMessage?_missing hb hn, h.warned⟩

theorem exact_agrees (h : s.Ends bytes) : (exact count).Agrees s bytes := by
  rw [Agrees, plain]
  have hl := h.length
  split
  case isTrue hc => exact ⟨_, h.bytes ▸ readExact_enough (hl ▸ hc), h.advance count⟩
  case isFalse hc =>
    exact ⟨_, h.shortage .fixed ▸ readExact_short (by omega), h.spent.warned⟩

theorem stat_agrees (h : s.Ends bytes) : stat.Agrees s bytes := by
  rw [Agrees, plain]
  have hb := h.bytes
  cases hv : StatDecoder.verdict bytes
  case some outcome =>
    refine ⟨_, fun c hc => ?_, h.advance _⟩
    obtain ⟨d, hr, hd, ho⟩ := StatDecoder.readStat_found (hb ▸ hv) c hc
    rw [hb] at hr hd
    refine ⟨d, ?_, hd, ho⟩
    rw [run, hr]
    simp [Except.map, StatDecoder.after, StatDecoder.verdict_take_extent, hv]
  case none =>
    refine ⟨_, fun c hc => ?_, h.spent.warned⟩
    obtain ⟨d, hr, hd, ho⟩ := StatDecoder.readStat_missing (hb ▸ hv) c hc
    refine ⟨d, ?_, hd, ho⟩
    rw [run, hr, h.shortage]
    rfl

theorem atEnd_agrees (h : s.Ends bytes) : atEnd.Agrees s bytes := by
  rw [Agrees, plain]
  cases bytes
  case nil =>
    have := atEnd_nil (List.map_eq_nil_iff.mp h.bytes)
    rw [h.silence] at this
    exact ⟨_, this, h.warned⟩
  case cons =>
    have hn : s.cells ≠ [] := fun hn => by simpa [Stream.bytes, hn] using h.bytes
    exact ⟨_, atEnd_false hn, h⟩

theorem drain_agrees (h : s.Ends bytes) : drain.Agrees s bytes := by
  rw [Agrees, plain]
  exact ⟨{ s with cells := [], loose := [] }, h.length ▸ drain_reads h.ended h.reset, rfl, h.ended, h.reset⟩

theorem agrees (h : s.Ends bytes) (call : ReadCall α) : call.Agrees s bytes := by
  cases call
  case upTo         => exact upTo_agrees h
  case token        => exact token_agrees h
  case message      => exact message_agrees h
  case messageOrEnd => exact messageOrEnd_agrees h
  case exact        => exact exact_agrees h
  case stat         => exact stat_agrees h
  case atEnd        => exact atEnd_agrees h
  case drain        => exact drain_agrees h

-- The results of a script, each with its type.
def runAll : List ((α : Type) × ReadCall α) → Channel δ →
    List ((α : Type) × Except IoError α) × Channel δ
  | [],                 c => ([], c)
  | ⟨α, call⟩ :: calls, c =>
    let (r, c) := call.run c
    let (rs, c) := runAll calls c
    (⟨α, r⟩ :: rs, c)

def plainAll : List ((α : Type) × ReadCall α) → Bytes →
    List ((α : Type) × Except IoError α) × Bytes
  | [],                 bytes => ([], bytes)
  | ⟨α, call⟩ :: calls, bytes =>
    let (r, bytes) := call.plain bytes
    let (rs, bytes) := plainAll calls bytes
    (⟨α, r⟩ :: rs, bytes)

theorem runAll_reads (h : s.Ends bytes) (calls : List ((α : Type) × ReadCall α)) :
    ∃ t, Channel.Reads (runAll calls) s (plainAll calls bytes).1 t ∧
      t.Ends (plainAll calls bytes).2 := by
  induction calls generalizing s bytes
  case nil => exact ⟨s, fun c hc => ⟨c, rfl, hc, rfl⟩, h⟩
  case cons call calls hi =>
    have ⟨t, ht, hte⟩ := agrees h call.2
    have ⟨u, hu, hue⟩ := hi hte
    refine ⟨u, fun c hc => ?_, hue⟩
    have ⟨d, hr, hd, ho⟩ := ht c hc
    have ⟨e, hrs, he, ho'⟩ := hu d hd
    exact ⟨e, by simp only [runAll, plainAll, hr, hrs], he, ho'.trans ho⟩

-- Any number of bytes that there is room for can be what a receive brings, if no more are sent.
theorem receive_of_pace (bytes : Bytes) (hn : 0 < n) (hr : n ≤ room) :
    Inbound.receive { queue := [({ bytes } : Segment δ)], pace := n :: pace, ended } room =
      (.ok (bytes.take n, []),
        { queue := Inbound.leftover (bytes.drop n) [], pace, ended }) := by
  have hp : min room (max 1 n) = n := by omega
  simp only [Inbound.receive, Inbound.paced, hp, Inbound.gather, Inbound.leftover]
  split
  case isTrue => simp
  case isFalse hl =>
    simp only [List.isEmpty_nil, Bool.not_true, Bool.false_eq_true, false_or, Nat.not_le] at hl
    simp [List.take_of_length_le (Nat.le_of_lt hl), List.drop_of_length_le (Nat.le_of_lt hl)]

-- The stream is sent in any pieces, and received in any others.
theorem results_independent_of_segmentation (segments : List (Segment δ)) (pace : List Nat)
    (calls : List ((α : Type) × ReadCall α)) :
    let start : Channel δ := { inbound := segments.foldl Inbound.push { pace, ended := true } }
    let bytes := segments.flatMap (·.bytes)
    (runAll calls start).1 = (plainAll calls bytes).1 ∧
      (runAll calls start).2.unread = (plainAll calls bytes).2 := by
  intro start bytes
  have hs := (fresh_carries pace true).pushAll segments
  have hb : Stream.bytes { cells := [] ++ segments.flatMap Segment.cells } = bytes := by
    simp [Stream.bytes, List.map_flatMap, Segment.cells_bytes, bytes]
  have he : Stream.Ends { cells := [] ++ segments.flatMap Segment.cells, ended := true } bytes :=
    ⟨hb, rfl, rfl⟩
  obtain ⟨t, ht, hte⟩ := runAll_reads he calls
  obtain ⟨d, hr, hd, _⟩ := ht start hs
  rw [hr]
  exact ⟨rfl, hd.unread_eq.trans hte.bytes⟩

end ReadCall

end FileBroker
