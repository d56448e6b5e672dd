import Mathlib
import FileBroker.Proofs.Stat.Decoding

namespace FileBroker

theorem LittleEndian.decode_eq_zero_iff : decode bytes = 0 ↔ ∀ b ∈ bytes, b = 0 := by
  induction bytes
  case nil => simp [decode]
  case cons b bytes hi =>
    rw [decode, Nat.add_eq_zero_iff, List.forall_mem_cons, ←hi, Nat.mul_eq_zero]
    simp [←UInt8.toNat_inj]

namespace StatDecoder

-- The first `n` bytes are all that a reply needs, and `o` is what they say.
inductive Completes (bytes : Bytes) : (n : Nat) → (o : StatOutcome) → Prop
  | text : 8 ≤ bytes.length → (∃ b ∈ bytes.take 8, b ≠ 0) → Completes bytes 8 .errorFollows
  | record : 40 ≤ bytes.length → (∀ b ∈ bytes.take 8, b = 0) →
    Completes bytes 40 (.snapshot (.ofRecord ((bytes.drop 8).take 32)))

theorem completes_iff : Completes bytes n o ↔ verdict bytes = some o ∧ extent bytes = n := by
  have hz : LittleEndian.decode (bytes.take 8) = 0 ↔ _ := LittleEndian.decode_eq_zero_iff
  constructor
  case mp =>
    intro h
    cases h
    case text hl hb =>
      have hn : LittleEndian.decode (bytes.take 8) ≠ 0 := by simpa [hz] using hb
      obtain h | ⟨_, _, hv, hx⟩ | h | h := verdict_cases bytes
      case inr.inl => exact ⟨hv, hx⟩
      all_goals omega
    case record hl hb =>
      have hn := hz.mpr hb
      obtain h | h | h | ⟨_, _, hv, hx⟩ := verdict_cases bytes
      case inr.inr.inr => exact ⟨hv, hx⟩
      all_goals omega
  case mpr =>
    rintro ⟨hv, rfl⟩
    obtain ⟨_, hv', _⟩ | ⟨hl, hn, hv', hx⟩ | ⟨_, _, _, hv', _⟩ | ⟨hl, hn, hv', hx⟩ := verdict_cases bytes
    case inr.inl =>
      cases hv'.symm.trans hv
      rw [hx]
      exact .text hl <| by simpa [hz] using hn
    case inr.inr.inr =>
      cases hv'.symm.trans hv
      rw [hx]
      exact .record hl <| hz.mp hn
    all_goals exact nomatch hv'.symm.trans hv

-- A decoder that has been offered these bytes. It has taken those of them that belong to a reply.
def offered (bytes : Bytes) : StatDecoder :=
  after (bytes.take (extent bytes))

theorem offered_outcome (bytes : Bytes) : (offered bytes).outcome = verdict bytes :=
  verdict_take_extent bytes

theorem offered_append (h : verdict bytes = some o) (more : Bytes) :
    offered (bytes ++ more) = offered bytes := by
  rw [offered, (verdict_append h more).right, List.take_append_of_le_length (extent_le bytes), offered]

theorem extent_mono (bytes more : Bytes) : extent bytes ≤ extent (bytes ++ more) := by
  cases hv : verdict bytes
  case some => exact Nat.le_of_eq (verdict_append hv more).right.symm
  case none =>
    rw [extent_of_verdict_none hv]
    cases hd : verdict (bytes ++ more)
    case some => exact length_le_extent hv hd
    case none => simp [extent_of_verdict_none hd]

theorem feed_offered (seen chunk : Bytes) :
    (offered seen).feed chunk = (offered (seen ++ chunk), extent (seen ++ chunk) - extent seen) := by
  cases hv : verdict seen
  case none =>
    have hx := extent_of_verdict_none hv
    rw [offered, hx, List.take_length, feed_after hv]
    rfl
  case some =>
    have ho : (offered seen).outcome.isSome := by rw [offered_outcome, hv]; rfl
    rw [feed, if_pos ho, offered_append hv, (verdict_append hv chunk).right, Nat.sub_self]

-- The decoder after some chunks.
def fed (chunks : List Bytes) : StatDecoder :=
  chunks.foldl (fun d chunk => (d.feed chunk).1) {}

theorem foldl_feed (seen : Bytes) (chunks : List Bytes) :
    chunks.foldl (fun d chunk => (d.feed chunk).1) (offered seen) = offered (seen ++ chunks.flatten) := by
  induction chunks generalizing seen
  case nil => simp
  case cons chunk chunks hi => simp [feed_offered, hi]

theorem fed_eq (chunks : List Bytes) : fed chunks = offered chunks.flatten :=
  foldl_feed [] chunks

-- Feeds one chunk after the other until the decoder is done, and counts what it takes.
def feedAll (d : StatDecoder) : List Bytes → StatDecoder × Nat
  | []              => (d, 0)
  | chunk :: chunks =>
    let (d, taken) := d.feed chunk
    if d.outcome.isSome then (d, taken) else
    let (d, more) := d.feedAll chunks
    (d, taken + more)

theorem feedAll_offered (seen : Bytes) (chunks : List Bytes) :
    (offered seen).feedAll chunks =
      (offered (seen ++ chunks.flatten), extent (seen ++ chunks.flatten) - extent seen) := by
  induction chunks generalizing seen
  case nil => simp [feedAll]
  case cons chunk chunks hi =>
    rw [feedAll, feed_offered]
    dsimp only
    rw [offered_outcome, List.flatten_cons, ←List.append_assoc]
    split
    case isTrue hv =>
      have ⟨o, hv⟩ := Option.isSome_iff_exists.mp hv
      rw [offered_append hv, (verdict_append hv _).right]
    case isFalse =>
      have := extent_mono seen chunk
      have := extent_mono (seen ++ chunk) chunks.flatten
      rw [hi]
      dsimp only
      congr 1
      omega

-- A reply is decoded from its bytes, and from no more of them than it needs, wherever they are divided
-- and however many of the chunks are empty.
theorem chunks_make_no_difference (chunks : List Bytes) :
    (∀ n o, Completes chunks.flatten n o →
      (feedAll {} chunks).2 = n ∧ (feedAll {} chunks).1.outcome = some o ∧
      ∀ front chunk back, chunks = front ++ chunk :: back →
        ((fed front).outcome = none ∧ ((fed front).feed chunk).1.outcome.isSome ↔
          front.flatten.length < n ∧ n ≤ front.flatten.length + chunk.length)) ∧
    ((¬∃ n o, Completes chunks.flatten n o) →
      (feedAll {} chunks).2 = chunks.flatten.length ∧ (feedAll {} chunks).1.outcome = none ∧
      ∀ front back, chunks = front ++ back → (fed front).outcome = none) ∧
    ∀ front chunk,
      (((fed front).feed chunk).1.outcome = none → ((fed front).feed chunk).2 = chunk.length) ∧
      ((fed front).outcome.isSome → (fed front).feed chunk = (fed front, 0)) := by
  have hall : feedAll {} chunks = (offered chunks.flatten, extent chunks.flatten) :=
    feedAll_offered [] chunks
  rw [hall]
  dsimp only
  refine ⟨fun n o hc => ?complete, fun hn => ?incomplete, fun front chunk => ?feed⟩
  case complete =>
    obtain ⟨hv, rfl⟩ := completes_iff.mp hc
    refine ⟨rfl, (offered_outcome _).trans hv, fun front chunk back hs => ?_⟩
    rw [fed_eq, feed_offered, offered_outcome, offered_outcome, ←Option.not_isSome_iff_eq_none]
    have hb : chunks.flatten = (front.flatten ++ chunk) ++ back.flatten := by simp [hs]
    rw [hb] at hv ⊢
    rw [verdict_isSome_iff hv, List.length_append]
    rw [List.append_assoc] at hv ⊢
    rw [verdict_isSome_iff hv, Nat.not_le]
  case incomplete =>
    have hv : verdict chunks.flatten = none := by
      refine Option.eq_none_iff_forall_ne_some.mpr fun o hv => hn ⟨_, o, completes_iff.mpr ⟨hv, rfl⟩⟩
    refine ⟨extent_of_verdict_none hv, (offered_outcome _).trans hv, fun front back hs => ?_⟩
    rw [hs, List.flatten_append] at hv
    rw [fed_eq, offered_outcome]
    exact verdict_of_append_none hv
  case feed =>
    rw [fed_eq, feed_offered, offered_outcome, offered_outcome]
    refine ⟨fun hv => ?_, fun hv => ?_⟩
    · rw [extent_of_verdict_none hv, extent_of_verdict_none (verdict_of_append_none hv)]
      simp
    · have ⟨_, hv⟩ := Option.isSome_iff_exists.mp hv
      rw [offered_append hv, (verdict_append hv chunk).right, Nat.sub_self]

end StatDecoder

end FileBroker
