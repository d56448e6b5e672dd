import Mathlib
import FileBroker.Proofs.Channel.Receiving
import FileBroker.Proofs.Channel.Segmentation

namespace FileBroker

variable {δ : Type}

namespace Inbound

theorem gather_length (room : Nat) (queue : List (Segment δ)) : (gather room queue).1.length ≤ room := by
  induction queue generalizing room
  case nil => exact Nat.zero_le _
  case cons s queue hi =>
    unfold gather
    split
    case isTrue  => simp
    case isFalse =>
      have := hi (room - s.bytes.length)
      rw [List.length_append]
      omega

theorem paced_le (i : Inbound δ) (room : Nat) : i.paced room ≤ room := by
  unfold paced
  split
  case h_1 => exact Nat.le_refl _
  case h_2 => exact Nat.min_le_left ..

theorem receive_length {i j : Inbound δ} (h : i.receive room = (.ok (bytes, fds), j)) :
    bytes.length ≤ room := by
  unfold receive at h
  split at h
  case h_1 => grind
  case h_2 =>
    cases h
    exact Nat.le_trans (gather_length ..) (paced_le ..)

-- There is only one way to receive nothing.
theorem receive_zero {i j : Inbound δ} (hq : ∀ s ∈ i.queue, s.bytes ≠ []) (hr : 0 < room)
    (h : i.receive room = (.ok ([], fds), j)) : i.queue = [] ∧ i.ended = true := by
  by_cases hn : i.queue = []
  case pos =>
    rw [receive_nil hn] at h
    grind
  case neg =>
    have ⟨taken, _, ht, hne, _⟩ := receive_cons hq hn hr
    simp only [ht, Prod.mk.injEq, Except.ok.injEq] at h
    exact absurd (List.map_eq_nil_iff.mp h.left.left) hne

end Inbound

namespace Channel

namespace Checked

-- A part of some bytes, if it is one.
def slice (bytes : Bytes) (first last : Nat) : Option Bytes :=
  if first ≤ last ∧ last ≤ bytes.length then some ((bytes.take last).drop first) else none

def minus (m n : Nat) : Option Nat :=
  if n ≤ m then some (m - n) else none

-- The unread bytes are copied within the buffer, which has to hold where they come from and where they go.
def makeRoom (c : Channel δ) : Option (Channel δ) :=
  if c.stop ≠ c.capacity then some c
  else if 0 < c.start then do
    let moved ← slice c.buf c.start c.stop
    let rest ← slice c.buf moved.length c.capacity
    let stop ← minus c.stop c.start
    some { c with buf := moved ++ rest, start := 0, stop }
  else
    some { c with buf := c.buf ++ List.replicate c.capacity 0 }

-- There has to be room for a receive, so that one of no bytes is the end of the stream.
def receive (c : Channel δ) : Option (Except IoError Nat × Channel δ) := do
  let room ← slice c.buf c.stop c.capacity
  guard !room.isEmpty
  match c.inbound.receive room.length with
  | (.error e, inbound)         => some (.error e, { c with inbound })
  | (.ok (bytes, fds), inbound) =>
    guard (!bytes.isEmpty || c.inbound.queue.isEmpty && c.inbound.ended)
    let before ← slice c.buf 0 c.stop
    let behind ← slice c.buf (c.stop + bytes.length) c.capacity
    some (.ok bytes.length, { c with
      inbound
      buf     := before ++ bytes ++ behind
      stop    := c.stop + bytes.length
      pending := c.pending ++ fds })

def fill (c : Channel δ) : Option (Except IoError Nat × Channel δ) := do
  (← makeRoom c) |> receive

theorem makeRoom_inbound {c d : Channel δ} (h : makeRoom c = some d) : d.inbound = c.inbound := by
  unfold makeRoom at h
  split at h
  case isTrue => cases h; rfl
  case isFalse =>
    split at h
    case isTrue =>
      simp only [Option.bind_eq_bind, Option.bind_eq_some_iff, Option.some.injEq] at h
      obtain ⟨_, _, _, _, _, _, rfl⟩ := h
      rfl
    case isFalse => cases h; rfl

theorem receive_size {c d : Channel δ} (h : receive c = some (.ok n, d)) :
    n + d.inbound.size = c.inbound.size := by
  simp only [receive, Option.bind_eq_bind, Option.bind_eq_some_iff] at h
  obtain ⟨room, _, _, _, h⟩ := h
  split at h
  case h_1 => simp at h
  case h_2 hr =>
    simp only [Option.bind_eq_some_iff, Option.some.injEq, Prod.mk.injEq, Except.ok.injEq] at h
    obtain ⟨_, _, _, _, _, _, rfl, rfl⟩ := h
    exact Inbound.receive_size hr

theorem fill_size_lt {c d : Channel δ} (h : fill c = some (.ok (n + 1), d)) :
    d.inbound.size < c.inbound.size := by
  simp only [fill, Option.bind_eq_bind, Option.bind_eq_some_iff] at h
  have ⟨e, he, hr⟩ := h
  have := receive_size hr
  rw [makeRoom_inbound he] at this
  omega

def readField (ends : UInt8 → Bool) (what : Unfinished) (scanned : Nat) (c : Channel δ) :
    Option (Except IoError (Bytes × UInt8) × Channel δ) := do
  let window ← slice c.buf (c.start + scanned) c.stop
  match window.findIdx? ends with
  | some i =>
    let stop := c.start + scanned + i
    let last ← c.buf[stop]?
    let bytes ← slice c.buf c.start stop
    some (.ok (bytes, last), { c with start := stop + 1 })
  | none =>
    let scanned ← minus c.stop c.start
    match _h : fill c with
    | none                    => none
    | some (.error e, d)      => some (.error e, d)
    | some (.ok 0, d)         => some (.error (.closedDuring what), d)
    | some (.ok (_ + 1), d)   => readField ends what scanned d
termination_by c.inbound.size
decreasing_by exact fill_size_lt ‹_›

def readMessage (c : Channel δ) : Option (Except IoError String × Channel δ) :=
  (readField (· == 0) .delimited 0 c).map fun (r, d) => (r.map (Utf8.decodeLossy ·.1), d)

def atEnd (c : Channel δ) : Option (Except IoError Bool × Channel δ) :=
  if c.start < c.stop then some (.ok false, c) else do
  match ← fill c with
  | (.ok n, d)    => some (.ok (n = 0), d)
  | (.error e, d) => some (.error e, d)

-- The bytes go to where they belong in `out`, behind those that have been copied there.
def readExact (out : Bytes) (copied : Nat) (c : Channel δ) :
    Option (Except IoError Bytes × Channel δ) := do
  let count := min (← minus out.length copied) (← minus c.stop c.start)
  let before ← slice out 0 copied
  let bytes ← slice c.buf c.start (c.start + count)
  let behind ← slice out (copied + count) out.length
  let out := before ++ bytes ++ behind
  if copied + count = out.length then
    some (.ok out, c.consume count)
  else
    match _h : fill (c.consume count) with
    | none                  => none
    | some (.error e, d)    => some (.error e, d)
    | some (.ok 0, d)       => some (.error (.closedDuring .fixed), d)
    | some (.ok (_ + 1), d) => readExact out (copied + count) d
termination_by c.inbound.size
decreasing_by exact fill_size_lt (c := c.consume _) ‹_›

def shown (take : σ → Bytes → σ × Nat) (s : σ) (c : Channel δ) : Option (σ × Nat) :=
  if c.start < c.stop then (slice c.buf c.start c.stop).map (take s) else some (s, 0)

def readWith (take : σ → Bytes → σ × Nat) (done : σ → Bool) (s : σ) (c : Channel δ) :
    Option (Except IoError σ × Channel δ) := do
  let fed ← shown take s c
  if c.start < c.stop ∧ done fed.1 then
    some (.ok fed.1, c.consume fed.2)
  else
    match _h : fill (c.consume fed.2) with
    | none                  => none
    | some (.error e, d)    => some (.error e, d)
    | some (.ok 0, d)       => some (.error (.closedDuring .record), d)
    | some (.ok (_ + 1), d) => readWith take done fed.1 d
termination_by c.inbound.size
decreasing_by exact fill_size_lt (c := c.consume _) ‹_›

def drain (c : Channel δ) : Option (Except IoError Nat × Channel δ) := do
  go (← minus c.stop c.start) { c with start := 0, stop := 0 }
where
  go (total : Nat) (c : Channel δ) : Option (Except IoError Nat × Channel δ) :=
    match _h : fill c with
    | none                  => none
    | some (.error e, d)    => some (.error e, d)
    | some (.ok 0, d)       => some (.ok total, { d with start := 0, stop := 0, pending := [] })
    | some (.ok (n + 1), d) => go (total + (n + 1)) { d with start := 0, stop := 0, pending := [] }
  termination_by c.inbound.size
  decreasing_by exact fill_size_lt ‹_›

theorem slice_eq (h : first ≤ last) (h' : last ≤ bytes.length) :
    slice bytes first last = some ((bytes.take last).drop first) :=
  if_pos ⟨h, h'⟩

theorem minus_eq (h : n ≤ m) : minus m n = some (m - n) :=
  if_pos h

variable {c : Channel δ}

theorem slice_held (h : c.Wf) : slice c.buf c.start c.stop = some c.held :=
  slice_eq h.start_le h.stop_le

theorem slice_rest (h : n ≤ c.capacity) : slice c.buf n c.capacity = some (c.buf.drop n) := by
  have hs := slice_eq h (Nat.le_refl c.buf.length)
  rwa [capacity, List.take_length] at hs

theorem makeRoom_eq (h : c.Wf) : makeRoom c = some c.makeRoom := by
  have hl := h.held_length
  have hs := h.start_le
  have hc := h.stop_le
  unfold makeRoom Channel.makeRoom
  by_cases hr : c.stop < c.capacity
  case pos => rw [if_pos (Nat.ne_of_lt hr), if_pos hr]
  case neg =>
    rw [if_neg (not_not_intro (by omega)), if_neg hr]
    split
    case isTrue =>
      have hm := slice_rest (c := c) (n := c.held.length) (by omega)
      simp only [slice_held h, minus_eq hs, hm, Option.bind_eq_bind, Option.bind_some]
    case isFalse => rfl

theorem receive_eq (h : c.Wf) (hr : c.stop < c.capacity) : receive c = some c.receive := by
  have hl : (c.buf.drop c.stop).length = c.capacity - c.stop := List.length_drop
  have hn : (c.buf.drop c.stop).isEmpty = false := by
    rw [List.isEmpty_eq_false_iff, ←List.length_pos_iff]
    omega
  unfold receive Channel.receive
  rw [slice_rest h.stop_le]
  simp only [Option.bind_eq_bind, Option.bind_some, hn, hl, Bool.not_false, guard_true]
  rcases hi : c.inbound.receive (c.capacity - c.stop) with ⟨_ | ⟨bytes, fds⟩, inbound⟩
  case error => rfl
  case ok    =>
    have hb : (!bytes.isEmpty || c.inbound.queue.isEmpty && c.inbound.ended) = true := by
      cases bytes
      case nil  => simp [Inbound.receive_zero h.bytes_ne (by omega) hi]
      case cons => rfl
    have hle := Inbound.receive_length hi
    have hbefore := slice_eq (Nat.zero_le c.stop) h.stop_le
    have hbehind := slice_rest (c := c) (n := c.stop + bytes.length) (by omega)
    simp only [hb, hbefore, hbehind, guard_true]
    rfl

theorem fill_eq (h : c.Wf) : fill c = some c.fill := by
  have ⟨hw, hr⟩ := makeRoom_wf h
  rw [fill, makeRoom_eq h]
  exact receive_eq hw hr

theorem fill_some (h : c.Wf) (hf : fill c = some r) : c.fill = r :=
  Option.some.inj <| (fill_eq h).symm.trans hf

theorem slice_window (h : c.Wf) (hn : n ≤ c.held.length) :
    slice c.buf (c.start + n) c.stop = some (c.held.drop n) := by
  have hl := h.held_length
  have hs := h.start_le
  rw [slice_eq (by omega) h.stop_le, held, List.drop_drop]

theorem slice_front (h : c.Wf) (hn : n ≤ c.held.length) :
    slice c.buf c.start (c.start + n) = some (c.held.take n) := by
  have hl := h.held_length
  have hs := h.start_le
  have hc := h.stop_le
  rw [slice_eq (Nat.le_add_right ..) (show c.start + n ≤ c.capacity by omega), held, List.take_drop,
    List.take_take, Nat.min_eq_left (by omega)]

theorem getElem?_held (h : c.Wf) (hn : n < c.held.length) : c.buf[c.start + n]? = some (c.held.getD n 0) := by
  have hl := h.held_length
  have hg : c.held[n]? = c.buf[c.start + n]? := by
    rw [held, List.getElem?_drop, List.getElem?_take_of_lt (by omega)]
  rw [←hg, List.getElem?_eq_getElem hn, List.getD_eq_getElem _ _ hn]

theorem readField_eq (h : c.Wf) (hs : scanned ≤ c.held.length) (ends : UInt8 → Bool) (what : Unfinished) :
    readField ends what scanned c = some (c.readField ends what scanned) := by
  induction hz : c.inbound.size using Nat.strongRecOn generalizing c scanned
  case ind z hi =>
    rw [readField, slice_window h hs, Channel.readField_eq]
    cases hf : (c.held.drop scanned).findIdx? ends
    case some i =>
      have hl := (List.findIdx?_eq_some_iff_getElem.mp hf).1
      rw [List.length_drop] at hl
      simp only [hf, Option.bind_eq_bind, Option.bind_some, Nat.add_assoc,
        getElem?_held h (show scanned + i < c.held.length by omega),
        slice_front h (show scanned + i ≤ c.held.length by omega)]
      rfl
    case none =>
      simp only [hf, minus_eq h.start_le, ←h.held_length, Option.bind_eq_bind, Option.bind_some]
      split
      case h_1 he => nomatch (fill_eq h).symm.trans he
      case h_2 he => simp only [fill_some h he]
      case h_3 he => simp only [fill_some h he]
      case h_4 he =>
        have he := fill_some h he
        have ⟨_, hk⟩ := he ▸ fill_keeps h
        simp only [he]
        exact hi _ (hz ▸ Channel.fill_size_lt he) hk.wf (by simp [hk.held]) rfl

theorem readMessage_eq (h : c.Wf) : readMessage c = some c.readMessage := by
  rw [readMessage, readField_eq h (Nat.zero_le _), Channel.readMessage, readUntil]
  rcases c.readField (· == 0) .delimited 0 with ⟨_ | _, _⟩ <;> rfl

theorem atEnd_eq (h : c.Wf) : atEnd c = some c.atEnd := by
  unfold atEnd Channel.atEnd
  split
  case isTrue  => rfl
  case isFalse =>
    rw [fill_eq h]
    rcases c.fill with ⟨_ | _, _⟩ <;> rfl

theorem length_overwrite {out bytes : Bytes} (h : copied + bytes.length ≤ out.length) :
    (out.take copied ++ bytes ++ out.drop (copied + bytes.length)).length = out.length := by
  simp only [List.length_append, List.length_take, List.length_drop]
  omega

theorem take_overwrite {out bytes : Bytes} (h : copied + bytes.length ≤ out.length) :
    (out.take copied ++ bytes ++ out.drop (copied + bytes.length)).take (copied + bytes.length) =
      out.take copied ++ bytes :=
  List.take_left' <| by
    simp only [List.length_append, List.length_take]
    omega

-- The part of `out` that has not been copied yet is what is still to be read.
theorem readExact_eq {out : Bytes} (h : c.Wf) (hc : copied ≤ out.length) :
    readExact out copied c =
      let (r, d) := c.readExact (out.length - copied)
      some (r.map (out.take copied ++ ·), d) := by
  induction hz : c.inbound.size using Nat.strongRecOn generalizing c copied out
  case ind z hi =>
    rw [readExact, minus_eq hc, minus_eq h.start_le, ←h.held_length]
    simp only [Option.bind_eq_bind, Option.bind_some]
    generalize hn : min (out.length - copied) c.held.length = n
    have hl : (c.held.take n).length = n := List.length_take_of_le (by omega)
    have hle : copied + (c.held.take n).length ≤ out.length := by omega
    have hol := length_overwrite hle
    have hot := take_overwrite hle
    rw [hl] at hol hot
    rw [slice_eq (Nat.zero_le _) hc, slice_front h (by omega), slice_eq (by omega) (Nat.le_refl _),
      List.take_length]
    simp only [Option.bind_some, List.drop_zero, hol]
    by_cases hd : out.length - copied ≤ c.held.length
    case pos =>
      obtain rfl : out.length - copied = n := by omega
      rw [if_pos (by omega), readExact_of_le hd, Nat.add_sub_cancel' hc, List.drop_length, List.append_nil]
      rfl
    case neg =>
      obtain rfl : c.held.length = n := by omega
      have hw := (consume_receives h (Nat.le_refl _)).wf
      rw [List.take_length] at hol hot ⊢
      rw [if_neg (by omega), readExact_of_lt (Nat.not_le.mp hd)]
      split
      case h_1 he => nomatch (fill_eq hw).symm.trans he
      case h_2 he => rw [fill_some hw he]; rfl
      case h_3 he => rw [fill_some hw he]; rfl
      case h_4 d he =>
        have he := fill_some hw he
        have ⟨_, hk⟩ := he ▸ fill_keeps hw
        rw [hi _ (hz ▸ Channel.fill_size_lt (c := c.consume _) he) hk.wf (by omega) rfl, he, hol, hot,
          Nat.sub_add_eq]
        rcases hr : d.readExact (out.length - copied - c.held.length) with ⟨_ | _, _⟩
        case error => simp only [hr]; rfl
        case ok    => simp [hr, Except.map]

theorem shown_eq (h : c.Wf) (take : σ → Bytes → σ × Nat) (s : σ) :
    shown take s c = some (if c.start < c.stop then take s c.held else (s, 0)) := by
  unfold shown
  split
  case isTrue  => rw [slice_held h]; rfl
  case isFalse => rfl

-- The decoder is shown no more than there is, and takes no more than it is shown.
theorem readWith_eq {take : σ → Bytes → σ × Nat} (ht : ∀ s chunk, (take s chunk).2 ≤ chunk.length)
    (h : c.Wf) (done : σ → Bool) (s : σ) : readWith take done s c = some (c.readWith take done s) := by
  induction hz : c.inbound.size using Nat.strongRecOn generalizing c s
  case ind z hi =>
    rw [readWith, shown_eq h, StatDecoder.readWith_eq]
    simp only [Option.bind_eq_bind, Option.bind_some]
    generalize hf : (if c.start < c.stop then take s c.held else (s, 0)) = fed
    have hl : fed.2 ≤ c.held.length := by
      subst hf
      split
      case isTrue  => exact ht s c.held
      case isFalse => exact Nat.zero_le _
    have hw := (consume_receives h hl).wf
    split
    case isTrue  => rfl
    case isFalse =>
      split
      case h_1 he => nomatch (fill_eq hw).symm.trans he
      case h_2 he => rw [fill_some hw he]
      case h_3 he => rw [fill_some hw he]
      case h_4 he =>
        have he := fill_some hw he
        have ⟨_, hk⟩ := he ▸ fill_keeps hw
        rw [he]
        exact hi _ (hz ▸ Channel.fill_size_lt (c := c.consume _) he) hk.wf fed.1 rfl

theorem emptied_wf (h : c.Wf) (fds : List δ) : { c with start := 0, stop := 0, pending := fds }.Wf :=
  ⟨Nat.le_refl _, Nat.zero_le _, h.capacity_pos, h.bytes_ne⟩

theorem drain_go_eq (h : c.Wf) (total : Nat) : drain.go total c = some (Channel.drain.go total c) := by
  induction hz : c.inbound.size using Nat.strongRecOn generalizing c total
  case ind z hi =>
    rw [drain.go, Channel.drain_go_eq]
    split
    case h_1 he => nomatch (fill_eq h).symm.trans he
    case h_2 he => rw [fill_some h he]
    case h_3 he => rw [fill_some h he]
    case h_4 d he =>
      have he := fill_some h he
      have ⟨_, hk⟩ := he ▸ fill_keeps h
      have hw : d.Wf := hk.wf
      rw [he]
      have hlt : d.inbound.size < z := hz ▸ Channel.fill_size_lt he
      exact hi _ hlt (emptied_wf hw []) _ rfl

theorem drain_eq (h : c.Wf) : drain c = some c.drain := by
  rw [drain, minus_eq h.start_le, ←h.held_length]
  exact drain_go_eq (emptied_wf h c.pending) c.held.length

end Checked

end Channel

namespace ReadCall

open Channel

-- A reading operation with everything checked that its buffer is asked for.
def checked : ReadCall α → Channel δ → Option (Except IoError α × Channel δ)
  | upTo delimiter, c =>
    (Checked.readField (· == delimiter) .delimited 0 c).map fun (r, d) => (r.map (·.1), d)
  | token,          c =>
    (Checked.readField (fun b => b == 32 || b == 10) .token 0 c).map fun (r, d) =>
      (r.map fun (bytes, last) => (bytes, if last = 32 then .space else .newline), d)
  | message,        c => Checked.readMessage c
  | messageOrEnd,   c => do
    match ← Checked.atEnd c with
    | (.ok true, d)  => some (.ok none, d)
    | (.ok false, d) => (Checked.readMessage d).map fun (r, d) => (r.map some, d)
    | (.error e, d)  => some (.error e, d)
  | exact count,    c => Checked.readExact (List.replicate count 0) 0 c
  | stat,           c =>
    (Checked.readWith StatDecoder.feed (·.outcome.isSome) {} c).map fun (r, d) => (r.map (·.outcome), d)
  | atEnd,          c => Checked.atEnd c
  | drain,          c => Checked.drain c

variable {c : Channel δ}

-- On a channel in good order no check fails.
theorem checked_eq (h : c.Wf) (call : ReadCall α) : call.checked c = some (call.run c) := by
  cases call
  case upTo delimiter =>
    rw [checked, Checked.readField_eq h (Nat.zero_le _), run, readUntil]
    rcases c.readField (· == delimiter) .delimited 0 with ⟨_ | _, _⟩ <;> rfl
  case token =>
    rw [checked, Checked.readField_eq h (Nat.zero_le _), run, readToken]
    rcases c.readField (fun b => b == 32 || b == 10) .token 0 with ⟨_ | _, _⟩ <;> rfl
  case message => exact Checked.readMessage_eq h
  case messageOrEnd =>
    obtain ⟨_, hk⟩ := atEnd_keeps h
    rw [checked, Checked.atEnd_eq h, run, readMessage?]
    rcases he : c.atEnd with ⟨_ | _ | _, d⟩
    case error    => rfl
    case ok.true  => rfl
    case ok.false =>
      simp only [he] at hk
      simp only [Option.bind_eq_bind, Option.bind_some, Checked.readMessage_eq hk.wf]
      rcases d.readMessage with ⟨_ | _, _⟩ <;> rfl
  case exact count =>
    rw [checked, Checked.readExact_eq h (Nat.zero_le _), List.length_replicate]
    rw [run, Nat.sub_zero]
    rcases c.readExact count with ⟨_ | _, _⟩ <;> rfl
  case stat =>
    rw [checked, Checked.readWith_eq StatDecoder.feed_le h]
    rfl
  case atEnd => exact Checked.atEnd_eq h
  case drain => exact Checked.drain_eq h

end ReadCall

end FileBroker
