import Mathlib
import FileBroker.Helper.Execute
import FileBroker.Proofs.Channel.Computation
import FileBroker.Proofs.Reply.ErrorText
import FileBroker.Proofs.Reply.Grammar
import FileBroker.Proofs.Stat.Decoding
import FileBroker.Proofs.Stat.Record

namespace FileBroker

open Channel Reading StatDecoder

variable {δ : Type} {s t : Stream δ}

namespace Reply

-- A reply as its receiver is to see it.
def answer : Reply δ → Answer δ
  | ready              => { message := readyStatus }
  | readyWithFd fd     => { message := readyStatus, fd }
  | readyWithText text => { message := readyStatus, data := some (.text (Utf8.decodeLossy text)) }
  | failure text       => { message := text }
  | stat snapshot      => { message := readyStatus, data := some (.stat snapshot) }
  | statFailure text   => { message := text }
  | watchId id         => { message := Decimal.text id.toInt }

-- The replies that a receiver can tell apart when it expects this shape.
inductive Suits : ReplyShape → Reply δ → Prop
  | ready : Suits .status ready
  | readyWithFd (fd : δ) : Suits .statusWithDescriptor (readyWithFd fd)
  | readyWithText {text : Bytes} : 0 ∉ text → Suits .statusWithText (readyWithText text)
  | failure {shape : ReplyShape} {text : String} :
    shape ≠ .snapshot → 0 ∉ Utf8.encode text → text ≠ readyStatus → Suits shape (failure text)
  | stat (snapshot : Snapshot) : Suits .snapshot (stat snapshot)
  | statFailure {text : String} : 0 ∉ Utf8.encode text → Suits .snapshot (statFailure text)
  | watchId (id : Int32) : Suits .watchId (watchId id)

-- An error number is reported in the shape that its operation calls for.
theorem suits_failure (o : Operation) (h : 0 < code) :
    Suits o.reply (Record.failure o code : Reply δ) := by
  have hn := ErrorText.render_no_nul code
  by_cases ho : o = .stat
  case pos =>
    subst ho
    exact .statFailure hn
  case neg =>
    have hs : o.reply ≠ .snapshot := by cases o <;> simp_all [Operation.reply]
    have hf : (Record.failure o code : Reply δ) = .failure (ErrorText.render code) := by
      cases o <;> simp_all [Record.failure]
    rw [hf]
    exact .failure hs hn (ErrorText.render_ne_ready h)

end Reply

-- Nothing is on its way, and nothing is left over.
structure Stream.Quiet (s : Stream δ) : Prop where
  cells : s.cells = []
  loose : s.loose = []

theorem Stream.Quiet.eq (h : s.Quiet) : { s with loose := [] } = s := by
  rw [←h.loose]

theorem Stream.Quiet.behind (h : s.Quiet) (bytes : Bytes) :
    { s with cells := ({ bytes } : Segment δ).cells } = s.behind bytes := by
  rw [Segment.cells_plain, Stream.behind, h.cells, List.append_nil]

namespace Channel

-- With nothing on its way, all descriptors at hand came with what has been read.
theorem Carries.claim {c : Channel δ} (hc : c.Carries s) (hs : s.cells = []) (fds : List δ) :
    { c with pending := fds }.Carries { s with loose := fds } := by
  have ⟨hh, hq, _⟩ := hc.held_of_cells_nil hs
  refine ⟨⟨hc.start_le, hc.stop_le, hc.capacity_pos, hc.bytes_ne⟩, ⟨[], hh.symm, ?_, by simp⟩,
    hc.ended, hc.reset⟩
  simp [Inbound.cells, hq, hs]

theorem takeFd_reads (hs : s.cells = []) (fd : δ) :
    Reads takeFd { s with loose := [fd] } (some fd) { s with loose := [] } := by
  intro c hc
  have ⟨_, _, hp⟩ := hc.held_of_cells_nil hs
  exact ⟨{ c with pending := [] }, by rw [takeFd, hp], hc.claim hs [], rfl⟩

theorem takeFd_reads_none (hs : s.Quiet) : Reads takeFd s none s := by
  intro c hc
  have ⟨_, _, hp⟩ := hc.held_of_cells_nil hs.cells
  exact ⟨{ c with pending := [] }, by rw [takeFd, hp, hs.loose], hs.eq ▸ hc.claim hs.cells [], rfl⟩

theorem discardFds_reads (hs : s.Quiet) :
    Reads (fun c => (PUnit.unit, c.discardFds)) s PUnit.unit s :=
  fun _ hc => ⟨_, rfl, hs.eq ▸ hc.claim hs.cells [], rfl⟩

end Channel

namespace Answer

theorem readStat_yields (ho : verdict s.bytes = some o) :
    Yields readStat s (.ok o) (s.advance (extent s.bytes)) := by
  have hv := verdict_take_extent s.bytes
  refine (yields_io <| readStat_found ho).bind ?_
  rw [ho] at hv
  simp only [after, hv]
  exact yields_pure _

theorem message_yields {text : String} (ht : 0 ∉ Utf8.encode text) :
    Yields (io readMessage) (s.behind (Reply.terminated (Utf8.encode text))) (.ok text) s := by
  have := yields_io (s := s.behind (Utf8.encode text ++ [0])) <| readMessage_behind ht
  rwa [Utf8.decodeLossy_encode] at this

theorem discarded_yields (hs : s.Quiet) (a : Answer δ) :
    Yields (do modify discardFds; return a : Reading δ FrameError (Answer δ)) s (.ok a) s :=
  (yields_modifyGet <| discardFds_reads hs).bind <| yields_pure a

theorem number_no_nul (n : Int) : 0 ∉ Utf8.encode (Decimal.text n) := by
  intro h
  exact absurd (Record.mem_number h (by decide)) (by decide)

theorem readStat_snapshot (hs : s.Quiet) (snapshot : Snapshot) :
    Yields readStat (s.behind snapshot.reply) (.ok (.snapshot snapshot)) s := by
  have hb : (s.behind snapshot.reply).bytes = snapshot.reply := by
    simp [Stream.bytes, hs.cells, Stream.behind, Function.comp_def]
  have hl : snapshot.reply.length = 40 := by
    simp [Snapshot.reply, Snapshot.successIndicator, LittleEndian.encode_length,
      Snapshot.indicatorLength, Snapshot.recordLength]
  have ht : snapshot.reply.take 8 = Snapshot.successIndicator := List.take_left' rfl
  have hd : (snapshot.reply.drop 8).take 32 = snapshot.record := by
    rw [Snapshot.reply, List.drop_left' (i := 8) rfl]
    exact List.take_of_length_le <| Nat.le_of_eq snapshot.record_length
  have hv : verdict snapshot.reply = some (.snapshot snapshot) := by
    simp [verdict, hl, ht, hd, Snapshot.ofRecord_record]
    decide
  have hx : extent snapshot.reply = snapshot.reply.length := by
    simp [extent, hl, ht]
    decide
  have := readStat_yields (hb.symm ▸ hv)
  rwa [hb, hx, Stream.behind_advance] at this

theorem readStat_failure (s : Stream δ) (text : String) :
    Yields readStat (s.behind (Snapshot.failureReply text)) (.ok .errorFollows)
      (s.behind (Reply.terminated (Utf8.encode text))) := by
  have ht (bytes : Bytes) : (Snapshot.failureIndicator ++ bytes).take 8 = Snapshot.failureIndicator :=
    List.take_left' rfl
  have hz : LittleEndian.decode Snapshot.failureIndicator ≠ 0 := by decide
  have hl : Snapshot.failureIndicator.length = 8 := rfl
  rw [Snapshot.failureReply, List.append_assoc, Stream.behind_append]
  have hv : verdict ((s.behind (Reply.terminated (Utf8.encode text))).behind
      Snapshot.failureIndicator).bytes = some .errorFollows := by
    simp [verdict, ht, hz, hl]
  have hx : extent ((s.behind (Reply.terminated (Utf8.encode text))).behind
      Snapshot.failureIndicator).bytes = Snapshot.failureIndicator.length := by
    simp [extent, ht, hz, hl]
  have := readStat_yields hv
  rwa [hx, Stream.behind_advance] at this

-- The descriptor comes with the first byte.
theorem ready_with_fd_reads (hs : s.Quiet) (fd : δ) :
    Reads readMessage { s with cells := (Reply.readyWithFd fd).segment.cells } (.ok readyStatus)
      { s with loose := [fd] } := by
  let g := (Reply.readyWithFd fd).segment
  have hb : Stream.bytes { s with cells := g.cells } = Utf8.encode readyStatus ++ 0 :: [] :=
    g.cells_bytes
  have hn : g.cells.length = (Utf8.encode readyStatus).length + 1 := by
    rw [←List.length_map, g.cells_bytes]
    exact List.length_append
  have hf : g.cells.flatMap (·.2) = [fd] :=
    Segment.cells_fds (by simp [g, Reply.segment, Reply.readyBytes, Reply.terminated])
  have := readMessage_found hb ready_no_nul
  rw [Utf8.decodeLossy_encode, ←hn] at this
  simpa [Stream.advance, hf, hs.loose, hs.cells] using this

theorem read_yields {shape : ReplyShape} {reply : Reply δ} (h : reply.Suits shape) (hs : s.Quiet) :
    Yields (read shape) { s with cells := reply.segment.cells } (.ok reply.answer) s := by
  cases h
  case ready =>
    rw [Reply.segment, hs.behind]
    exact (message_yields ready_no_nul).bind <| discarded_yields hs _
  case readyWithFd fd =>
    refine (yields_io <| ready_with_fd_reads hs fd).bind ?_
    exact (yields_modifyGet <| takeFd_reads hs.cells fd).bind <| hs.eq.symm ▸ yields_pure _
  case readyWithText text ht =>
    rw [Reply.segment, hs.behind, Stream.behind_append]
    refine (message_yields ready_no_nul).bind ?_
    have hm := ((yields_io <| readMessage_behind (s := s) ht).map Payload.text).map some
    exact hm.bind <| discarded_yields hs _
  case failure text hn ht hr =>
    rw [Reply.segment, hs.behind]
    have hm := message_yields (s := s) hn
    cases shape
    case snapshot         => contradiction
    case status | watchId => exact hm.bind <| discarded_yields hs _
    case statusWithDescriptor =>
      refine hm.bind ?_
      exact (yields_modifyGet <| takeFd_reads_none hs).bind <| yields_pure _
    case statusWithText =>
      refine hm.bind ?_
      rw [if_neg ht]
      exact (yields_pure none).bind <| discarded_yields hs _
  case stat snapshot =>
    rw [Reply.segment, hs.behind]
    exact (readStat_snapshot hs snapshot).bind <| discarded_yields hs _
  case statFailure text ht =>
    rw [Reply.segment, hs.behind]
    refine (readStat_failure s text).bind ?_
    exact (message_yields ht).bind <| discarded_yields hs _
  case watchId id =>
    rw [Reply.segment, hs.behind]
    exact (message_yields <| number_no_nul _).bind <| discarded_yields hs _

end Answer

end FileBroker
