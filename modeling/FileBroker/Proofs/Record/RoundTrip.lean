import Mathlib
import FileBroker.Proofs.Channel.Computation
import FileBroker.Proofs.Channel.Sending
import FileBroker.Proofs.Record.Layout

namespace FileBroker

open Channel Reading RecordWriter

variable {δ : Type} {s t : Stream δ}

namespace Stream

-- `s` behind one marker for each descriptor.
def marked (s : Stream δ) (fds : List δ) : Stream δ :=
  { s with cells := fds.map (fun fd => (marker, [fd])) ++ s.cells }

theorem marked_advance (s : Stream δ) (fds : List δ) :
    (s.marked fds).advance fds.length = { s with loose := s.loose ++ fds } := by
  have hf : fds.flatMap (fun fd => [fd]) = fds := by simp
  simp [marked, advance, List.flatMap_map, hf]

end Stream

-- A request as its receiver is to see it.
def Request.record (r : Request δ) : Record δ where
  operation := r.operation
  args      := r.args.map fun (_, n) => Int32.ofInt n
  paths     := r.paths
  fds       := r.fds

namespace Record

theorem readNumbers_yields (o : Operation) {numbers : List Int} {ends : List TokenEnd}
    (hl : numbers.length = ends.length) (hf : ∀ n ∈ numbers, Decimal.fits 32 n) :
    Yields (readNumbers o ends) (s.behind (tokens numbers ends)) (.ok (numbers.map Int32.ofInt)) s := by
  induction ends generalizing numbers
  case nil =>
    rw [List.length_nil, List.length_eq_zero_iff] at hl
    subst hl
    exact yields_pure []
  case cons last ends hi =>
    obtain ⟨n, numbers, rfl⟩ := List.exists_cons_of_length_eq_add_one hl
    have ⟨hn, hf⟩ := List.forall_mem_cons.mp hf
    rw [tokens, List.append_cons, Stream.behind_append, readNumbers]
    refine (yields_io <| readToken_behind last fun b => number_no_end).bind ?_
    simp only [ne_eq, not_true_eq_false, if_false]
    refine (yields_lift <| parseField_number hn).bind ?_
    exact (hi (Nat.succ.inj hl) hf).bind (yields_pure _)

theorem toInt_ofInt (h : Decimal.fits 32 n) : (Int32.ofInt n).toInt = n := by
  have hb := Decimal.fits_32_iff.mp h
  exact Int32.toInt_ofInt_of_le (by omega) (by omega)

theorem readPaths_yields {paths : List Bytes} (hf : ∀ p ∈ paths, Decimal.fits 32 (p.length : Int)) :
    Yields (readPaths (paths.map fun p => Int32.ofInt p.length)) (s.behind paths.flatten) (.ok paths)
      s := by
  induction paths
  case nil => exact yields_pure []
  case cons path paths hi =>
    have ⟨hp, hf⟩ := List.forall_mem_cons.mp hf
    have hl := toInt_ofInt hp
    have hn : ¬Int32.ofInt (path.length : Int) < 0 := by
      rw [Int32.lt_iff_toInt_lt, hl]
      simp
    rw [List.flatten_cons, Stream.behind_append, List.map_cons, readPaths]
    simp only [hn, if_false, hl, Int.toNat_natCast]
    refine (yields_io <| readExact_behind path).bind ?_
    exact (hi hf).bind (yields_pure _)

theorem keyword_no_newline (o : Operation) : newline ∉ Utf8.encode o.keyword := by
  intro h
  have := Utf8.mem_encode (by decide) h
  cases o <;> exact absurd this (by decide)

theorem ofKeyword?_keyword (o : Operation) : Operation.ofKeyword? o.keyword = some o := by
  cases o <;> rfl

theorem readKeyword_yields (o : Operation) :
    Yields readKeyword (s.behind (Utf8.encode o.keyword ++ [newline])) (.ok (some o)) s := by
  have hn : (s.behind (Utf8.encode o.keyword ++ [newline])).cells ≠ [] := by simp [Stream.behind]
  rw [readKeyword]
  refine (yields_io <| atEnd_false hn).bind ?_
  simp only [Bool.false_eq_true, if_false]
  refine (yields_io <| readUntil_behind <| keyword_no_newline o).bind ?_
  simp only [Utf8.decode?_encode, ofKeyword?_keyword]
  exact yields_pure _

-- The markers bring the descriptors that are then taken, and none is left over.
theorem readMarkers_reads (hs : s.loose = []) (fds : List δ) :
    Reads (readExact · fds.length) (s.marked fds) (.ok (fds.map fun _ => marker))
      { s with loose := fds } := by
  have hl : fds.length ≤ (s.marked fds).cells.length := by simp [Stream.marked]
  have hb : (s.marked fds).bytes.take fds.length = fds.map fun _ => marker := by
    simp [Stream.bytes, Stream.marked, Function.comp_def]
  have := readExact_enough hl
  rwa [Stream.marked_advance, hs, List.nil_append, hb] at this

theorem takeMarked_reads (hs : s.loose = []) (fds : List δ) :
    Reads (takeFds · fds.length) { s with loose := fds } fds s := by
  have := takeFds_reads (s := { s with loose := fds }) (Nat.le_refl fds.length)
  rwa [List.take_length, List.drop_length, ←hs] at this

theorem readBody_yields {r : Request δ} (hf : ∀ n ∈ r.numbers, Decimal.fits 32 n)
    (hs : s.loose = []) :
    Yields (readBody r.operation)
      ((s.marked r.fds).behind (tokens r.numbers (terminators r.operation) ++
        if r.operation.paths = 0 then [] else r.paths.flatten ++ [newline]))
      (.ok r.record) s := by
  have ⟨hc, hf'⟩ := List.forall_mem_cons.mp hf
  have hp : ∀ p ∈ r.paths, Decimal.fits 32 (p.length : Int) := fun p hm =>
    (List.forall_mem_append.mp hf').right _ <|
      List.mem_map_of_mem (f := fun p : Bytes => (p.length : Int)) hm
  have hl : r.numbers.length = (terminators r.operation).length := by
    simp [Request.numbers, terminators, r.args_length, r.paths_length]
  have hcount := toInt_ofInt hc
  have hlegal : ¬(Int32.ofInt (r.fds.length : Int) < 0 ∨ r.operation.slots < r.fds.length) := by
    have := r.fds_length_le
    rw [Int32.lt_iff_toInt_lt, hcount]
    simp
    omega
  have hlens : (r.numbers.map Int32.ofInt).drop (1 + r.operation.args) =
      r.paths.map fun p => Int32.ofInt p.length := by
    rw [Request.numbers, ←r.args_length, Nat.add_comm]
    simp [List.drop_left', Function.comp_def]
  have hargs : ((r.numbers.map Int32.ofInt).drop 1).take r.operation.args = r.record.args := by
    rw [Request.numbers, ←r.args_length]
    simp [List.take_left', Request.record, Function.comp_def]
  have hhead : (r.numbers.map Int32.ofInt).headD 0 = Int32.ofInt r.fds.length := rfl
  have hm := yields_io <| readMarkers_reads hs r.fds
  have ht := yields_modifyGet (ε := FrameError) <| takeMarked_reads hs r.fds
  rw [Stream.behind_append, readBody]
  refine (readNumbers_yields _ hl hf).bind ?_
  simp only [hhead, hcount, Int.toNat_natCast, hlegal, if_false, hlens, hargs]
  by_cases hz : r.operation.paths = 0
  case pos =>
    have hn : r.paths = [] := List.length_eq_zero_iff.mp <| r.paths_length.trans hz
    rw [if_pos hz, hz, hn]
    exact (yields_pure []).bind <| hm.bind <| ht.bind <| hn ▸ yields_pure r.record
  case neg =>
    rw [if_neg hz, Stream.behind_append]
    refine (readPaths_yields hp).bind ?_
    simp only [Nat.pos_of_ne_zero hz, if_true]
    have hline : Reads (readUntil · newline) ((s.marked r.fds).behind ([] ++ [newline])) (.ok [])
        (s.marked r.fds) :=
      readUntil_behind (by simp)
    refine (yields_io hline).bind ?_
    exact hm.bind <| ht.bind <| yields_pure r.record

theorem read_yields {r : Request δ} (hf : ∀ n ∈ r.numbers, Decimal.fits 32 n) (hs : s.loose = []) :
    Yields Record.read ((s.marked r.fds).behind r.layout) (.ok (some r.record)) s := by
  rw [Request.layout, List.append_cons, Stream.behind_append, Record.read]
  refine (readKeyword_yields r.operation).bind ?_
  exact (readBody_yields hf hs).bind (yields_pure _)

theorem read_yields_none (hs : s.cells = []) (he : s.ended) (hr : s.reset = false) :
    Yields Record.read s (.ok none) s.warned := by
  have ha := atEnd_nil hs
  simp only [Stream.silence, he, hr] at ha
  have hk : Yields readKeyword s (.ok none) s.warned := (yields_io ha).bind (yields_pure _)
  exact hk.bind (yields_pure _)

-- Between two requests the stream has nothing to read, and has not ended.
theorem read_yields_wait (hs : s.cells = []) (he : s.ended = false) (hr : s.reset = false) :
    Yields Record.read s (.error (.io .wouldBlock)) s.warned := by
  have ha := atEnd_nil hs
  simp only [Stream.silence, he, hr] at ha
  have hk : Yields readKeyword s (.error (.io .wouldBlock)) s.warned := (yields_io_error ha).bind_error
  exact hk.bind_error

end Record

namespace Channel

variable {c : Channel δ}

-- Transmits requests back to back.
def transmitAll : List (Encoded δ) → Channel δ → Except IoError Unit × Channel δ
  | [],      c => (.ok (), c)
  | e :: es, c =>
    match c.transmit e with
    | (.ok (), d)   => transmitAll es d
    | (.error e, d) => (.error e, d)

theorem layout_ne_nil (r : Request δ) : r.layout ≠ [] := by
  simp [Request.layout]

theorem transmitAll_ok (hp : c.patience = none) (es : List (Encoded δ)) :
    transmitAll es c = (.ok (), { c with sent := c.sent ++ es.flatMap (·.segments) }) := by
  induction es generalizing c
  case nil => simp [transmitAll]
  case cons e es hi =>
    rw [transmitAll, transmit_ok hp]
    dsimp only
    rw [hi (by exact hp)]
    simp

def readRecords : Nat → Channel δ → List (Except FrameError (Option (Record δ))) × Channel δ
  | 0,         c => ([], c)
  | count + 1, c =>
    let (r, c) := c.readRecord
    let (rs, c) := readRecords count c
    (r :: rs, c)

end Channel

namespace Request

def encoded (r : Request δ) : Encoded δ :=
  ⟨r.operation, r.layout, r.fds⟩

theorem encodeAll_ok {rs : List (Request δ)} (h : rs.mapM encode = .ok es) :
    es = rs.map encoded ∧ ∀ r ∈ rs, ∀ n ∈ r.numbers, Decimal.fits 32 n := by
  induction rs generalizing es
  case nil =>
    cases h
    simp
  case cons r rs hi =>
    rw [List.mapM_cons] at h
    have ⟨e, he, h⟩ := bind_eq_ok h
    have ⟨es, hes, h⟩ := bind_eq_ok h
    obtain ⟨rfl, hfs⟩ := hi hes
    obtain ⟨hf, rfl⟩ := encode_eq_ok_iff.mp he
    cases h
    exact ⟨rfl, List.forall_mem_cons.mpr ⟨hf, hfs⟩⟩

-- The requests on their way, in front of `s`.
def stream (s : Stream δ) (rs : List (Request δ)) : Stream δ :=
  rs.foldr (fun r s => (s.marked r.fds).behind r.layout) s

theorem stream_eq (s : Stream δ) (rs : List (Request δ)) :
    stream s rs =
      { s with cells := ((rs.map encoded).flatMap (·.segments)).flatMap (·.cells) ++ s.cells } := by
  induction rs
  case nil => rfl
  case cons r rs hi =>
    rw [stream, List.foldr_cons, ←stream, hi, List.map_cons, List.flatMap_cons, List.flatMap_append,
      Encoded.segments_cells]
    simp [Encoded.cells, Stream.behind, Stream.marked, encoded]

theorem stream_loose (s : Stream δ) (rs : List (Request δ)) : (stream s rs).loose = s.loose := by
  rw [stream_eq]

theorem readRecords_reads {rs : List (Request δ)} (hf : ∀ r ∈ rs, ∀ n ∈ r.numbers, Decimal.fits 32 n)
    (hs : s.loose = []) :
    Reads (readRecords rs.length) (stream s rs) (rs.map fun r => .ok (some r.record)) s := by
  induction rs
  case nil => exact fun c hc => ⟨c, rfl, hc, rfl⟩
  case cons r rs hi =>
    have ⟨hf, hfs⟩ := List.forall_mem_cons.mp hf
    intro c hc
    have ⟨d, hr, hd, ho⟩ := Record.read_yields hf ((stream_loose s rs).trans hs) c hc
    have ⟨e, hrs, he, ho'⟩ := hi hfs d hd
    refine ⟨e, ?_, he, ho'.trans ho⟩
    change c.readRecord = _ at hr
    simp only [List.length_cons, readRecords, hr, hrs, List.map_cons]

-- Any requests that can be encoded, in whichever pieces they arrive.
theorem requests_arrive_as_sent {rs : List (Request δ)} (h : rs.mapM encode = .ok es)
    (pace : List Nat) :
    let sender := transmitAll es {}
    let receiver : Channel δ := { inbound := sender.2.sent.foldl Inbound.push { pace, ended := true } }
    let received := readRecords rs.length receiver
    let last := received.2.readRecord
    sender.1 = .ok () ∧ received.1 = rs.map (fun r => .ok (some r.record)) ∧ last.1 = .ok none ∧
      last.2.unread = [] ∧ last.2.pending = [] := by
  obtain ⟨rfl, hf⟩ := encodeAll_ok h
  have ht := transmitAll_ok (c := {}) rfl (rs.map encoded)
  intro sender receiver received last
  have hs : sender.2.sent = (rs.map encoded).flatMap (·.segments) := by simp [sender, ht]
  have hc := (fresh_carries pace true).pushAll sender.2.sent
  have hr : Carries receiver (stream { cells := [], ended := true } rs) := by
    rw [stream_eq, ←hs]
    simpa using hc
  have ⟨d, hd, hdc, _⟩ := readRecords_reads hf rfl receiver hr
  have ⟨e, he, hec, _⟩ := Record.read_yields_none rfl rfl rfl d hdc
  have hl : last = (.ok none, e) := by
    simp only [last, received, hd]
    exact he
  have ⟨_, _, hp⟩ := hec.held_of_cells_nil rfl
  exact ⟨by simp [sender, ht], by simp [received, hd], by rw [hl], hl ▸ hec.unread_eq, hl ▸ hp⟩

-- A path of nothing but delimiters, and a second base that cannot be sent without a first one.
theorem requests_with_delimiters_arrive :
    let rs : List (Request Nat) :=
      [.openFile (some 3) [32, 10, 0] (-1), .rename none [] (some 4) [47] 0x80000000]
    let sent := (transmitAll (rs.map encoded) {}).2.sent
    let receiver : Channel Nat := { inbound := sent.foldl Inbound.push { pace := [1, 7], ended := true } }
    rs.mapM encode = .ok (rs.map encoded) ∧
      (readRecords 2 receiver).1 =
        [.ok (some ⟨.openFile, [-1], [[32, 10, 0]], [3]⟩),
          .ok (some ⟨.rename, [-2147483648], [[], [47]], []⟩)] := by
  intro rs sent receiver
  have h : rs.mapM encode = .ok (rs.map encoded) := rfl
  exact ⟨h, (requests_arrive_as_sent h [1, 7]).right.left⟩

end Request

end FileBroker
