import Mathlib
import FileBroker.Proofs.Channel.Receiving
import FileBroker.Proofs.Helper.Loop

namespace FileBroker

open Channel

variable {δ : Type} {c d e : Channel δ}

theorem Channel.exists_unread (bytes : Bytes) : ∃ c : Channel δ, c.Wf ∧ c.unread = bytes := by
  have hc := (fresh_carries (δ := δ) [] false).pushAll [{ bytes }]
  refine ⟨_, hc.toWf, ?_⟩
  rw [hc.unread_eq]
  simp [Stream.bytes, Segment.cells_bytes]

theorem Segment.cells_length_le {s : Segment δ} (h : s.fds.length ≤ 1) : ∀ cell ∈ s.cells, cell.2.length ≤ 1 := by
  unfold cells
  split
  case h_1 => simp
  case h_2 =>
    intro cell hcell
    obtain rfl | hcell := List.mem_cons.mp hcell
    case inl => exact Nat.le_trans (List.length_take_le' ..) h
    case inr =>
      obtain ⟨_, _, rfl⟩ := List.mem_map.mp hcell
      exact Nat.zero_le _

namespace Record

-- The first number of a record's body.
def BodyAnnounces (o : Operation) (body : Bytes) (count : Nat) : Prop :=
  ∃ n numbers fields rest, body = fields ++ rest ∧ Fields (terminators o) (n :: numbers) fields ∧
    n.toInt = count

-- How many markers a record says that it ends with.
def Announces (o : Operation) (bytes : Bytes) (count : Nat) : Prop :=
  ∃ body, bytes = Utf8.encode o.keyword ++ newline :: body ∧ BodyAnnounces o body count

section Collecting

open Reading

theorem collects_readNumbers (o : Operation) (ends : List TokenEnd) :
    Collects (readNumbers (δ := δ) o ends) := by
  induction ends
  case nil             => exact collects_pure []
  case cons wanted _ hi =>
    exact (collects_io fun _ h => readToken_receives h).bind fun _ => Collects.guard <|
      (collects_lift _).bind fun _ => hi.bind fun _ => collects_pure _

theorem collects_readPaths (lengths : List Int32) : Collects (readPaths (δ := δ) lengths) := by
  induction lengths
  case nil              => exact collects_pure []
  case cons length _ hi =>
    exact Collects.guard <| (collects_io fun _ h => readExact_receives h _).bind fun _ =>
      hi.bind fun _ => collects_pure _

theorem collects_readNamed : Collects (readNamed (δ := δ)) := by
  refine (collects_io fun _ h => readUntil_receives h newline).bind fun line => ?_
  split
  case h_1 => exact collects_throw _
  case h_2 =>
    split
    case h_1 => exact collects_throw _
    case h_2 => exact collects_pure _

-- The markers have been read when the descriptors are claimed.
theorem markers_claim {r : Record δ} {args : List Int32} {paths : List Bytes} (h : c.Wf) (hr : Reading.on (do
      let _ ← io (readExact · count)
      let fds ← (modifyGet (takeFds · count) : Reading δ FrameError (List δ))
      return ({ operation := o, args, paths, fds } : Record δ)) c = (.ok r, d)) :
    ∃ new e, c.Receives new e ∧ e.takeFds count = (r.fds, d) := by
  have ⟨markers, e, hm, hr⟩ := bind_ok hr
  have ⟨new, hn⟩ := readExact_receives h count
  rw [io_ok hm] at hn
  cases hr
  exact ⟨new, e, hn, rfl⟩

theorem readBody_claims {r : Record δ} (h : c.Wf) (hr : (readBody o).on c = (.ok r, d)) :
    ∃ numbers c' new e, (readNumbers o (terminators o)).on c = (.ok numbers, c') ∧ c.Receives new e ∧
      e.takeFds (numbers.headD 0).toInt.toNat = (r.fds, d) := by
  have ⟨numbers, c₁, hn, hr⟩ := bind_ok hr
  have ⟨_, h₁⟩ := (collects_readNumbers o _).of_on h hn
  dsimp only at hr
  split at hr
  case isTrue  => cases hr
  case isFalse =>
    have ⟨paths, c₂, hp, hr⟩ := bind_ok hr
    have ⟨_, h₂⟩ := (collects_readPaths _).of_on h₁.wf hp
    split at hr
    case isFalse =>
      have ⟨_, e, he, ht⟩ := markers_claim h₂.wf hr
      exact ⟨numbers, c₁, _, e, hn, h₁.trans <| h₂.trans he, ht⟩
    case isTrue =>
      have ⟨stray, c₃, hl, hr⟩ := bind_ok hr
      have ⟨_, h₃⟩ := readUntil_receives h₂.wf newline
      rw [io_ok hl] at h₃
      split at hr
      case isTrue  => cases hr
      case isFalse =>
        have ⟨_, e, he, ht⟩ := markers_claim h₃.wf hr
        exact ⟨numbers, c₁, _, e, hn, h₁.trans <| h₂.trans <| h₃.trans he, ht⟩

end Collecting

-- The bytes that spell a record up to its markers, and the markers.
def SpellsMarked (o : Operation) (args : List Int32) (paths : List Bytes) (head markers : Bytes) : Prop :=
  Spells o args paths (head ++ markers) ∧ Announces o (head ++ markers) markers.length

-- The same bytes do not begin with two records.
theorem Spells.unique {args args' : List Int32} {paths paths' : List Bytes}
    (h : Spells o args paths front) (h' : Spells o' args' paths' front')
    (hb : front ++ rest = front' ++ rest') : o = o' ∧ front = front' := by
  have ⟨c, hc, hu⟩ := exists_unread (δ := Unit) (front ++ rest)
  have ⟨_, d, hr, hd⟩ := hc.readRecord_complete hu h
  have ⟨_, d', hr', hd'⟩ := hc.readRecord_complete (hu.trans hb) h'
  cases hr.symm.trans hr'
  rw [hd.symm.trans hd'] at hb
  exact ⟨rfl, List.append_cancel_right hb⟩

theorem Announces.unique (h : Announces o bytes count) (h' : Announces o bytes count') :
    count = count' := by
  obtain ⟨_, rfl, n, numbers, fields, rest, rfl, hf, hn⟩ := h
  obtain ⟨_, hb, n', numbers', fields', rest', rfl, hf', hn'⟩ := h'
  have hb := List.cons.inj (List.append_cancel_left hb)
  have ⟨c, hc, hu⟩ := exists_unread (δ := Unit) (fields ++ rest)
  have ha := accepts_readNumbers (δ := Unit) (o := o) (terminators o)
  obtain ⟨_, _, hr, rfl, _⟩ := ha.complete hc hu hf
  obtain ⟨_, _, hr', rfl, _⟩ := ha.complete hc (hu.trans hb.right) hf'
  cases hr.symm.trans hr'
  exact Int.ofNat_inj.mp <| hn.symm.trans hn'

-- There is one way to cut a stream into a record, its markers, and the rest.
theorem SpellsMarked.cut {args args' : List Int32} {paths paths' : List Bytes}
    {head head' marks marks' rest rest' : List (Cell δ)}
    (h : SpellsMarked o args paths (head.map (·.1)) (marks.map (·.1)))
    (h' : SpellsMarked o' args' paths' (head'.map (·.1)) (marks'.map (·.1)))
    (hc : head ++ marks ++ rest = head' ++ marks' ++ rest') : head = head' ∧ marks = marks' ∧ rest = rest' := by
  have hb := congrArg (List.map (·.1)) hc
  simp only [List.map_append] at hb
  obtain ⟨rfl, hf⟩ := h.left.unique h'.left hb
  have hm := h.right.unique (hf ▸ h'.right)
  have hl := congrArg List.length hf
  simp only [List.length_append, List.length_map] at hm hl
  have ⟨hfront, hrest⟩ := List.append_inj hc <| by rwa [List.length_append, List.length_append]
  have ⟨hhead, hmarks⟩ := List.append_inj' hfront hm
  exact ⟨hhead, hmarks, hrest⟩

theorem readBody_marked {r : Record δ} (h : c.Wf) (hr : (readBody o).on c = (.ok r, d)) :
    ∃ head markers new e, c.Past (head ++ markers) d ∧ r.operation = o ∧
      SpellsBody o r.args r.paths (head ++ markers) ∧ BodyAnnounces o (head ++ markers) markers.length ∧
      c.Receives new e ∧ e.takeFds markers.length = (r.fds, d) := by
  have ⟨body, hp, ho, hb⟩ := (accepts_readBody o).sound h hr
  have ⟨numbers, _, new, e, hn, he, ht⟩ := readBody_claims h hr
  cases hb
  case intro count lengths fields markers hc hle hm hf ha hl hls =>
    -- The numbers that were read are those that the record spells.
    obtain ⟨_, _, hn', rfl, _⟩ := (accepts_readNumbers _).complete h
      (hp.unread.trans <| List.append_assoc ..) hf
    cases hn.symm.trans hn'
    change e.takeFds count.toInt.toNat = _ at ht
    rw [←hm, Int.toNat_natCast] at ht
    have hsplit : (fields ++ (r.paths.flatten ++ if o.paths = 0 then [] else [newline])) ++ markers =
        fields ++ (r.paths.flatten ++ ((if o.paths = 0 then [] else [newline]) ++ markers)) := by
      simp only [List.append_assoc]
    refine ⟨_, markers, new, e, hsplit ▸ hp, ho, ?_, ?_, he, ht⟩
    · rw [hsplit]
      exact .intro count r.args lengths r.paths fields markers hf ha hl hls hc hle hm
    · rw [hsplit]
      exact ⟨count, _, fields, _, rfl, hf, hm.symm⟩

theorem readBegun_marked {r : Record δ} (h : c.Wf) (hr : readBegun.on c = (.ok (some r), d)) :
    ∃ head markers new e, c.Past (head ++ markers) d ∧ Record.SpellsMarked r.operation r.args r.paths head markers ∧
      c.Receives new e ∧ e.takeFds markers.length = (r.fds, d) := by
  have ⟨o?, c₁, hn, hr⟩ := Reading.bind_ok hr
  obtain ⟨_, hp, o, rfl, rfl⟩ := accepts_readNamed.sound h hn
  have ⟨_, h₁⟩ := collects_readNamed.of_on h hn
  have ⟨_, _, hb, hr⟩ := Reading.bind_ok hr
  cases hr
  obtain ⟨head, markers, _, e, hp', rfl, hs, ha, he, ht⟩ := readBody_marked h₁.wf hb
  have hline : (Utf8.encode r.operation.keyword ++ [newline]) ++ (head ++ markers) =
      (Utf8.encode r.operation.keyword ++ newline :: head) ++ markers := by simp
  have hbody : (Utf8.encode r.operation.keyword ++ newline :: head) ++ markers =
      Utf8.encode r.operation.keyword ++ newline :: (head ++ markers) := List.append_assoc ..
  exact ⟨_, markers, _, e, hline ▸ hp.trans hp', ⟨⟨_, hbody, hs⟩, _, hbody, ha⟩, h₁.trans he, ht⟩

end Record

namespace Channel

theorem Wf.readRecord_marked {r : Record δ} (h : c.Wf) (hr : c.readRecord = (.ok (some r), d)) :
    ∃ head markers new e, c.Past (head ++ markers) d ∧ Record.SpellsMarked r.operation r.args r.paths head markers ∧
      c.Receives new e ∧ e.takeFds markers.length = (r.fds, d) := by
  have ⟨_, h₀⟩ := atEnd_receives h
  rw [readRecord_eq] at hr
  obtain ⟨_, c₁, ha, hp⟩ | ⟨_, _, ha⟩ | ⟨_, _, _, _, ha⟩ := h.atEnd_cases
  case inl =>
    rw [ha] at hr h₀
    have ⟨head, markers, _, e, hp', hs, he, ht⟩ := Record.readBegun_marked h₀.wf hr
    exact ⟨head, markers, _, e, hp.trans hp', hs, h₀.trans he, ht⟩
  case inr.inl => simp [ha] at hr
  case inr.inr => simp [ha] at hr

theorem unread_eq_map (c : Channel δ) : c.unread = c.held ++ c.inbound.cells.map (·.1) := by
  simp [unread, Inbound.cells, List.map_flatMap, Segment.cells_bytes]

-- Of the stream `cells`, `past` has been read off `c`, and `claimed` have been claimed of the
-- descriptors that have come in.
structure Accounts (c : Channel δ) (cells past : List (Cell δ)) (claimed : List δ) : Prop where
  wf    : c.Wf
  cells : ∃ early, cells = past ++ early ++ c.inbound.cells ∧ early.map (·.1) = c.held ∧
    claimed ++ c.pending = attached (past ++ early)

variable {cells past : List (Cell δ)} {claimed : List δ}

theorem fresh_accounts (segments : List (Segment δ)) (pace : List Nat) (ended : Bool) :
    ({ inbound := segments.foldl Inbound.push { pace, ended } } : Channel δ).Accounts
      (segments.flatMap Segment.cells) [] [] :=
  have hc := (fresh_carries pace ended).pushAll segments
  ⟨hc.toWf, [], (Inbound.pushAll_cells segments { pace, ended }).symm, rfl, rfl⟩

-- What has been claimed so far, what is claimed now, and what is left, is all that has come in.
theorem Accounts.claim (h : c.Accounts cells past claimed) (hp : c.Past front d) (hr : c.Receives new e)
    (ht : e.takeFds count = (fds, d)) :
    ∃ read early, cells = past ++ read ++ early ++ d.inbound.cells ∧ read.map (·.1) = front ∧
      early.map (·.1) = d.held ∧ claimed ++ fds ++ d.pending = attached (past ++ read ++ early) ∧
      fds = ((attached (past ++ read ++ early)).drop claimed.length).take count := by
  have ⟨early, hc, hb, hf⟩ := h.cells
  obtain ⟨rfl, rfl⟩ := Prod.mk.inj ht
  have hin : (early ++ new).map (·.1) = front ++ e.held := by
    have hu := hp.unread
    rw [unread_eq_map, unread_eq_map, hr.cells, List.map_append, ←List.append_assoc, ←List.append_assoc,
      ←hb, ←List.map_append] at hu
    exact List.append_cancel_right hu
  have ⟨read, early', hre, hread, hheld⟩ := List.map_eq_append_iff.mp hin
  have hpending : claimed ++ e.pending = attached (past ++ read ++ early') := by
    rw [hr.pending, ←List.append_assoc, hf, List.append_assoc past read, ←hre, ←List.append_assoc,
      attached_append _ new]
  refine ⟨read, early', ?_, hread, hheld, ?_, ?_⟩
  · rw [hc, hr.cells, List.append_assoc past read, ←hre]
    simp only [List.append_assoc]
  · rw [←hpending, List.append_assoc]
    exact congrArg _ <| List.take_append_drop count e.pending
  · rw [←hpending, List.drop_left]

theorem Accounts.readRecord {r : Record δ} (h : c.Accounts cells past claimed)
    (hr : c.readRecord = (.ok (some r), d)) :
    ∃ head marks early, cells = past ++ (head ++ marks) ++ early ++ d.inbound.cells ∧
      Record.SpellsMarked r.operation r.args r.paths (head.map (·.1)) (marks.map (·.1)) ∧
      claimed ++ r.fds ++ d.pending = attached (past ++ (head ++ marks) ++ early) ∧
      r.fds = ((attached (past ++ (head ++ marks) ++ early)).drop claimed.length).take marks.length ∧
      d.Accounts cells (past ++ (head ++ marks)) (claimed ++ r.fds) := by
  have ⟨_, _, _, _, hp, hs, he, ht⟩ := h.wf.readRecord_marked hr
  have ⟨read, early, hc, hb, hh, hall, hfds⟩ := h.claim hp he ht
  obtain ⟨head, marks, rfl, rfl, rfl⟩ := List.map_eq_append_iff.mp hb
  rw [List.length_map] at hfds
  exact ⟨head, marks, early, hc, hs, hall, hfds, hp.wf, early, hc, hh, hall⟩

-- The same, where it is known how the stream goes on.
theorem Accounts.readRecord_cut {r : Record δ} {args : List Int32} {paths : List Bytes}
    {head marks rest : List (Cell δ)} (h : c.Accounts cells past claimed)
    (hc : cells = past ++ (head ++ marks) ++ rest)
    (hs : Record.SpellsMarked o args paths (head.map (·.1)) (marks.map (·.1)))
    (hr : c.readRecord = (.ok (some r), d)) :
    ∃ early, early <+: rest ∧
      claimed ++ r.fds ++ d.pending = attached (past ++ (head ++ marks) ++ early) ∧
      r.fds = ((attached (past ++ (head ++ marks) ++ early)).drop claimed.length).take marks.length ∧
      d.Accounts cells (past ++ (head ++ marks)) (claimed ++ r.fds) := by
  have ⟨head', marks', early, hc', hs', hall, hfds, ha⟩ := h.readRecord hr
  have hcut : head ++ marks ++ rest = head' ++ marks' ++ (early ++ d.inbound.cells) := by
    rw [hc', List.append_assoc, List.append_assoc past, List.append_assoc past] at hc
    exact (List.append_cancel_left hc).symm
  obtain ⟨rfl, rfl, rfl⟩ := hs.cut hs' hcut
  exact ⟨early, List.prefix_append .., hall, hfds, ha⟩

theorem Accounts.supplies (h : c.Accounts cells past claimed) (hs : c.Supplies records d) :
    ∃ read fronts, Record.SpellEach (records.map Record.spoken) fronts ∧
      read.map (·.1) = fronts.flatten ∧
      d.Accounts cells (past ++ read) (claimed ++ records.flatMap Record.fds) := by
  induction hs generalizing past claimed
  case nil => exact ⟨[], [], .nil, rfl, by simpa using h⟩
  case cons hr _ hi =>
    have ⟨head, marks, _, _, ⟨hspells, _⟩, _, _, h⟩ := h.readRecord hr
    have ⟨read, fronts, hf, hb, h⟩ := hi h
    refine ⟨(head ++ marks) ++ read, _ :: fronts, .cons hspells hf, ?_, ?_⟩
    · rw [List.map_append, List.map_append, hb]
      rfl
    · rwa [List.flatMap_cons, ←List.append_assoc, ←List.append_assoc claimed]

-- A descriptor is given to its own slot if as many have been given before as have arrived before it.
theorem given_own_iff {before after : List δ} {fd : δ} (hd : (before ++ fd :: after).Nodup)
    (hi : i < count) (given : Nat) :
    ((((before ++ fd :: after).drop given).take count)[i]? = some fd ↔ before.length = given + i) := by
  have hat : (before ++ fd :: after)[before.length]? = some fd := by simp
  rw [List.getElem?_take_of_lt hi, List.getElem?_drop]
  refine ⟨fun h => ?_, fun h => h ▸ hat⟩
  exact (List.getElem?_inj (by simp) hd).mp <| hat.trans h.symm

theorem records_are_given_first_come {earlier : List (Record δ)} {r : Record δ}
    (segments : List (Segment δ)) (pace : List Nat) (ended : Bool)
    (h : Supplies { inbound := segments.foldl Inbound.push { pace, ended } } (earlier ++ [r]) d) :
    let cells := segments.flatMap Segment.cells
    let given := earlier.flatMap Record.fds
    ∃ before head marks early after,
      cells = before ++ (head ++ marks) ++ early ++ after ∧
      (∃ fronts, Record.SpellEach (earlier.map Record.spoken) fronts ∧
        before.map (·.1) = fronts.flatten) ∧
      Record.SpellsMarked r.operation r.args r.paths (head.map (·.1)) (marks.map (·.1)) ∧
      let arrived := attached (before ++ (head ++ marks) ++ early)
      given ++ r.fds ++ d.pending = arrived ∧
      r.fds = (arrived.drop given.length).take marks.length ∧
      -- A marker that has a descriptor, and one that has none.
      (∀ i b fd, marks[i]? = some (b, [fd]) → (attached cells).Nodup →
        (r.fd? i = some fd ↔ (attached (before ++ (head ++ marks.take i))).length = given.length + i)) ∧
      (∀ i b, marks[i]? = some (b, []) → (r.fd? i = none ↔ arrived.length ≤ given.length + i)) ∧
      -- Nothing is left over, and nothing has come astray.
      ((attached before).length = given.length → attached head = [] →
        (∀ cell ∈ marks, cell.2.length = 1) → r.fds = attached marks) := by
  intro cells given
  obtain ⟨c, hs, hr⟩ := h.split
  obtain ⟨before, fronts, hf, hb, hc⟩ := (fresh_accounts segments pace ended).supplies hs
  change c.Accounts cells before given at hc
  cases hr
  case cons hr hn =>
    cases hn
    obtain ⟨head, marks, early, hcells, hspells, hall, hfds, _⟩ := hc.readRecord hr
    refine ⟨before, head, marks, early, d.inbound.cells, hcells, ⟨fronts, hf, hb⟩, hspells, hall, hfds,
      fun i b fd hi hd => ?own, fun i b hi => ?absent, fun hl hh hm => ?orderly⟩
    case own =>
      obtain ⟨hlt, hget⟩ := List.getElem?_eq_some_iff.mp hi
      have hsplit : attached (before ++ (head ++ marks) ++ early) =
          attached (before ++ (head ++ marks.take i)) ++ fd :: attached (marks.drop (i + 1) ++ early) := by
        conv => lhs; rw [←List.take_append_drop i marks, List.drop_eq_getElem_cons hlt, hget]
        simp [attached]
      rw [hcells, attached_append _ d.inbound.cells, hsplit] at hd
      rw [Record.fd?, hfds, hsplit]
      exact given_own_iff hd.of_append_left hlt _
    case absent =>
      obtain ⟨hlt, _⟩ := List.getElem?_eq_some_iff.mp hi
      rw [Record.fd?, hfds, List.getElem?_take_of_lt hlt, List.getElem?_drop, List.getElem?_eq_none_iff]
    case orderly =>
      have hlen : (attached marks).length = marks.length := by
        rw [attached, List.length_flatMap, List.map_congr_left hm, List.map_const', List.sum_replicate_nat,
          Nat.mul_one]
      rw [hfds, attached_append, attached_append, attached_append, hh, List.nil_append, List.append_assoc,
        ←hl, List.drop_left, ←hlen, List.take_left]

section
open Record Decimal

-- A request to make the directory `a`, up to the marker that it announces.
def makeUnder : Bytes :=
  Utf8.encode Operation.makeDir.keyword ++ newline :: ([49, 32, 55, 32, 49, 32] ++ ([97] ++ [newline]))

theorem makeUnder_spells : SpellsMarked .makeDir [7] [[97]] makeUnder [marker] := by
  have h₁ : Numeral [49] (1 : Int32).toInt := .bare (by simp) (by simp [Digit])
  have h₇ : Numeral [55] (7 : Int32).toInt := .bare (by simp) (by simp [Digit])
  have hf : Fields (terminators .makeDir) (1 :: ([7] ++ [1])) [49, 32, 55, 32, 49, 32] :=
    .cons h₁ <| .cons h₇ <| .cons h₁ .nil
  have hb : makeUnder ++ [marker] = Utf8.encode Operation.makeDir.keyword ++
      newline :: ([49, 32, 55, 32, 49, 32] ++ ([[97]].flatten ++ ([newline] ++ [marker]))) := by
    simp [makeUnder]
  refine ⟨⟨_, hb, ?_⟩, _, hb, 1, _, _, _, rfl, hf, rfl⟩
  exact .intro 1 [7] [1] [[97]] _ [marker] hf rfl rfl rfl (by decide) (by decide) rfl

-- The only descriptor comes with the marker.
theorem record_is_given_its_own :
    let sent : List (Segment Nat) := [{ bytes := makeUnder }, { bytes := [marker], fds := [6] }]
    let c : Channel Nat := { inbound := sent.foldl Inbound.push { pace := [3], ended := true } }
    ∃ r d, c.Supplies ([] ++ [r]) d ∧ r.fds = [6] := by
  intro sent c
  have hs := makeUnder_spells
  have hcells : sent.flatMap Segment.cells = makeUnder.map (·, []) ++ [(marker, [6])] ++ [] := by
    rw [List.flatMap_cons, List.flatMap_singleton, Segment.cells_plain]
    rfl
  have hbytes : (makeUnder.map (·, ([] : List Nat))).map (·.1) = makeUnder := by simp [Function.comp_def]
  have hc := (fresh_carries (δ := Nat) [3] true).pushAll sent
  have hu : c.unread = [makeUnder ++ [marker]].flatten ++ [] := by
    rw [hc.unread_eq]
    simp [Stream.bytes, Segment.cells_bytes, sent]
  have hf : SpellEach [(.makeDir, [7], [[97]])] [makeUnder ++ [marker]] := .cons hs.left .nil
  obtain ⟨records, d, hsup, hsaid, _⟩ := hc.toWf.supplies hf hu
  obtain ⟨r, _, rfl, _, hn⟩ := List.map_eq_cons_iff.mp hsaid
  obtain rfl := List.map_eq_nil_iff.mp hn
  have hsup : c.Supplies ([] ++ [r]) d := hsup
  obtain ⟨before, head, marks, early, after, hsplit, ⟨_, hf, hb⟩, hm, _, _, _, _, horderly⟩ :=
    records_are_given_first_come sent [3] true hsup
  cases hf
  obtain rfl := List.map_eq_nil_iff.mp hb
  rw [←hbytes] at hs
  have hcut : makeUnder.map (·, []) ++ [(marker, [6])] ++ [] = head ++ marks ++ (early ++ after) := by
    rw [←hcells, hsplit]
    simp
  obtain ⟨rfl, rfl, _⟩ := hs.cut hm hcut
  exact ⟨r, d, hsup, horderly rfl (by simp [attached]) (by simp)⟩
-- A request for nothing.
def cleanUp : Bytes :=
  Utf8.encode Operation.cleanup.keyword ++ newline :: [48, 32, 48, 10]

theorem cleanUp_spells : SpellsMarked .cleanup [0] [] cleanUp [] := by
  have h₀ : Numeral [48] (0 : Int32).toInt := .bare (by simp) (by simp [Digit])
  have hf : Fields (terminators .cleanup) (0 :: ([0] ++ [])) [48, 32, 48, 10] := .cons h₀ <| .cons h₀ .nil
  have hb : cleanUp ++ [] = Utf8.encode Operation.cleanup.keyword ++
      newline :: ([48, 32, 48, 10] ++ (([] : List Bytes).flatten ++ ([] ++ []))) := by
    simp [cleanUp]
  refine ⟨⟨_, hb, ?_⟩, _, hb, 0, _, _, _, rfl, hf, rfl⟩
  exact .intro 0 [0] [] [] _ [] hf rfl rfl rfl (by decide) (by decide) rfl

-- A descriptor that came with a request for nothing goes to the next marker, which has one of its own.
theorem record_is_given_a_stray :
    let sent : List (Segment Nat) :=
      [{ bytes := cleanUp, fds := [5] }, { bytes := makeUnder }, { bytes := [marker], fds := [6] }]
    let c : Channel Nat := { inbound := sent.foldl Inbound.push { ended := true } }
    (∀ cell ∈ sent.flatMap Segment.cells, cell.2.length ≤ 1) ∧
    ∃ first second d before head,
      c.Supplies ([first] ++ [second]) d ∧
      sent.flatMap Segment.cells = before ++ (head ++ [(marker, [6])]) ∧
      Spells first.operation first.args first.paths (before.map (·.1)) ∧
      SpellsMarked second.operation second.args second.paths (head.map (·.1)) [marker] ∧
      second.fds = [5] ∧ d.pending = [6] := by
  intro sent c
  let stray : List (Cell Nat) := (Segment.mk cleanUp [5]).cells
  let plain : List (Cell Nat) := makeUnder.map (·, [])
  have hstray : stray.map (·.1) = cleanUp ∧ attached stray = [5] :=
    ⟨Segment.cells_bytes _, Segment.cells_fds <| by simp [cleanUp]⟩
  have hplain : plain.map (·.1) = makeUnder ∧ attached plain = [] := by simp [plain, attached, Function.comp_def]
  have hcells : sent.flatMap Segment.cells = stray ++ (plain ++ [(marker, [6])]) := by
    rw [List.flatMap_cons, List.flatMap_cons, List.flatMap_singleton, Segment.cells_plain]
    rfl
  have hspells₁ : SpellsMarked .cleanup [0] [] (stray.map (·.1)) (([] : List (Cell Nat)).map (·.1)) :=
    hstray.left ▸ cleanUp_spells
  have hspells₂ : SpellsMarked .makeDir [7] [[97]] (plain.map (·.1)) ([(marker, [6])].map (·.1)) :=
    hplain.left ▸ makeUnder_spells
  have hc := (fresh_carries (δ := Nat) [] true).pushAll sent
  have hu : c.unread = [cleanUp, makeUnder ++ [marker]].flatten ++ [] := by
    rw [hc.unread_eq]
    simp [Stream.bytes, Segment.cells_bytes, sent]
  have hf : SpellEach [(.cleanup, [0], []), (.makeDir, [7], [[97]])] [cleanUp, makeUnder ++ [marker]] :=
    .cons (List.append_nil cleanUp ▸ cleanUp_spells.left) <| .cons makeUnder_spells.left .nil
  obtain ⟨records, d, hsup, hsaid, _⟩ := hc.toWf.supplies hf hu
  obtain ⟨first, _, rfl, hsaid₁, hn⟩ := List.map_eq_cons_iff.mp hsaid
  obtain ⟨second, _, rfl, hsaid₂, hn⟩ := List.map_eq_cons_iff.mp hn
  obtain rfl := List.map_eq_nil_iff.mp hn
  refine ⟨?_, first, second, d, stray, plain, hsup, hcells, ?_⟩
  case refine_1 =>
    intro cell hcell
    obtain ⟨s, hs, hcell⟩ := List.mem_flatMap.mp hcell
    have hone : ∀ s ∈ sent, s.fds.length ≤ 1 := by simp [sent]
    exact s.cells_length_le (hone s hs) cell hcell
  case refine_2 =>
    have ha := fresh_accounts sent [] true
    cases hsup
    case cons hr₁ hsup =>
      cases hsup
      case cons hr₂ hn =>
        cases hn
        obtain ⟨_, _, _, hfds₁, ha₁⟩ := ha.readRecord_cut (by simpa using hcells) hspells₁ hr₁
        have hcells₂ : sent.flatMap Segment.cells =
            [] ++ (stray ++ []) ++ (plain ++ [(marker, [6])]) ++ [] := by simpa using hcells
        obtain ⟨_, hearly, hall, hfds₂, _⟩ := ha₁.readRecord_cut hcells₂ hspells₂ hr₂
        obtain rfl := List.prefix_nil.mp hearly
        rw [List.length_nil, List.take_zero] at hfds₁
        have hfds₂ : second.fds = [5] := by simpa [hfds₁, hstray.right, hplain.right] using hfds₂
        refine ⟨?_, ?_, hfds₂, ?_⟩
        · change Spells first.spoken.1 first.spoken.2.1 first.spoken.2.2 _
          rw [hsaid₁, hstray.left]
          exact List.append_nil cleanUp ▸ cleanUp_spells.left
        · change SpellsMarked second.spoken.1 second.spoken.2.1 second.spoken.2.2 _ _
          rw [hsaid₂, hplain.left]
          exact makeUnder_spells
        · have hmark : attached [(marker, [6])] = [6] := rfl
          simpa [hfds₁, hfds₂, hstray.right, hplain.right, hmark] using hall
end

end Channel
end FileBroker
