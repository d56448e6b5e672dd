import Mathlib
import FileBroker.Helper.Serve
import FileBroker.Proofs.Helper.Answering
import FileBroker.Proofs.Record.Grammar

namespace FileBroker

variable {σ δ : Type}

namespace Channel

-- `records` are read off `c` one after the other, and that leaves `d`.
inductive Supplies : Channel δ → List (Record δ) → Channel δ → Prop
  | nil  : Supplies c [] c
  | cons : readRecord c = (.ok (some r), d) → Supplies d records e → Supplies c (r :: records) e

variable {c d e : Channel δ}

theorem Supplies.sending (h : c.Supplies records d) (o : List (Segment δ) × Option Nat) :
    (c.sending o).Supplies records (d.sending o) := by
  induction h
  case nil       => exact .nil
  case cons hr _ hi => exact .cons (by rw [readRecord_silent, hr]) hi

theorem Supplies.split (h : c.Supplies (records ++ more) e) :
    ∃ d, c.Supplies records d ∧ d.Supplies more e := by
  induction records generalizing c
  case nil => exact ⟨c, .nil, h⟩
  case cons hi =>
    cases h
    case cons hr h =>
      have ⟨d, hd, he⟩ := hi h
      exact ⟨d, .cons hr hd, he⟩

theorem readRecord_keeps (h : c.readRecord = (r, d)) : d.sent = c.sent ∧ d.patience = c.patience := by
  have ho := readRecord_silent.outgoing c
  rw [h] at ho
  exact Prod.mk.inj ho

-- Records that the bytes spell are supplied.
theorem Wf.supplies (h : c.Wf) (hf : Record.SpellEach said fronts)
    (hu : c.unread = fronts.flatten ++ rest) :
    ∃ records d, c.Supplies records d ∧ records.map Record.spoken = said ∧ c.Past fronts.flatten d ∧
      d.unread = rest := by
  induction hf generalizing c
  case nil => exact ⟨[], c, .nil, rfl, .refl h, hu⟩
  case cons said front saids fronts hs _ hi =>
    obtain ⟨o, args, paths⟩ := said
    rw [List.flatten_cons, List.append_assoc] at hu
    have ⟨fds, d, hr, hd⟩ := h.readRecord_complete hu hs
    have ⟨front', hp, _⟩ := h.readRecord_sound hr
    have hfront : front' = front := by
      have := hp.unread.symm.trans hu
      rw [hd] at this
      exact List.append_cancel_right this
    obtain ⟨records, e, hrs, hsaid, hp', he⟩ := hi hp.wf hd
    exact ⟨_ :: records, e, .cons hr hrs, by rw [List.map_cons, hsaid]; rfl, hfront ▸ hp.trans hp', he⟩

end Channel

theorem Record.executeAll_concat (k : Kernel σ δ) (records : List (Record δ)) (r : Record δ) (w : σ) :
    ((executeAll k (records ++ [r])).run w).2 =
      ((r.execute k).run ((executeAll k records).run w).2).2 := by
  induction records generalizing w
  case nil          => rw [List.nil_append, executeAll_cons]; rfl
  case cons r' _ hi =>
    rw [List.cons_append, executeAll_cons, executeAll_cons]
    exact hi ((r'.execute k).run w).2

namespace Server

open Channel Decimal

variable {k : Kernel σ δ} {s : Server σ δ} {records : List (Record δ)} {last : Channel δ}

-- The helper when it has answered `records`, which leaves `last` of its stream.
def answering (k : Kernel σ δ) (s : Server σ δ) (records : List (Record δ)) (last : Channel δ) :
    Server σ δ :=
  let executed := (Record.executeAll k records).run s.world
  { s with
    channel := last.sending
      (s.channel.sent ++ executed.1.map Reply.segment, s.channel.patience.map (· - records.length))
    world   := executed.2
    served  := s.served + records.length }

theorem answering_nil (s : Server σ δ) : s.answering k [] s.channel = s := by
  have hc : s.channel.sending (s.channel.sent ++ [], s.channel.patience.map (· - 0)) = s.channel := by
    simp [sending]
  change { s with channel := s.channel.sending (s.channel.sent ++ [], s.channel.patience.map (· - 0)) } = s
  rw [hc]

theorem answering_cons (s : Server σ δ) (r : Record δ) (records : List (Record δ)) (c last : Channel δ)
    (o : List (Segment δ) × Option Nat) :
    (s.answering k [r] c).answering k records (last.sending o) = s.answering k (r :: records) last := by
  rcases hx : (r.execute k).run s.world with ⟨reply, w⟩
  rcases hy : (Record.executeAll k records).run w with ⟨replies, w'⟩
  have h₁ : (Record.executeAll k [r]).run s.world = ([reply], w) := by
    rw [Record.executeAll_cons, hx]
    rfl
  have h₂ : (Record.executeAll k (r :: records)).run s.world = (reply :: replies, w') := by
    rw [Record.executeAll_cons, hx]
    simp only [hy]
  simp only [answering, h₁, h₂, sending, hy]
  simp [Function.comp_def, Nat.sub_sub, Nat.add_comm, Nat.add_left_comm]

-- A turn that finds a record whose reply can be sent.
theorem turn_answers (hr : s.channel.readRecord = (.ok (some r), d)) (hp : s.channel.patience ≠ some 0) :
    s.turn k = (.ok (some ()), s.answering k [r] d) := by
  have ⟨hs, hpd⟩ := readRecord_keeps hr
  simp only [turn, hr, sendReply, send_ok (hpd ▸ hp), hs, hpd]
  rfl

-- The reply is lost, but what it reports has happened.
theorem turn_unsent (hr : s.channel.readRecord = (.ok (some r), d)) (hp : s.channel.patience = some 0) :
    s.turn k = (.error (.io .brokenPipe), { s with channel := d, world := ((r.execute k).run s.world).2 }) := by
  have ⟨_, hpd⟩ := readRecord_keeps hr
  simp only [turn, hr, sendReply, send_broken (hpd.trans hp)]
  rfl

theorem serveWithin_supplied (h : s.channel.Supplies records last)
    (hp : ∀ m, s.channel.patience = some m → records.length ≤ m) (bound : Nat) :
    serveWithin k (records.length + bound) s = serveWithin k bound (s.answering k records last) := by
  induction records generalizing s last
  case nil =>
    cases h
    rw [answering_nil, List.length_nil, Nat.zero_add]
  case cons r records hi =>
    cases h
    case cons d hr h =>
      have hp₀ : s.channel.patience ≠ some 0 := fun h₀ => absurd (hp 0 h₀) (by simp)
      have hp₁ (m : Nat) (hm : (s.answering k [r] d).channel.patience = some m) : records.length ≤ m := by
        obtain ⟨m', hm', rfl⟩ := Option.map_eq_some_iff.mp hm
        exact Nat.le_sub_one_of_lt <| hp m' hm'
      have hr' := hi (h.sending (s.answering k [r] d).channel.outgoing) hp₁
      rw [List.length_cons, Nat.add_right_comm, serveWithin, turn_answers hr hp₀]
      dsimp only
      rw [hr', answering_cons]

theorem serveWithin_none (hr : s.channel.readRecord = (.ok none, d)) (bound : Nat) :
    serveWithin k (bound + 1) s = (.ok s.served, { s with channel := d }) := by
  simp only [serveWithin, turn, hr]

theorem serveWithin_error (hr : s.channel.readRecord = (.error e, d)) (bound : Nat) :
    serveWithin k (bound + 1) s = (.error (.frame e), { s with channel := d }) := by
  simp only [serveWithin, turn, hr]

-- The loop gets to the end of the records that it can answer with turns to spare.
theorem serve_supplied (h : s.channel.Supplies records last)
    (hp : ∀ m, s.channel.patience = some m → records.length ≤ m) (hb : records.length ≤ s.unread) :
    ∃ bound, s.serve k = serveWithin k (bound + 1) (s.answering k records last) ∧
      s.unread = records.length + bound := by
  obtain ⟨bound, hbound⟩ := Nat.exists_eq_add_of_le hb
  exact ⟨bound, by rw [serve, hbound, Nat.add_assoc, serveWithin_supplied h hp], hbound⟩

theorem serve_none (h : s.channel.Supplies records last)
    (hp : ∀ m, s.channel.patience = some m → records.length ≤ m) (hb : records.length ≤ s.unread)
    (hl : last.readRecord = (.ok none, d)) :
    s.serve k = (.ok (s.served + records.length), s.answering k records d) := by
  have ⟨bound, hs, _⟩ := serve_supplied (k := k) h hp hb
  have hr := readRecord_silent last (s.answering k records last).channel.outgoing
  rw [hl] at hr
  exact hs.trans <| serveWithin_none hr bound

theorem serve_error (h : s.channel.Supplies records last)
    (hp : ∀ m, s.channel.patience = some m → records.length ≤ m) (hb : records.length ≤ s.unread)
    (hl : last.readRecord = (.error e, d)) :
    s.serve k = (.error (.frame e), s.answering k records d) := by
  have ⟨bound, hs, _⟩ := serve_supplied (k := k) h hp hb
  have hr := readRecord_silent last (s.answering k records last).channel.outgoing
  rw [hl] at hr
  exact hs.trans <| serveWithin_error hr bound

-- The other end takes as many replies as there are before `r`, and then is gone.
theorem serve_unsent (h : s.channel.Supplies (records ++ r :: more) last)
    (hp : s.channel.patience = some records.length) (hb : records.length < s.unread) :
    (s.serve k).1 = .error (.io .brokenPipe) ∧
      (s.serve k).2.world = ((Record.executeAll k (records ++ [r])).run s.world).2 ∧
      (s.serve k).2.channel.sent =
        s.channel.sent ++ ((Record.executeAll k records).run s.world).1.map Reply.segment := by
  obtain ⟨c, hc, hr⟩ := h.split
  cases hr
  case cons d hr _ =>
    have ⟨bound, hs, _⟩ := serve_supplied (k := k) hc (fun m hm => by simp_all) (Nat.le_of_lt hb)
    have hr' := readRecord_silent c (s.answering k records c).channel.outgoing
    rw [hr] at hr'
    have ht := turn_unsent (k := k) (s := s.answering k records c) hr' (by simp [answering, sending, hp])
    rw [hs, serveWithin, ht]
    exact ⟨rfl, by rw [Record.executeAll_concat]; rfl, rfl⟩

-- The bytes of a stream count at least as many as the records they spell.
theorem length_le_unread (hf : Record.SpellEach said fronts)
    (hu : s.channel.unread = fronts.flatten ++ rest) : said.length ≤ s.unread := by
  have hl : said.length ≤ fronts.flatten.length := by
    clear hu
    induction hf
    case nil => simp
    case cons hs _ hi =>
      have := List.length_pos_of_mem hs.newline_mem
      rw [List.flatten_cons, List.length_append, List.length_cons]
      omega
  have hu := congrArg List.length hu
  simp only [Channel.unread, List.length_append] at hu
  rw [unread, Inbound.size]
  omega

-- A stream that begins with some records and goes on with none, as any bytes do (`Record.exists_split`).
theorem serve_answers_records {s : Server σ δ} (k : Kernel σ δ) (h : s.channel.Wf)
    (hf : Record.SpellEach said fronts) (hu : s.channel.unread = fronts.flatten ++ rest)
    (hr : ¬Record.Begins rest) :
    ∃ records last, s.channel.Supplies records last ∧ records.map Record.spoken = said ∧ last.unread = rest ∧
      let run := s.serve k
      -- The other end takes all the replies.
      ((∀ m, s.channel.patience = some m → records.length ≤ m) →
        let executed := (Record.executeAll k records).run s.world
        run.2.world = executed.2 ∧ run.2.channel.sent = s.channel.sent ++ executed.1.map Reply.segment ∧
          if rest = [] ∧ s.channel.inbound.ended ∧ s.channel.inbound.reset = false then
            run.1 = .ok (s.served + records.length)
          else ∃ e, last.readRecord.1 = .error e ∧ run.1 = .error (.frame e)) ∧
      -- It takes `m` of them.
      ∀ m, s.channel.patience = some m → m < records.length →
        run.1 = .error (.io .brokenPipe) ∧
          run.2.world = ((Record.executeAll k (records.take (m + 1))).run s.world).2 ∧
          run.2.channel.sent =
            s.channel.sent ++ ((Record.executeAll k (records.take m)).run s.world).1.map Reply.segment := by
  obtain ⟨records, last, hsup, hsaid, hp, hlast⟩ := h.supplies hf hu
  have hb : records.length ≤ s.unread := by
    have := length_le_unread hf hu
    rwa [←hsaid, List.length_map] at this
  refine ⟨records, last, hsup, hsaid, hlast, fun hall => ?_, fun m hm hlt => ?_⟩
  case refine_1 =>
    have hend : last.AtEnd ↔ rest = [] ∧ s.channel.inbound.ended ∧ s.channel.inbound.reset = false := by
      rw [AtEnd, hlast, hp.ended, hp.reset]
    split
    case isTrue he =>
      have hl : last.readRecord = (.ok none, last.readRecord.2) :=
        Prod.ext (hp.wf.readRecord_none.mpr <| hend.mpr he) rfl
      rw [serve_none hsup hall hb hl]
      exact ⟨rfl, rfl, rfl⟩
    case isFalse he =>
      obtain ⟨e, hl⟩ := hp.wf.readRecord_error.mpr ⟨mt hend.mp he, hlast ▸ hr⟩
      rw [serve_error hsup hall hb (Prod.ext hl rfl)]
      exact ⟨rfl, rfl, e, hl, rfl⟩
  case refine_2 =>
    have hl : (records.take m).length = m := List.length_take_of_le (Nat.le_of_lt hlt)
    rw [←List.take_append_drop m records, List.drop_eq_getElem_cons hlt] at hsup
    have := serve_unsent (k := k) hsup (by rw [hl, hm]) (by omega)
    rwa [List.take_append_getElem] at this

-- System calls are counted, and none of them succeeds.
def refusing : Kernel Nat Nat where
  call
    | .mkdirAt .., w => (.error Errno.exist, w + 1)
    | _, w           => (.error Errno.inval, w + 1)
  number := id

-- A directory that is there already, a request for nothing, and then a word without a line end.
theorem serve_answers_two_records :
    let make : Bytes := Utf8.encode Operation.makeDir.keyword ++
      newline :: ([48, 32, 55, 32, 49, 32] ++ ([97] ++ ([newline] ++ [])))
    let clean : Bytes := Utf8.encode Operation.cleanup.keyword ++
      newline :: ([48, 32, 48, 10] ++ ([] ++ ([] ++ [])))
    let sent : List (Segment Nat) := [{ bytes := make }, { bytes := clean ++ [66, 79] }]
    let s : Server Nat Nat :=
      { channel := { inbound := sent.foldl Inbound.push { pace := [3], ended := true } }, world := 0 }
    (s.serve refusing).2.world = 1 ∧ (s.serve refusing).2.channel.sent =
        [(.failure (ErrorText.render Errno.exist) : Reply Nat).segment, Reply.ready.segment] ∧
      ∃ e, (s.serve refusing).1 = .error (.frame e) := by
  intro make clean sent s
  have hc := (fresh_carries (δ := Nat) [3] true).pushAll sent
  have h₀ : Numeral [48] (0 : Int32).toInt := .bare (by simp) (by simp [Digit])
  have h₁ : Numeral [49] (1 : Int32).toInt := .bare (by simp) (by simp [Digit])
  have h₇ : Numeral [55] (7 : Int32).toInt := .bare (by simp) (by simp [Digit])
  have hmake : Record.Spells .makeDir [7] [[97]] make :=
    ⟨_, rfl, .intro 0 [7] [1] [[97]] _ [] (.cons h₀ <| .cons h₇ <| .cons h₁ .nil) rfl rfl rfl
      (by decide) (by decide) rfl⟩
  have hclean : Record.Spells .cleanup [0] [] clean :=
    ⟨_, rfl, .intro 0 [0] [] [] _ [] (.cons h₀ <| .cons h₀ .nil) rfl rfl rfl (by decide) (by decide) rfl⟩
  have hrest : ¬Record.Begins [66, 79] := by
    rintro ⟨_, _, _, front, _, hb, hs⟩
    have : newline ∈ ([66, 79] : Bytes) := hb ▸ List.mem_append_left _ hs.newline_mem
    exact absurd this (by decide)
  have hu : s.channel.unread = [make, clean].flatten ++ [66, 79] := by
    rw [hc.unread_eq]
    simp [Stream.bytes, Segment.cells_bytes, sent]
  have hf : Record.SpellEach [(.makeDir, [7], [[97]]), (.cleanup, [0], [])] [make, clean] :=
    .cons hmake <| .cons hclean .nil
  obtain ⟨records, last, _, hsaid, _, hrun, _⟩ := serve_answers_records refusing hc.toWf hf hu hrest
  obtain ⟨hw, hsent, hresult⟩ := hrun (by simp [s])
  rw [if_neg (by simp)] at hresult
  obtain ⟨r₁, records, rfl, h₁, hsaid⟩ := List.map_eq_cons_iff.mp hsaid
  obtain ⟨r₂, records, rfl, h₂, hsaid⟩ := List.map_eq_cons_iff.mp hsaid
  obtain rfl := List.map_eq_nil_iff.mp hsaid
  obtain ⟨_, _, _, fds₁⟩ := r₁
  obtain ⟨_, _, _, fds₂⟩ := r₂
  cases h₁
  cases h₂
  refine ⟨hw.trans rfl, hsent.trans rfl, ?_⟩
  obtain ⟨e, _, he⟩ := hresult
  exact ⟨e, he⟩

end Server

end FileBroker
