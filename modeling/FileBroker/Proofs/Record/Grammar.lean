import Mathlib
import FileBroker.Proofs.Channel.Parsing
import FileBroker.Proofs.Record.RoundTrip
import FileBroker.Proofs.Text.Numeral

namespace FileBroker

open Channel Decimal

variable {δ : Type} {c d : Channel δ}

namespace Record

-- Numbers that fit in 32 bits, each with what ends it.
inductive Fields : List TokenEnd → List Int32 → Bytes → Prop
  | nil  : Fields [] [] []
  | cons : Numeral token n.toInt → Fields ends numbers rest →
      Fields (last :: ends) (n :: numbers) (token ++ last.byte :: rest)

-- What follows the keyword line. The first number announces descriptors, one marker byte for each,
-- and the last ones are the lengths of the paths.
inductive SpellsBody (o : Operation) : List Int32 → List Bytes → Bytes → Prop
  | intro (count : Int32) (args lengths : List Int32) (paths : List Bytes) (fields markers : Bytes)
      (numbers : Fields (terminators o) (count :: (args ++ lengths)) fields)
      (args_length : args.length = o.args)
      (paths_length : paths.length = o.paths)
      (lengths_eq : lengths.map Int32.toInt = paths.map fun path => (path.length : Int))
      (count_nonneg : 0 ≤ count.toInt)
      (count_le : count.toInt ≤ o.slots)
      (markers_length : (markers.length : Int) = count.toInt) :
      SpellsBody o args paths
        (fields ++ (paths.flatten ++ ((if o.paths = 0 then [] else [newline]) ++ markers)))

-- `bytes` are a record of `o` with these numbers and paths.
def Spells (o : Operation) (args : List Int32) (paths : List Bytes) (bytes : Bytes) : Prop :=
  ∃ body, bytes = Utf8.encode o.keyword ++ newline :: body ∧ SpellsBody o args paths body

-- `fronts` are records, one of each content.
abbrev SpellEach : List (Operation × List Int32 × List Bytes) → List Bytes → Prop :=
  List.Forall₂ fun said front => Spells said.1 said.2.1 said.2.2 front

-- `bytes` begin with a record.
def Begins (bytes : Bytes) : Prop :=
  ∃ o args paths front rest, bytes = front ++ rest ∧ Spells o args paths front

theorem Fields.length (h : Fields ends numbers bytes) : numbers.length = ends.length := by
  induction h
  case nil       => rfl
  case cons _ hi => simp [hi]

theorem Spells.newline_mem {args : List Int32} {paths : List Bytes} (h : Spells o args paths bytes) :
    newline ∈ bytes := by
  obtain ⟨body, rfl, _⟩ := h
  simp

-- Any bytes are some records, and then none.
theorem exists_split (bytes : Bytes) :
    ∃ said fronts rest, SpellEach said fronts ∧ bytes = fronts.flatten ++ rest ∧ ¬Begins rest := by
  induction hl : bytes.length using Nat.strongRecOn generalizing bytes
  case ind hi =>
    by_cases hb : Begins bytes
    case neg => exact ⟨[], [], bytes, .nil, rfl, hb⟩
    case pos =>
      obtain ⟨o, args, paths, front, rest, rfl, hs⟩ := hb
      have := List.length_pos_of_mem hs.newline_mem
      obtain ⟨said, fronts, rest, hf, rfl, hr⟩ := hi rest.length (by simp at hl; omega) rest rfl
      exact ⟨(o, args, paths) :: said, front :: fronts, rest, .cons hs hf, by simp, hr⟩

-- A number is what its 64 bits hold, if it fits in 32 of them.
theorem parseField_ok_iff : parseField token = .ok n ↔ Numeral token n.toInt := by
  rw [←decode?_parse?_iff, parseField]
  cases Utf8.decode? token
  case none => simp
  case some s =>
    simp only [Option.bind_some, int64?]
    cases parse? s.toList
    case none => simp
    case some i =>
      have h₆₄ (h : fits 64 i) : (Int64.ofInt i).toInt = i := by
        simp only [fits, Bool.and_eq_true, decide_eq_true_eq, Nat.pow_eq, Nat.reduceSub, Nat.reducePow] at h
        exact Int64.toInt_ofInt_of_le (by omega) (by omega)
      by_cases h : fits 32 i
      case pos =>
        have hb := fits_32_iff.mp h
        have h₃₂ : (Int32.ofInt i).toInt = i := Int32.toInt_ofInt_of_le (by omega) (by omega)
        simp only [fits_64_of_32 h, if_true, h₆₄, h, Except.ok.injEq, Option.some.injEq]
        exact ⟨fun hn => hn ▸ h₃₂.symm, fun hi => by rw [hi, Int32.ofInt_toInt]⟩
      case neg =>
        refine iff_of_false ?_ fun hi => h <| Option.some.inj hi ▸ fits_toInt n
        by_cases h' : fits 64 i
        case pos => simp [h', h₆₄, h]
        case neg => simp [h']

section
variable {o : Operation}

theorem accepts_readNumbers (ends : List TokenEnd) :
    Reading.Accepts (readNumbers (δ := δ) o ends) id (Fields ends) := by
  induction ends
  case nil =>
    refine (Reading.Accepts.pure []).congr fun numbers bytes => ⟨?_, ?_⟩
    case refine_1 => rintro ⟨rfl, rfl⟩; exact .nil
    case refine_2 => rintro ⟨⟩; exact ⟨rfl, rfl⟩
  case cons wanted ends hi =>
    rw [readNumbers]
    refine (Reading.Accepts.readToken.bind fun token => .guard fun _ =>
      (Reading.Accepts.lift (parseField token.1)).bind fun n => hi.bind fun numbers =>
        .pure (n :: numbers)).congr fun numbers bytes => ⟨?_, ?_⟩
    case refine_1 =>
      rintro ⟨⟨token, last⟩, _, _, rfl, ⟨rfl, _⟩, hl, n, _, _, rfl, ⟨hn, rfl⟩, ns, rest, _, rfl, hf, rfl, rfl⟩
      obtain rfl := Decidable.not_not.mp hl
      have : Fields (last :: ends) (n :: ns) _ := .cons (parseField_ok_iff.mp hn) hf
      simpa using this
    case refine_2 =>
      rintro ⟨⟩
      case cons token ns rest n hn hf =>
        exact ⟨(token, wanted), _, rest, List.append_cons .., ⟨rfl, hn.no_end⟩, by simp, n, [], rest, rfl,
          ⟨parseField_ok_iff.mpr hn, rfl⟩, ns, rest, [], by simp, hf, rfl, rfl⟩

theorem accepts_readPaths (lengths : List Int32) :
    Reading.Accepts (readPaths (δ := δ) lengths) id fun paths bytes =>
      lengths.map Int32.toInt = (paths.map fun path => (path.length : Int)) ∧ bytes = paths.flatten := by
  induction lengths
  case nil =>
    refine (Reading.Accepts.pure []).congr fun paths bytes => ⟨?_, ?_⟩
    case refine_1 => rintro ⟨rfl, rfl⟩; exact ⟨rfl, rfl⟩
    case refine_2 =>
      rintro ⟨hl, rfl⟩
      obtain rfl : paths = [] := by simpa using hl.symm
      exact ⟨rfl, rfl⟩
  case cons length lengths hi =>
    rw [readPaths]
    refine (Reading.Accepts.guard fun _ => (Reading.Accepts.readExact length.toInt.toNat).bind fun path =>
      hi.bind fun paths => .pure (path :: paths)).congr fun paths bytes => ⟨?_, ?_⟩
    case refine_1 =>
      rintro ⟨hn, path, _, _, rfl, ⟨rfl, hl⟩, paths, _, _, rfl, ⟨hls, rfl⟩, rfl, rfl⟩
      rw [Int32.lt_iff_toInt_lt, Int32.toInt_zero, Int.not_lt] at hn
      refine ⟨?_, by simp⟩
      rw [id, List.map_cons, List.map_cons, hls, hl, Int.toNat_of_nonneg hn]
    case refine_2 =>
      rintro ⟨hl, rfl⟩
      obtain ⟨path, paths, rfl, hp, hls⟩ := List.map_eq_cons_iff.mp hl.symm
      have hn : ¬length < 0 := by
        rw [Int32.lt_iff_toInt_lt, ←hp]
        simp
      exact ⟨hn, path, path, paths.flatten, rfl, ⟨rfl, by rw [←hp, Int.toNat_natCast]⟩, paths,
        paths.flatten, [], by simp, ⟨hls.symm, rfl⟩, rfl, rfl⟩

-- A record as far as it does not depend on which descriptors have arrived.
def spoken (r : Record δ) : Operation × List Int32 × List Bytes :=
  (r.operation, r.args, r.paths)

-- The markers at the end of a record, with which its descriptors come.
theorem accepts_markers (o : Operation) (args : List Int32) (paths : List Bytes) (count : Nat) :
    Reading.Accepts (do
      let _ ← Reading.io (readExact · count)
      let fds ← (modifyGet (takeFds · count) : Reading δ FrameError (List δ))
      return ({ operation := o, args, paths, fds } : Record δ)) spoken
    fun said bytes => said = (o, args, paths) ∧ bytes.length = count := by
  have hr (fds : List δ) : Reading.Accepts
      (pure { operation := o, args, paths, fds } : Reading δ FrameError (Record δ)) spoken
      fun said bytes => said = (o, args, paths) ∧ bytes = [] :=
    .pure _
  refine ((Reading.Accepts.readExact count).bind fun _ => .takeFds hr count).congr fun said bytes => ⟨?_, ?_⟩
  case refine_1 =>
    rintro ⟨_, _, _, rfl, ⟨rfl, hl⟩, rfl, rfl⟩
    exact ⟨rfl, by rwa [List.append_nil]⟩
  case refine_2 =>
    rintro ⟨rfl, hl⟩
    exact ⟨bytes, bytes, [], by rw [List.append_nil], ⟨rfl, hl⟩, rfl, rfl⟩

-- A line that is to be empty, behind the paths of a record that has some.
theorem accepts_line {m : Reading δ FrameError α} {view : α → β} (h : Reading.Accepts m view means)
    (o : Operation) (f : PUnit → Reading δ FrameError α) :
    Reading.Accepts
      (if 0 < o.paths then do
        let stray ← Reading.io (readUntil · newline)
        if !stray.isEmpty then Reading.malformed (.stray stray.length o) >>= f else m
      else m) view
    fun b bytes => ∃ rest, bytes = (if o.paths = 0 then [] else [newline]) ++ rest ∧ means b rest := by
  split
  case isTrue ho =>
    refine ((Reading.Accepts.readUntil newline).bind fun stray => .guard fun _ => h).congr
      fun b bytes => ⟨?_, ?_⟩
    case refine_1 =>
      rintro ⟨stray, _, rest, rfl, ⟨rfl, _⟩, hs, hb⟩
      obtain rfl : stray = [] := by simpa using hs
      exact ⟨rest, by rw [if_neg (Nat.ne_of_gt ho)]; rfl, hb⟩
    case refine_2 =>
      rintro ⟨rest, rfl, hb⟩
      exact ⟨[], [newline], rest, by rw [if_neg (Nat.ne_of_gt ho)], ⟨rfl, by simp⟩, by simp, hb⟩
  case isFalse ho =>
    refine h.congr fun b bytes => ?_
    rw [if_pos (Nat.eq_zero_of_not_pos ho)]
    simp

-- The announced number of descriptors as the guard of a record sees it.
theorem announces_iff (o : Operation) (count : Int32) :
    ¬(count < 0 ∨ o.slots < count.toInt.toNat) ↔ 0 ≤ count.toInt ∧ count.toInt ≤ o.slots := by
  rw [Int32.lt_iff_toInt_lt, Int32.toInt_zero]
  omega

theorem accepts_readBody (o : Operation) :
    Reading.Accepts (readBody (δ := δ) o) spoken fun said bytes =>
      said.1 = o ∧ SpellsBody o said.2.1 said.2.2 bytes := by
  rw [readBody]
  refine ((accepts_readNumbers (terminators o)).bind fun numbers => .guard fun _ =>
    (accepts_readPaths (numbers.drop (1 + o.args))).bind fun paths =>
      accepts_line (accepts_markers o ((numbers.drop 1).take o.args) paths _) o _).congr
    fun said bytes => ⟨?_, ?_⟩
  case refine_1 =>
    rintro ⟨numbers, fields, _, rfl, hf, hc, paths, _, _, rfl, ⟨hls, rfl⟩, markers, rfl, rfl, hm⟩
    have hl := hf.length
    rw [terminators, List.length_append, List.length_replicate, List.length_singleton] at hl
    obtain ⟨count, numbers, rfl⟩ := List.exists_cons_of_length_eq_add_one hl
    rw [List.headD_cons] at hc hm
    rw [List.length_cons, Nat.add_right_cancel_iff] at hl
    rw [Nat.add_comm, List.drop_succ_cons] at hls
    obtain ⟨hn, hle⟩ := (announces_iff o count).mp hc
    have hp := congrArg List.length hls
    simp only [List.length_map, List.length_drop] at hp
    exact ⟨rfl, .intro count (numbers.take o.args) (numbers.drop o.args) paths fields markers
      (by rwa [List.take_append_drop]) (by rw [List.length_take]; omega) (by omega) hls hn hle
      (by rw [hm, Int.toNat_of_nonneg hn])⟩
  case refine_2 =>
    obtain ⟨p, args, paths⟩ := said
    rintro ⟨rfl : p = o, hb : SpellsBody p args paths bytes⟩
    obtain ⟨count, _, lengths, _, fields, markers, hf, ha, _, hls, hn, hle, hm⟩ := hb
    have hd : ((count :: (args ++ lengths)).drop 1).take args.length = args := List.take_left ..
    have hr : (count :: (args ++ lengths)).drop (1 + args.length) = lengths := by
      rw [Nat.add_comm, List.drop_succ_cons, List.drop_left]
    refine ⟨_, fields, _, rfl, hf, (announces_iff _ count).mpr ⟨hn, hle⟩, paths, paths.flatten, _, rfl,
      ⟨by rw [←ha, hr, hls], rfl⟩, markers, rfl, by rw [←ha, hd], ?_⟩
    rw [List.headD_cons]
    omega

end

theorem keyword_ascii (o : Operation) : ∀ c ∈ o.keyword.toList, Char.toNat c < 0x80 := by
  cases o <;> simp [Operation.keyword]

theorem ofKeyword?_eq_some : Operation.ofKeyword? keyword = some o ↔ keyword = o.keyword := by
  refine ⟨fun h => ?_, fun h => h ▸ ofKeyword?_keyword o⟩
  unfold Operation.ofKeyword? at h
  have := List.find?_some h
  exact (of_decide_eq_true this).symm

-- A line that is to be the keyword of an operation.
def readNamed : Reading δ FrameError (Option Operation) := do
  match Utf8.decode? (← Reading.io (readUntil · newline)) with
  | none => Reading.malformed .keywordNotText
  | some keyword =>
    match Operation.ofKeyword? keyword with
    | none   => Reading.malformed (.unknownOperation keyword)
    | some o => return some o

-- A record that has begun.
def readBegun : Reading δ FrameError (Option (Record δ)) := do
  match ← readNamed with
  | none   => return none
  | some o => return some (← readBody o)

theorem read_eq :
    (Record.read : Reading δ FrameError (Option (Record δ))) =
      Reading.io atEnd >>= fun ended => if ended then pure none else readBegun := by
  have hk : (readKeyword : Reading δ FrameError (Option Operation)) =
      Reading.io atEnd >>= fun ended => if ended then pure none else readNamed := rfl
  rw [Record.read, hk, bind_assoc]
  congr
  funext ended
  cases ended
  case false => rfl
  case true  => exact pure_bind ..

theorem accepts_readNamed :
    Reading.Accepts (readNamed (δ := δ)) id
      fun o? bytes => ∃ o, o? = some o ∧ bytes = Utf8.encode o.keyword ++ [newline] := by
  have hline (line : Bytes) : Reading.Accepts (
      match Utf8.decode? line with
      | none => Reading.malformed .keywordNotText
      | some keyword =>
        match Operation.ofKeyword? keyword with
        | none   => Reading.malformed (.unknownOperation keyword)
        | some o => return some o : Reading δ FrameError (Option Operation)) id
      fun o? bytes => bytes = [] ∧ ∃ o, o? = some o ∧ line = Utf8.encode o.keyword := by
    split
    case h_1 hd =>
      refine (Reading.Accepts.malformed _).congr fun o? bytes => iff_of_false id ?_
      rintro ⟨_, o, _, rfl⟩
      simp at hd
    case h_2 keyword hd =>
      split
      case h_1 ho =>
        refine (Reading.Accepts.malformed _).congr fun o? bytes => iff_of_false id ?_
        rintro ⟨_, o, _, rfl⟩
        rw [Utf8.decode?_encode, Option.some.injEq] at hd
        simp [←hd, ofKeyword?_keyword] at ho
      case h_2 o ho =>
        obtain rfl := ofKeyword?_eq_some.mp ho
        obtain rfl := (Utf8.decode?_eq_ascii <| keyword_ascii o).mp hd
        refine (Reading.Accepts.pure (some o)).congr fun o? bytes => ⟨?_, ?_⟩
        case refine_1 => exact fun ⟨ho, hb⟩ => ⟨hb, o, ho, rfl⟩
        case refine_2 =>
          rintro ⟨hb, p, rfl, hp⟩
          have hk := (Utf8.decode?_encode o.keyword).symm.trans <| hp ▸ Utf8.decode?_encode p.keyword
          exact ⟨congrArg some (Operation.keyword_inj <| Option.some.inj hk).symm, hb⟩
  refine ((Reading.Accepts.readUntil newline).bind hline).congr fun o? bytes => ⟨?_, ?_⟩
  case refine_1 =>
    rintro ⟨line, _, _, rfl, ⟨rfl, _⟩, rfl, o, rfl, rfl⟩
    exact ⟨o, rfl, List.append_nil _⟩
  case refine_2 =>
    rintro ⟨o, rfl, rfl⟩
    exact ⟨_, _, [], (List.append_nil _).symm, ⟨rfl, keyword_no_newline o⟩, rfl, o, rfl, rfl⟩

theorem accepts_readBegun :
    Reading.Accepts (readBegun (δ := δ)) (Option.map spoken)
      fun said? bytes => ∃ o args paths, said? = some (o, args, paths) ∧ Spells o args paths bytes := by
  have hbody (o? : Option Operation) : Reading.Accepts (
      match o? with
      | none   => return none
      | some o => return some (← readBody o) : Reading δ FrameError (Option (Record δ))) (Option.map spoken)
      fun said? bytes => match o? with
      | none   => said? = none ∧ bytes = []
      | some o => ∃ args paths, said? = some (o, args, paths) ∧ SpellsBody o args paths bytes := by
    cases o?
    case none   => exact .pure none
    case some o =>
      refine (accepts_readBody o).present.congr fun said? bytes => ⟨?_, ?_⟩
      case refine_1 =>
        rintro ⟨⟨_, args, paths⟩, rfl, rfl, hb⟩
        exact ⟨args, paths, rfl, hb⟩
      case refine_2 =>
        rintro ⟨args, paths, rfl, hb⟩
        exact ⟨(o, args, paths), rfl, rfl, hb⟩
  refine (accepts_readNamed.bind hbody).congr fun said? bytes => ⟨?_, ?_⟩
  case refine_1 =>
    rintro ⟨_, _, body, rfl, ⟨o, rfl, rfl⟩, args, paths, rfl, hb⟩
    exact ⟨o, args, paths, rfl, body, by simp, hb⟩
  case refine_2 =>
    rintro ⟨o, args, paths, rfl, body, rfl, hb⟩
    exact ⟨some o, _, body, List.append_cons .., ⟨o, rfl, rfl⟩, args, paths, rfl, hb⟩

-- No more descriptors than markers are taken, and no more markers than there are slots.
theorem readBody_fds {o : Operation} {r : Record δ} (h : (readBody o).on c = (.ok r, d)) :
    r.fds.length ≤ r.operation.slots := by
  obtain ⟨numbers, _, _, h⟩ := Reading.bind_ok h
  dsimp only at h
  split at h
  case isTrue  => cases h
  case isFalse hc =>
    have ⟨hn, hle⟩ := (announces_iff _ _).mp hc
    obtain ⟨paths, c₁, _, h⟩ := Reading.bind_ok h
    have htail (e : Channel δ) (h : Reading.on (do
        let _ ← Reading.io (readExact · (numbers.headD 0).toInt.toNat)
        let fds ← (modifyGet (takeFds · (numbers.headD 0).toInt.toNat) : Reading δ FrameError (List δ))
        return ({ operation := o, args := (numbers.drop 1).take o.args, paths, fds } : Record δ)) e =
          (.ok r, d)) : r.fds.length ≤ r.operation.slots := by
      obtain ⟨_, _, _, h⟩ := Reading.bind_ok h
      cases h
      have := Int.toNat_le.mpr hle
      exact Nat.le_trans (List.length_take_le ..) this
    split at h
    case isFalse => exact htail _ h
    case isTrue =>
      obtain ⟨stray, _, _, h⟩ := Reading.bind_ok h
      split at h
      case isTrue  => cases h
      case isFalse => exact htail _ h

theorem read_fds {r : Record δ} (h : Record.read.on c = (.ok (some r), d)) :
    r.fds.length ≤ r.operation.slots := by
  obtain ⟨o?, e, _, h⟩ := Reading.bind_ok h
  cases o?
  case none => cases h
  case some o =>
    obtain ⟨body, _, hb, h⟩ := Reading.bind_ok h
    cases h
    exact readBody_fds hb

end Record

namespace Channel

-- Nothing is left to read, and nothing will be.
def AtEnd (c : Channel δ) : Prop :=
  c.unread = [] ∧ c.inbound.ended ∧ c.inbound.reset = false

theorem Wf.atEnd_cases (h : c.Wf) :
    (c.unread ≠ [] ∧ ∃ d, c.atEnd = (.ok false, d) ∧ c.Past [] d) ∨
    (c.AtEnd ∧ ∃ d, c.atEnd = (.ok true, d)) ∨
    (c.unread = [] ∧ ¬c.AtEnd ∧ ∃ e d, c.atEnd = (.error e, d)) := by
  have hu : c.unread = [] ↔ c.stream.cells = [] := by
    rw [←h.stream_bytes, Stream.bytes, List.map_eq_nil_iff]
  by_cases hs : c.stream.cells = []
  case neg =>
    obtain ⟨d, hd, hdc, hdo⟩ := atEnd_false hs c h.carries
    exact .inl ⟨mt hu.mp hs, d, hd, (Past.of_carries h.carries rfl (by simpa using hdc) hdo).left⟩
  case pos =>
    obtain ⟨d, hd, _⟩ := atEnd_nil hs c h.carries
    have he : c.stream.ended = c.inbound.ended := rfl
    have hr : c.stream.reset = c.inbound.reset := rfl
    simp only [Stream.silence, he, hr] at hd
    refine .inr ?_
    unfold AtEnd
    cases hr : c.inbound.reset <;> cases he : c.inbound.ended
    case false.true => exact .inl ⟨⟨hu.mpr hs, rfl, rfl⟩, d, by simpa [hr, he, Except.map] using hd⟩
    all_goals
      refine .inr ⟨hu.mpr hs, by simp, ?_⟩
      simp [hr, he] at hd
      exact ⟨_, d, hd⟩

theorem readRecord_eq (c : Channel δ) :
    c.readRecord =
      match c.atEnd with
      | (.ok false, d) => Record.readBegun.on d
      | (.ok true, d)  => (.ok none, d)
      | (.error e, d)  => (.error (.io e), d) := by
  change Record.read.on c = _
  simp only [Record.read_eq, Reading.bind_on, Reading.io_on]
  match c.atEnd with
  | (.ok false, d) => rfl
  | (.ok true, d)  => rfl
  | (.error e, d)  => rfl

-- Reading a record, by what is left of the stream.
theorem Wf.readRecord_cases (h : c.Wf) :
    (c.unread ≠ [] ∧ ∃ d, c.Past [] d ∧ c.readRecord = Record.readBegun.on d) ∨
    (c.AtEnd ∧ ∃ d, c.readRecord = (.ok none, d)) ∨
    (c.unread = [] ∧ ¬c.AtEnd ∧ ∃ e d, c.readRecord = (.error e, d)) := by
  obtain ⟨hu, d, hd, hp⟩ | ⟨ha, d, hd⟩ | ⟨hu, ha, e, d, hd⟩ := h.atEnd_cases
  case inl     => exact .inl ⟨hu, d, hp, by rw [readRecord_eq, hd]⟩
  case inr.inl => exact .inr <| .inl ⟨ha, d, by rw [readRecord_eq, hd]⟩
  case inr.inr => exact .inr <| .inr ⟨hu, ha, .io e, d, by rw [readRecord_eq, hd]⟩

theorem Wf.readRecord_none (h : c.Wf) : c.readRecord.1 = .ok none ↔ c.AtEnd := by
  obtain ⟨hu, d, hp, hr⟩ | ⟨ha, d, hr⟩ | ⟨_, ha, e, d, hr⟩ := h.readRecord_cases
  case inl =>
    refine iff_of_false (fun hn => ?_) fun ha => hu ha.left
    rw [hr] at hn
    have ⟨_, _, _, _, _, hs, _⟩ := Record.accepts_readBegun.sound hp.wf (Prod.ext hn rfl)
    simp at hs
  case inr.inl => exact iff_of_true (by rw [hr]) ha
  case inr.inr => exact iff_of_false (by rw [hr]; simp) ha

-- What has been read is what the bytes say that have been taken.
theorem Wf.readRecord_sound (h : c.Wf) {r : Record δ} (hr : c.readRecord = (.ok (some r), d)) :
    ∃ front, c.Past front d ∧ Record.Spells r.operation r.args r.paths front := by
  obtain ⟨_, e, hp, he⟩ | ⟨_, _, he⟩ | ⟨_, _, _, _, he⟩ := h.readRecord_cases
  case inl =>
    have ⟨front, hp', o, args, paths, hs, hf⟩ := Record.accepts_readBegun.sound hp.wf (he.symm.trans hr)
    obtain ⟨rfl, rfl, rfl⟩ : r.operation = o ∧ r.args = args ∧ r.paths = paths := by
      simpa [Record.spoken] using hs
    exact ⟨front, hp.trans hp', hf⟩
  case inr.inl => simp [he] at hr
  case inr.inr => simp [he] at hr

-- What the bytes say is what is read.
theorem Wf.readRecord_complete (h : c.Wf) (hu : c.unread = front ++ rest)
    (hs : Record.Spells o args paths front) :
    ∃ fds d, c.readRecord = (.ok (some ⟨o, args, paths, fds⟩), d) ∧ d.unread = rest := by
  have hn : c.unread ≠ [] := fun hn => by
    have := List.append_eq_nil_iff.mp (hu.symm.trans hn)
    exact absurd hs.newline_mem (by simp [this.left])
  obtain ⟨_, e, hp, he⟩ | ⟨ha, _⟩ | ⟨hn', _⟩ := h.readRecord_cases
  case inl =>
    rw [hp.unread] at hu
    obtain ⟨r, d, hr, hv, hd⟩ := Record.accepts_readBegun.complete hp.wf hu ⟨o, args, paths, rfl, hs⟩
    obtain ⟨r, rfl, hr'⟩ := Option.map_eq_some_iff.mp hv
    cases hr'
    exact ⟨r.fds, d, he.trans hr, hd⟩
  case inr.inl => exact absurd ha.left hn
  case inr.inr => exact absurd hn' hn

-- Anything else is refused.
theorem Wf.readRecord_error (h : c.Wf) :
    (∃ e, c.readRecord.1 = .error e) ↔ ¬c.AtEnd ∧ ¬Record.Begins c.unread := by
  refine ⟨fun ⟨e, he⟩ => ⟨fun ha => ?_, ?_⟩, fun ⟨ha, hn⟩ => ?_⟩
  · simp [h.readRecord_none.mpr ha] at he
  · rintro ⟨o, args, paths, front, rest, hu, hs⟩
    have ⟨fds, d, hr, _⟩ := h.readRecord_complete hu hs
    simp [hr] at he
  · match hr : c.readRecord with
    | (.ok none, _)     => exact absurd (h.readRecord_none.mp (by rw [hr])) ha
    | (.ok (some r), _) =>
      have ⟨front, hp, hs⟩ := h.readRecord_sound hr
      exact absurd ⟨_, _, _, front, _, hp.unread, hs⟩ hn
    | (.error e, _)     => exact ⟨e, rfl⟩

-- Reading a record is no matter of what is being sent.
theorem readRecord_silent : Silent (readRecord (δ := δ)) := by
  intro c o
  rw [readRecord_eq, readRecord_eq, atEnd_silent]
  match c.atEnd with
  | (.ok false, d) => exact Record.accepts_readBegun.silent d o
  | (.ok true, d)  => rfl
  | (.error e, d)  => rfl

-- Any bytes, in whichever pieces they arrive.
theorem readRecord_follows_grammar (h : c.Wf) :
    let result := c.readRecord.1
    let after  := c.readRecord.2
    (result = .ok none ↔ c.unread = [] ∧ c.inbound.ended ∧ c.inbound.reset = false) ∧
    (∀ o args paths front rest, c.unread = front ++ rest → Record.Spells o args paths front →
      after.unread = rest ∧ ∃ fds, fds.length ≤ o.slots ∧ result = .ok (some ⟨o, args, paths, fds⟩)) ∧
    (∀ r, result = .ok (some r) → r.fds.length ≤ r.operation.slots ∧
      ∃ front, c.unread = front ++ after.unread ∧ Record.Spells r.operation r.args r.paths front) ∧
    ((∃ e, result = .error e) ↔
      ¬(c.unread = [] ∧ c.inbound.ended ∧ c.inbound.reset = false) ∧ ¬Record.Begins c.unread) := by
  intro result after
  have hcomplete (o args paths front rest) (hu : c.unread = front ++ rest)
      (hs : Record.Spells o args paths front) : after.unread = rest ∧
        ∃ fds, fds.length ≤ o.slots ∧ result = .ok (some ⟨o, args, paths, fds⟩) := by
    have ⟨fds, d, hr, hd⟩ := h.readRecord_complete hu hs
    refine ⟨by simp only [after, hr, hd], fds, ?_, by simp only [result, hr]⟩
    exact Record.read_fds hr
  have hsound (r) (hr : result = .ok (some r)) : r.fds.length ≤ r.operation.slots ∧
      ∃ front, c.unread = front ++ after.unread ∧ Record.Spells r.operation r.args r.paths front := by
    have hr : c.readRecord = (.ok (some r), after) := Prod.ext hr rfl
    have ⟨front, hp, hs⟩ := h.readRecord_sound hr
    exact ⟨Record.read_fds hr, front, hp.unread, hs⟩
  exact ⟨h.readRecord_none, hcomplete, hsound, h.readRecord_error⟩

-- A sign and leading zeros are in order, and what the marker is does not matter.
theorem readRecord_of_odd_numbers :
    let sent : List (Segment Nat) :=
      [{ bytes := Utf8.encode Operation.makeDir.keyword ++ [10, 43, 49, 32, 45, 48, 52] },
        { bytes := [52, 56, 32, 48, 49, 32, 97, 10, 7, 88], fds := [3] }]
    let c : Channel Nat := { inbound := sent.foldl Inbound.push { pace := [1, 7], ended := true } }
    c.Wf ∧ c.readRecord.2.unread = [88] ∧
      ∃ fds, fds.length ≤ 1 ∧ c.readRecord.1 = .ok (some ⟨.makeDir, [-448], [[97]], fds⟩) := by
  intro sent c
  have hc := (fresh_carries (δ := Nat) [1, 7] true).pushAll sent
  have hu : c.unread = Utf8.encode Operation.makeDir.keyword ++
      newline :: ([43, 49, 32, 45, 48, 52, 52, 56, 32, 48, 49, 32] ++ ([97] ++ ([10] ++ [7]))) ++ [88] := by
    rw [hc.unread_eq]
    simp [Stream.bytes, Segment.cells_bytes, sent, newline]
  have hs : Record.Spells .makeDir [-448] [[97]] (Utf8.encode Operation.makeDir.keyword ++
      newline :: ([43, 49, 32, 45, 48, 52, 52, 56, 32, 48, 49, 32] ++ ([97] ++ ([10] ++ [7])))) := by
    have h₁ : Numeral [43, 49] (1 : Int32).toInt := .plus (by simp) (by simp [Digit])
    have h₂ : Numeral [45, 48, 52, 52, 56] (-448 : Int32).toInt := .minus (by simp) (by simp [Digit])
    have h₃ : Numeral [48, 49] (1 : Int32).toInt := .bare (by simp) (by simp [Digit])
    exact ⟨_, rfl, .intro 1 [-448] [1] [[97]] _ [7] (.cons h₁ <| .cons h₂ <| .cons h₃ .nil) rfl rfl rfl
      (by decide) (by decide) rfl⟩
  have h := (readRecord_follows_grammar hc.toWf).right.left _ _ _ _ _ hu hs
  exact ⟨hc.toWf, h⟩

end Channel

end FileBroker
