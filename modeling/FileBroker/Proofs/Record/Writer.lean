import Mathlib
import FileBroker.Proofs.Channel.Segmentation
import FileBroker.Proofs.Record.Overflow
import FileBroker.Proofs.Record.RoundTrip
import FileBroker.Proofs.Text.Canonical

namespace FileBroker

namespace Decimal

-- How a number is written without a plus sign, and without a zero in front.
inductive Plain : Int → List Char → Prop
  | zero : Plain 0 ['0']
  | positive {n : Nat} : 0 < n → Canonical digits n → Plain n digits
  | negative {n : Nat} : 0 < n → Canonical digits n → Plain (-n) ('-' :: digits)

theorem render_plain (n : Int) : Plain n (render n) := by
  cases n
  case ofNat n =>
    cases n
    case zero   => exact .zero
    case succ n => exact .positive n.succ_pos <| (canonical_iff n.succ_pos).mpr rfl
  case negSucc n => exact .negative n.succ_pos <| (canonical_iff n.succ_pos).mpr rfl

end Decimal

namespace RecordWriter

-- A writer that is changed in place. When a step of it fails, what was done before stays done.
abbrev Writing := ExceptT FrameError (StateM RecordWriter)

def separate : Writing Unit :=
  modify fun w => { bytes := w.bytes ++ (if w.fields = 0 then [] else [space]), fields := w.fields + 1 }

def append (bytes : Bytes) : Writing Unit :=
  modify fun w => { w with bytes := w.bytes ++ bytes }

-- What can be asked of a writer.
inductive Step
  | int (name : String) (value : Int)
  | len (name : String) (length : Nat)
  | paths (parts : List Bytes)

namespace Step

def perform : Step → Writing Unit
  | int name value  => number name value
  | len name length => number name length
  | paths []        => return
  | paths parts     => do
    separate
    parts.forM append
where
  number (name : String) (value : Int) : Writing Unit := do
    if !Decimal.fits 32 value then
      throw (.overflow name value)
    separate
    append (RecordWriter.number value)

-- The result of a step, and the writer after it, whatever the result.
def attempt (s : Step) (w : RecordWriter) : Except FrameError Unit × RecordWriter :=
  s.perform.run.run w

-- A step of a writer that is not changed, but replaced by another one.
def on (w : RecordWriter) : Step → Except FrameError RecordWriter
  | int name value  => w.int name value
  | len name length => w.len name length
  | paths parts     => .ok (w.paths parts)

inductive Overflows : Step → FrameError → Prop
  | int {name : String} {value : Int} : ¬(-2 ^ 31 ≤ value ∧ value < 2 ^ 31) →
    Overflows (.int name value) (.overflow name value)
  | len {name : String} {length : Nat} : 2 ^ 31 ≤ length →
    Overflows (.len name length) (.overflow name length)

-- The number that a step adds to a record.
def number? : Step → Option Int
  | int _ value  => if -2 ^ 31 ≤ value ∧ value < 2 ^ 31 then some value else none
  | len _ length => if length < 2 ^ 31 then some length else none
  | paths _      => none

-- The field that a step adds.
def field? : Step → Option Bytes
  | paths []    => none
  | paths parts => some parts.flatten
  | s           => s.number?.map RecordWriter.number

-- A length is a number like any other.
inductive Asks : Step → String → Int → Prop
  | int : Asks (.int name value) name value
  | len : Asks (.len name length) name length

variable {s : Step} {w : RecordWriter}

theorem asks_or_paths (s : Step) : (∃ name value, s.Asks name value) ∨ ∃ parts, s = paths parts := by
  cases s
  case int         => exact .inl ⟨_, _, .int⟩
  case len         => exact .inl ⟨_, _, .len⟩
  case paths parts => exact .inr ⟨parts, rfl⟩

theorem Asks.perform_eq (h : s.Asks name value) : s.perform = perform.number name value := by
  cases h <;> rfl

theorem Asks.on_eq (h : s.Asks name value) : s.on w = w.int name value := by
  cases h <;> rfl

theorem Asks.overflows_iff (h : s.Asks name value) :
    s.Overflows e ↔ ¬Decimal.fits 32 value ∧ e = .overflow name value := by
  cases h
  case int =>
    rw [Decimal.fits_32_iff]
    constructor
    case mp  => rintro ⟨⟩; exact ⟨‹_›, rfl⟩
    case mpr => exact fun ⟨h, he⟩ => he ▸ .int h
  case len =>
    rw [Decimal.fits_natCast, decide_eq_true_iff, Nat.not_lt]
    constructor
    case mp  => rintro ⟨⟩; exact ⟨‹_›, rfl⟩
    case mpr => exact fun ⟨h, he⟩ => he ▸ .len h

theorem Asks.number?_eq (h : s.Asks name value) :
    s.number? = if Decimal.fits 32 value then some value else none := by
  cases h
  case int => exact if_congr Decimal.fits_32_iff.symm rfl rfl
  case len => exact if_congr (by rw [Decimal.fits_natCast, decide_eq_true_iff]) rfl rfl

-- Without a path, the field of a step is a number.
theorem field?_eq (h : ∀ parts, s = paths parts → parts = []) :
    s.field? = s.number?.map RecordWriter.number := by
  cases s
  case int         => rfl
  case len         => rfl
  case paths parts => rw [h parts rfl]; rfl

theorem Asks.field?_eq (h : s.Asks name value) :
    s.field? = if Decimal.fits 32 value then some (RecordWriter.number value) else none := by
  rw [Step.field?_eq (by cases h <;> exact fun _ => Step.noConfusion), h.number?_eq,
    apply_ite (Option.map _)]
  rfl

theorem number_run (name : String) (value : Int) (w : RecordWriter) :
    (perform.number name value).run.run w =
      match w.int name value with
      | .ok w'   => (.ok (), w')
      | .error e => (.error e, w) := by
  unfold perform.number RecordWriter.int
  cases Decimal.fits 32 value
  case false => rfl
  case true  => rfl

theorem appendAll_run (parts : List Bytes) (w : RecordWriter) :
    (parts.forM append).run.run w = (.ok (), { w with bytes := w.bytes ++ parts.flatten }) := by
  induction parts generalizing w
  case nil => simp; rfl
  case cons part parts hi =>
    change (parts.forM append).run.run { w with bytes := w.bytes ++ part } = _
    rw [hi, List.append_assoc, List.flatten_cons]

theorem perform_paths_cons (part : Bytes) (parts : List Bytes) :
    perform (paths (part :: parts)) = (separate >>= fun _ => (part :: parts).forM append) :=
  rfl

theorem paths_run (parts : List Bytes) (w : RecordWriter) :
    (perform (paths parts)).run.run w = (.ok (), w.paths parts) := by
  cases parts
  case nil             => rfl
  case cons part parts =>
    rw [perform_paths_cons]
    exact appendAll_run (part :: parts) (separate.run.run w).2

-- Changed in place or replaced, a writer is the same.
theorem attempt_eq (s : Step) (w : RecordWriter) :
    s.attempt w =
      match s.on w with
      | .ok w'   => (.ok (), w')
      | .error e => (.error e, w) := by
  obtain ⟨name, value, h⟩ | ⟨parts, rfl⟩ := s.asks_or_paths
  case inl =>
    rw [attempt, h.perform_eq, h.on_eq]
    exact number_run name value w
  case inr => exact paths_run parts w

theorem on_error_iff : s.on w = .error e ↔ s.Overflows e := by
  obtain ⟨name, value, h⟩ | ⟨parts, rfl⟩ := s.asks_or_paths
  case inl => rw [h.on_eq, int_error_iff, h.overflows_iff]
  case inr => exact iff_of_false (by simp [on]) (by rintro ⟨⟩)

theorem attempt_error_iff : (s.attempt w).1 = .error e ↔ s.Overflows e := by
  rw [attempt_eq, ←on_error_iff (w := w)]
  cases s.on w <;> simp

theorem attempt_ok_iff : s.attempt w = (.ok (), w') ↔ s.on w = .ok w' := by
  rw [attempt_eq]
  cases s.on w <;> simp

theorem attempt_fails (h : s.Overflows e) : (s.attempt w).2 = w := by
  rw [attempt_eq, on_error_iff.mpr h]

theorem number?_fits (h : s.number? = some n) : Decimal.fits 32 n := by
  obtain ⟨name, value, ha⟩ | ⟨parts, rfl⟩ := s.asks_or_paths
  case inl =>
    rw [ha.number?_eq, Option.ite_none_right_eq_some] at h
    exact Option.some.inj h.right ▸ h.left
  case inr => nomatch h

theorem field?_eq_none_iff : s.field? = none ↔ (∃ e, s.Overflows e) ∨ s = paths [] := by
  obtain ⟨name, value, h⟩ | ⟨parts, rfl⟩ := s.asks_or_paths
  case inl =>
    have hs : s ≠ paths [] := by cases h <;> exact Step.noConfusion
    simp [h.field?_eq, h.overflows_iff, hs]
  case inr =>
    cases parts
    case nil  => exact iff_of_true rfl <| .inr rfl
    case cons =>
      refine iff_of_false nofun ?_
      rintro (⟨_, h⟩ | h)
      case inl => nomatch h
      case inr => nomatch h

-- The writer after a step has the field of that step behind its others, if there is one.
theorem attempt_writer (s : Step) (w : RecordWriter) : (s.attempt w).2 = s.field?.elim w w.field := by
  obtain ⟨name, value, h⟩ | ⟨parts, rfl⟩ := s.asks_or_paths
  case inl =>
    rw [attempt_eq, h.on_eq, h.field?_eq, RecordWriter.int]
    cases Decimal.fits 32 value <;> rfl
  case inr =>
    rw [attempt, paths_run]
    cases parts <;> rfl

end Step

open Step

variable {o : Operation} {fields : List Bytes} {w : RecordWriter}

-- The writer after all of these steps.
def after (o : Operation) (steps : List Step) : RecordWriter :=
  steps.foldl (fun w s => (s.attempt w).2) (start o)

-- The bytes and the count of a writer say the same about its fields.
structure Joins (o : Operation) (fields : List Bytes) (w : RecordWriter) : Prop where
  bytes : w.bytes = Utf8.encode o.keyword ++ newline :: [space].intercalate fields
  count : w.fields = fields.length

theorem intercalate_cons (f : Bytes) (fields : List Bytes) :
    [space].intercalate (f :: fields) = f ++ fields.flatMap (space :: ·) := by
  induction fields generalizing f
  case nil => simp
  case cons g fields hi => simp [List.intercalate_cons_cons, hi]

theorem intercalate_snoc (fields : List Bytes) (f : Bytes) :
    [space].intercalate (fields ++ [f]) =
      [space].intercalate fields ++ (if fields.length = 0 then [] else [space]) ++ f := by
  cases fields
  case nil  => simp
  case cons => simp [intercalate_cons]

theorem start_joins (o : Operation) : Joins o [] (start o) where
  bytes := rfl
  count := rfl

theorem Joins.field (h : Joins o fields w) (f : Bytes) : Joins o (fields ++ [f]) (w.field f) where
  bytes := by simp [RecordWriter.field, h.bytes, h.count, intercalate_snoc]
  count := by simp [RecordWriter.field, h.count]

theorem Joins.attempt (h : Joins o fields w) (s : Step) :
    Joins o (fields ++ s.field?.toList) (s.attempt w).2 := by
  rw [attempt_writer]
  cases s.field?
  case none   => simpa using h
  case some f => exact h.field f

theorem Joins.attempts (h : Joins o fields w) (steps : List Step) :
    Joins o (fields ++ steps.filterMap field?) (steps.foldl (fun w s => (s.attempt w).2) w) := by
  induction steps generalizing fields w
  case nil => simpa using h
  case cons s steps hi =>
    have := hi (h.attempt s)
    rw [List.append_assoc] at this
    cases hf : s.field? <;> simpa [hf] using this

theorem finish_after (o : Operation) (steps : List Step) :
    (after o steps).finish =
      Utf8.encode o.keyword ++ newline :: [space].intercalate (steps.filterMap field?) ++ [newline] := by
  rw [finish, after, ((start_joins o).attempts steps).bytes, List.nil_append]

section Reading

variable {δ : Type}

open Channel Record

-- How the reader sees the numbers of a record: all but the last one end with a space.
def ends (numbers : List Int) : List TokenEnd :=
  List.replicate (numbers.length - 1) .space ++ [.newline]

theorem tokens_ends (hn : numbers ≠ []) :
    tokens numbers (ends numbers) = [space].intercalate (numbers.map number) ++ [newline] := by
  obtain ⟨n, numbers, rfl⟩ := List.exists_cons_of_ne_nil hn
  rw [ends, List.length_cons, Nat.add_sub_cancel, tokens_replicate, List.map_cons, intercalate_cons,
    List.flatMap_map]
  rfl

theorem ends_length (hn : numbers ≠ []) : (ends numbers).length = numbers.length := by
  have := List.length_pos_iff.mpr hn
  simp only [ends, List.length_append, List.length_replicate, List.length_singleton]
  omega

def tokenCalls (count : Nat) : List ((α : Type) × ReadCall α) :=
  List.replicate count ⟨_, .token⟩

def tokenResults (numbers : List Int) (ends : List TokenEnd) : List ((α : Type) × Except IoError α) :=
  (numbers.zip ends).map fun (n, last) => ⟨_, .ok (number n, last)⟩

theorem tokens_cons_length (n : Int) (numbers : List Int) (last : TokenEnd) (lasts : List TokenEnd) :
    (tokens (n :: numbers) (last :: lasts)).length =
      (number n).length + 1 + (tokens numbers lasts).length := by
  rw [tokens, List.length_append, List.length_cons]
  omega

theorem readTokens_reads {s : Stream δ} (hl : numbers.length = lasts.length)
    (hs : s.bytes = tokens numbers lasts ++ rest) :
    Reads (ReadCall.runAll (tokenCalls numbers.length)) s (tokenResults numbers lasts)
      (s.advance (tokens numbers lasts).length) := by
  induction lasts generalizing numbers s
  case nil =>
    rw [List.length_nil, List.length_eq_zero_iff] at hl
    subst hl
    exact fun c hc => ⟨c, rfl, by simpa [tokens] using hc, rfl⟩
  case cons last lasts hi =>
    obtain ⟨n, numbers, rfl⟩ := List.exists_cons_of_length_eq_add_one hl
    rw [tokens, List.append_assoc, List.cons_append] at hs
    have hs' : (s.advance ((number n).length + 1)).bytes = tokens numbers lasts ++ rest := by
      rw [Stream.advance_bytes, hs, List.append_cons, List.drop_left' (by simp)]
    intro c hc
    obtain ⟨d, hr, hd, ho⟩ := readToken_found last hs (fun b => number_no_end) c hc
    obtain ⟨e, hrs, he, ho'⟩ := hi (Nat.succ.inj hl) hs' d hd
    have hrun : ReadCall.token.run c = (.ok (number n, last), d) := hr
    refine ⟨e, ?_, ?_, ho'.trans ho⟩
    · simp only [tokenCalls, List.length_cons, List.replicate_succ, ReadCall.runAll, hrun]
      simp only [tokenCalls] at hrs
      rw [hrs]
      rfl
    · rwa [Stream.advance_advance, ←tokens_cons_length n numbers last lasts] at he

theorem filterMap_field? {steps : List Step} (hp : ∀ parts, Step.paths parts ∈ steps → parts = []) :
    steps.filterMap field? = (steps.filterMap number?).map number := by
  rw [List.map_filterMap]
  exact List.filterMap_congr fun s hs => field?_eq fun parts h => hp parts (h ▸ hs)

theorem finish_after_numbers {steps : List Step} (hp : ∀ parts, Step.paths parts ∈ steps → parts = [])
    (hn : steps.filterMap number? ≠ []) :
    (after o steps).finish =
      Utf8.encode o.keyword ++
        newline :: tokens (steps.filterMap number?) (ends <| steps.filterMap number?) := by
  rw [finish_after, filterMap_field? hp, tokens_ends hn]
  simp

-- The calls that read a record with this many numbers.
def recordCalls (count : Nat) : List ((α : Type) × ReadCall α) :=
  ⟨_, .upTo newline⟩ :: tokenCalls count

theorem readRecord_reads {s : Stream δ} (hn : numbers ≠ [])
    (hs : s.bytes = Utf8.encode o.keyword ++ newline :: (tokens numbers (ends numbers) ++ rest)) :
    ∃ t, Reads (ReadCall.runAll (recordCalls numbers.length)) s
        (⟨_, .ok (Utf8.encode o.keyword)⟩ :: tokenResults numbers (ends numbers)) t ∧
      t.bytes = rest := by
  have hs' : (s.advance ((Utf8.encode o.keyword).length + 1)).bytes =
      tokens numbers (ends numbers) ++ rest := by
    rw [Stream.advance_bytes, hs, List.append_cons, List.drop_left' (by simp)]
  refine ⟨_, fun c hc => ?_, by rw [Stream.advance_bytes, hs', List.drop_left]⟩
  have ⟨d, hr, hd, ho⟩ := readUntil_found hs (keyword_no_newline o) c hc
  have ⟨e, hrs, he, ho'⟩ := readTokens_reads (ends_length hn).symm hs' d hd
  have hrun : (ReadCall.upTo newline).run c = (.ok (Utf8.encode o.keyword), d) := hr
  exact ⟨e, by simp only [recordCalls, ReadCall.runAll, hrun, hrs], he, ho'.trans ho⟩

end Reading

open Channel in
-- A step that fails is as good as none. What is finished are the fields of the others, and the numbers
-- are what a reader makes of a record that has no path, in whichever pieces it arrives.
theorem failed_steps_leave_no_trace {δ : Type} (o : Operation) (steps : List Step) :
    (∀ (s : Step) (w : RecordWriter),
      (∀ w', s.attempt w = (.ok (), w') ↔ s.on w = .ok w') ∧
        ∀ e, ((s.attempt w).1 = .error e ↔ s.Overflows e) ∧ (s.Overflows e → (s.attempt w).2 = w)) ∧
    (∀ s : Step, s.field? = none ↔ (∃ e, s.Overflows e) ∨ s = .paths []) ∧
    (after o steps).finish =
      Utf8.encode o.keyword ++ newline :: [space].intercalate (steps.filterMap field?) ++ [newline] ∧
    (∀ n, ∃ digits, Decimal.Plain n digits ∧ number n = Utf8.encode (String.ofList digits)) ∧
    ∀ (segments : List (Segment δ)) (pace : List Nat) (ended : Bool) (rest : Bytes),
      let values := steps.filterMap number?
      let receiver : Channel δ := { inbound := segments.foldl Inbound.push { pace, ended } }
      let received := ReadCall.runAll (recordCalls values.length) receiver
      (∀ parts, Step.paths parts ∈ steps → parts = []) → values ≠ [] →
      segments.flatMap (·.bytes) = (after o steps).finish ++ rest →
      received.1 = ⟨_, .ok (Utf8.encode o.keyword)⟩ :: tokenResults values (ends values) ∧
        received.2.unread = rest ∧
        ∀ n ∈ values, ∃ i, Record.parseField (number n) = .ok i ∧ i.toInt = n := by
  refine ⟨fun s w => ⟨fun w' => attempt_ok_iff, fun e => ⟨attempt_error_iff, attempt_fails⟩⟩,
    fun s => field?_eq_none_iff, finish_after o steps, fun n => ⟨_, Decimal.render_plain n, rfl⟩, ?_⟩
  intro segments pace ended rest values receiver received hp hn hb
  rw [finish_after_numbers hp hn, List.append_assoc, List.cons_append] at hb
  have hc := (fresh_carries pace ended).pushAll segments
  have hs : Stream.bytes { cells := [] ++ segments.flatMap Segment.cells, ended } =
      Utf8.encode o.keyword ++ newline :: (Record.tokens values (ends values) ++ rest) := by
    simpa [Stream.bytes, List.map_flatMap, Segment.cells_bytes] using hb
  obtain ⟨t, hr, ht⟩ := readRecord_reads hn hs
  obtain ⟨d, hd, hdt, _⟩ := hr receiver hc
  refine ⟨by simp only [received, hd], by simp only [received, hd, hdt.unread_eq, ht], fun n hm => ?_⟩
  obtain ⟨s, _, hs⟩ := List.mem_filterMap.mp hm
  exact ⟨_, Record.parseField_number (number?_fits hs), Record.toInt_ofInt (number?_fits hs)⟩

open Channel in
-- Six of these steps leave nothing behind, and the record arrives split within a number.
theorem failed_steps_between_numbers :
    let steps : List Step :=
      [.int "fd_count" (2 ^ 31), .paths [], .int "flags" (-5), .len "path_len" (2 ^ 31), .int "mode" 0,
        .paths [], .len "path_len" 17, .int "dev" (-2 ^ 31 - 1), .paths []]
    let segments : List (Segment Nat) :=
      [{ bytes := Utf8.encode "OPEN\n-5 0 1" }, { bytes := Utf8.encode "7\nSTAT" }]
    let receiver : Channel Nat :=
      { inbound := segments.foldl Inbound.push { pace := [1, 3], ended := true } }
    steps.filterMap number? = [-5, 0, 17] ∧
      (ReadCall.runAll (recordCalls 3) receiver).1 =
        ⟨_, .ok (Utf8.encode "OPEN")⟩ :: tokenResults [-5, 0, 17] [.space, .space, .newline] := by
  intro steps segments receiver
  have hp : ∀ parts, Step.paths parts ∈ steps → parts = [] := by simp [steps]
  have hv : steps.filterMap number? = [-5, 0, 17] := by decide
  have hb : segments.flatMap (·.bytes) = (after .openFile steps).finish ++ Utf8.encode "STAT" := by
    rw [finish_after, filterMap_field? hp, hv]
    decide
  have := (failed_steps_leave_no_trace .openFile steps).right.right.right.right segments [1, 3] true _ hp
    (by simp [hv]) hb
  rw [hv] at this
  exact ⟨hv, this.left⟩

end RecordWriter

end FileBroker
