import Mathlib
import FileBroker.Proofs.Channel.Reading
import FileBroker.Proofs.Text.Decimal
import FileBroker.Proofs.Text.Utf8
import FileBroker.Record

namespace FileBroker

theorem bind_eq_ok {m : Except ε α} {f : α → Except ε β} (h : (m >>= f) = .ok b) :
    ∃ a, m = .ok a ∧ f a = .ok b := by
  cases m
  case error => simp [bind, Except.bind] at h
  case ok a  => exact ⟨a, rfl, h⟩

theorem bind_eq_error {m : Except ε α} {f : α → Except ε β} (h : (m >>= f) = .error e) :
    m = .error e ∨ ∃ a, m = .ok a ∧ f a = .error e := by
  cases m
  case error => exact .inl <| congrArg _ <| Except.error.inj h
  case ok a  => exact .inr ⟨a, rfl, h⟩

namespace RecordWriter

def number (n : Int) : Bytes :=
  Utf8.encode (Decimal.text n)

variable {w : RecordWriter}

theorem int_ok (h : Decimal.fits 32 n) (hw : w.fields ≠ 0) :
    w.int name n =
      .ok { bytes := w.bytes ++ space :: number n, fields := w.fields + 1 } := by
  simp [int, h, field, hw, number]

theorem fits_of_int_ok (h : w.int name n = .ok w') : Decimal.fits 32 n := by
  unfold int at h
  split at h
  case isTrue hf => exact hf
  case isFalse   => simp at h

theorem len_start_ok {o : Operation} (h : Decimal.fits 32 (n : Nat)) :
    (start o).len name n =
      .ok { bytes := Utf8.encode o.keyword ++ newline :: number n, fields := 1 } := by
  simp [len, int, h, field, start, number]

theorem fits_of_len_ok (h : w.len name n = .ok w') : Decimal.fits 32 (n : Nat) :=
  fits_of_int_ok h

-- Numbers after the first one.
theorem ints_ok (name : α → String) (value : α → Int) {fields : List α}
    (h : ∀ f ∈ fields, Decimal.fits 32 (value f)) (hw : w.fields ≠ 0) :
    fields.foldlM (fun w f => w.int (name f) (value f)) w =
      .ok { bytes  := w.bytes ++ fields.flatMap fun f => space :: number (value f)
            fields := w.fields + fields.length } := by
  induction fields generalizing w
  case nil => simp; rfl
  case cons f fields hi =>
    have ⟨hf, h⟩ := List.forall_mem_cons.mp h
    rw [List.foldlM_cons, int_ok hf hw]
    refine (hi h (by simp)).trans ?_
    simp
    omega

theorem fits_of_ints_ok (name : α → String) (value : α → Int) {fields : List α}
    (h : fields.foldlM (fun w f => w.int (name f) (value f)) w = .ok w') :
    ∀ f ∈ fields, Decimal.fits 32 (value f) := by
  induction fields generalizing w
  case nil => simp
  case cons f fields hi =>
    rw [List.foldlM_cons] at h
    cases hf : w.int (name f) (value f)
    case error => simp [hf, bind, Except.bind] at h
    case ok w =>
      rw [hf] at h
      exact List.forall_mem_cons.mpr ⟨fits_of_int_ok hf, hi h⟩

end RecordWriter

open RecordWriter Channel

namespace Record

-- Numbers, each with what ends it.
def tokens : List Int → List TokenEnd → Bytes
  | n :: numbers, last :: ends => number n ++ last.byte :: tokens numbers ends
  | _,            _            => []

theorem tokens_replicate (n : Int) (numbers : List Int) (last : TokenEnd) :
    tokens (n :: numbers) (List.replicate numbers.length .space ++ [last]) =
      number n ++ (numbers.flatMap fun n => space :: number n) ++ [last.byte] := by
  induction numbers generalizing n
  case nil => simp [tokens]
  case cons m numbers hi =>
    rw [List.length_cons, List.replicate_succ, List.cons_append, tokens, hi]
    simp [TokenEnd.byte, space]

theorem mem_number (h : b ∈ number n) (hb : b.toNat < 0x80) :
    (Char.ofNat b.toNat).isDigit ∨ Char.ofNat b.toNat = '-' := by
  have := Utf8.mem_encode hb h
  rw [Decimal.text, String.toList_ofList] at this
  exact Decimal.mem_render this

theorem number_no_end (h : b ∈ number n) : b ≠ 32 ∧ b ≠ 10 := by
  refine ⟨?_, ?_⟩
  all_goals
    rintro rfl
    exact absurd (mem_number h (by decide)) (by decide)

theorem parseField_number (h : Decimal.fits 32 n) : parseField (number n) = .ok (Int32.ofInt n) := by
  have hb := Decimal.fits_32_iff.mp h
  have hn : (Int64.ofInt n).toInt = n := Int64.toInt_ofInt_of_le (by omega) (by omega)
  simp [parseField, number, Decimal.text, Decimal.int64?_render <| Decimal.fits_64_of_32 h, hn, h]

end Record

namespace Request

variable {δ : Type} {r : Request δ}

def numbers (r : Request δ) : List Int :=
  r.fds.length :: (r.args.map (·.2) ++ r.paths.map fun path => (path.length : Int))

theorem args_length (r : Request δ) : r.args.length = r.operation.args := by
  cases r <;> rfl

theorem paths_length (r : Request δ) : r.paths.length = r.operation.paths := by
  cases r <;> rfl

theorem slots_length (r : Request δ) : r.slots.length = r.operation.slots := by
  cases r <;> rfl

theorem fds_length_le (r : Request δ) : r.fds.length ≤ r.operation.slots := by
  rw [←r.slots_length, fds]
  exact Nat.le_trans (List.length_filterMap_le ..) (List.takeWhile_sublist _).length_le

def layout (r : Request δ) : Bytes :=
  Utf8.encode r.operation.keyword ++ newline ::
    (Record.tokens r.numbers (Record.terminators r.operation) ++
      if r.operation.paths = 0 then [] else r.paths.flatten ++ [newline])

-- What follows the keyword line, in the order in which it is written.
theorem tokens_numbers (r : Request δ) :
    Record.tokens r.numbers (Record.terminators r.operation) =
      number r.fds.length ++ ((r.args.map (·.2)).flatMap fun n => space :: number n) ++
        (r.paths.flatMap fun path => space :: number path.length) ++
        [if r.operation.paths = 0 then newline else space] := by
  have hl : r.operation.args + r.operation.paths =
      (r.args.map (·.2) ++ r.paths.map fun path => (path.length : Int)).length := by
    simp [r.args_length, r.paths_length]
  rw [Record.terminators, hl, numbers, Record.tokens_replicate, List.flatMap_append, List.flatMap_map]
  split <;> simp [TokenEnd.byte, List.flatMap_map]

theorem encode_ok (h : ∀ n ∈ r.numbers, Decimal.fits 32 n) :
    r.encode = .ok ⟨r.operation, r.layout, r.fds⟩ := by
  have ⟨hc, h⟩ := List.forall_mem_cons.mp h
  have ⟨ha, hp⟩ := List.forall_mem_append.mp h
  have ha : ∀ a ∈ r.args, Decimal.fits 32 a.2 := fun a hm => ha _ <| List.mem_map_of_mem hm
  have hp : ∀ p ∈ r.paths, Decimal.fits 32 (p.length : Int) := fun p hm =>
    hp _ <| List.mem_map_of_mem (f := fun p : Bytes => (p.length : Int)) hm
  have hl := r.paths_length
  rw [encode, len_start_ok hc, layout, tokens_numbers, ←hl]
  simp only [bind, Except.bind]
  rw [ints_ok (fun a : String × Int => a.1) (fun a => a.2) ha (by simp)]
  simp only [len]
  rw [ints_ok (fun _ => "path_len") (fun p : Bytes => (p.length : Int)) hp (by simp)]
  cases r.paths <;> simp [RecordWriter.paths, finish, field, pure, Except.pure, List.flatMap_map]

theorem fits_of_encode_ok (h : r.encode = .ok e) : ∀ n ∈ r.numbers, Decimal.fits 32 n := by
  have ⟨w, hc, h⟩ := bind_eq_ok h
  have ⟨w, ha, h⟩ := bind_eq_ok h
  have ⟨w, hp, _⟩ := bind_eq_ok h
  have ha := fits_of_ints_ok (fun a : String × Int => a.1) (fun a => a.2) ha
  have hp := fits_of_ints_ok (fun _ => "path_len") (fun p : Bytes => (p.length : Int)) hp
  refine List.forall_mem_cons.mpr ⟨fits_of_len_ok hc, List.forall_mem_append.mpr ⟨?_, ?_⟩⟩
  · exact List.forall_mem_map.mpr ha
  · exact List.forall_mem_map.mpr hp

-- A request can be encoded if and only if all its numbers fit.
theorem encode_eq_ok_iff :
    r.encode = .ok e ↔ (∀ n ∈ r.numbers, Decimal.fits 32 n) ∧ e = ⟨r.operation, r.layout, r.fds⟩ := by
  refine ⟨fun h => ?_, fun ⟨h, he⟩ => he ▸ encode_ok h⟩
  have hf := fits_of_encode_ok h
  exact ⟨hf, Except.ok.inj <| h.symm.trans <| encode_ok hf⟩

end Request

end FileBroker
