import Mathlib
import FileBroker.Proofs.Record.Layout

namespace FileBroker

namespace RecordWriter

variable {w : RecordWriter}

theorem int_error_iff : w.int name n = .error e ↔ ¬Decimal.fits 32 n ∧ e = .overflow name n := by
  unfold int
  split
  case isTrue h  => simp [h]
  case isFalse h => simp [h, eq_comm]

-- The first one that does not fit is reported.
theorem ints_error (name : α → String) (value : α → Int) {fields : List α}
    (h : fields.foldlM (fun w f => w.int (name f) (value f)) w = .error e) :
    ∃ f, fields.find? (fun f => !Decimal.fits 32 (value f)) = some f ∧ e = .overflow (name f) (value f) := by
  induction fields generalizing w
  case nil => nomatch h
  case cons f fields hi =>
    rw [List.foldlM_cons] at h
    obtain h | ⟨w', hw, h⟩ := bind_eq_error h
    case inl =>
      have ⟨hf, he⟩ := int_error_iff.mp h
      exact ⟨f, by simp [hf], he⟩
    case inr =>
      have ⟨g, hg, he⟩ := hi h
      exact ⟨g, by simp [fits_of_int_ok hw, hg], he⟩

end RecordWriter

namespace Request

open RecordWriter

variable {δ : Type} {r : Request δ}

def device : Request δ → UInt64
  | makeNode _ _ _ dev => dev
  | _                  => 0

-- Why a request has no record. The device is written before any length.
inductive Overflows (r : Request δ) : FrameError → Prop
  | device : 2 ^ 31 ≤ r.device.toNat → Overflows r (.overflow "dev" r.device.toNat)
  | path {path} : r.device.toNat < 2 ^ 31 → r.paths.find? (2 ^ 31 ≤ ·.length) = some path →
    Overflows r (.overflow "path_len" path.length)

theorem count_fits (r : Request δ) : Decimal.fits 32 (r.fds.length : Int) := by
  have hs (o : Operation) : o.slots ≤ 2 := by cases o <;> decide
  have := Nat.le_trans r.fds_length_le (hs _)
  rw [Decimal.fits_natCast, decide_eq_true_iff]
  omega

theorem find_args (r : Request δ) :
    r.args.find? (fun a => !Decimal.fits 32 a.2) =
      if r.device.toNat < 2 ^ 31 then none else some ("dev", (r.device.toNat : Int)) := by
  cases r
  case makeNode base path mode dev =>
    rw [args, List.find?_cons_of_neg (by simp [Decimal.fits_toInt]), List.find?_singleton,
      Decimal.not_fits_natCast, device]
    split <;> simp_all
  all_goals
    have hz : Decimal.fits 32 0 := by decide
    simp [args, device, Decimal.fits_toInt, hz]

theorem args_fit_iff : (∀ a ∈ r.args, Decimal.fits 32 a.2) ↔ r.device.toNat < 2 ^ 31 := by
  have hf := r.find_args
  split at hf
  case isTrue h =>
    refine iff_of_true (fun a ha => ?_) h
    simpa using List.find?_eq_none.mp hf a ha
  case isFalse h =>
    refine iff_of_false (fun ha => ?_) h
    have hd := ha _ (List.mem_of_find?_eq_some hf)
    exact h <| of_decide_eq_true <| (Decimal.fits_natCast _).symm.trans hd

theorem numbers_fit_iff :
    (∀ n ∈ r.numbers, Decimal.fits 32 n) ↔
      r.device.toNat < 2 ^ 31 ∧ ∀ path ∈ r.paths, path.length < 2 ^ 31 := by
  rw [numbers, List.forall_mem_cons, List.forall_mem_append, List.forall_mem_map, List.forall_mem_map,
    args_fit_iff]
  simp only [r.count_fits, Decimal.fits_natCast, decide_eq_true_iff, true_and]

theorem encode_error (h : r.encode = .error e) : r.Overflows e := by
  obtain h | ⟨w, _, h⟩ := bind_eq_error h
  case inl => exact absurd r.count_fits (int_error_iff.mp h).left
  obtain h | ⟨w, ha, h⟩ := bind_eq_error h
  case inl =>
    have ⟨a, hf, he⟩ := ints_error (fun a : String × Int => a.1) (fun a => a.2) h
    rw [r.find_args] at hf
    split at hf
    case isTrue  => nomatch hf
    case isFalse hd =>
      cases hf
      exact he ▸ .device (by omega)
  have ha := fits_of_ints_ok (fun a : String × Int => a.1) (fun a => a.2) ha
  obtain h | ⟨w, _, h⟩ := bind_eq_error h
  case inl =>
    have ⟨path, hf, he⟩ := ints_error (fun _ => "path_len") (fun p : Bytes => (p.length : Int)) h
    simp only [Decimal.not_fits_natCast] at hf
    exact he ▸ .path (args_fit_iff.mp ha) hf
  case inr => nomatch h

theorem exists_encode_error_iff : (∃ e, r.encode = .error e) ↔ ¬∀ n ∈ r.numbers, Decimal.fits 32 n := by
  constructor
  case mp =>
    intro ⟨e, he⟩ hf
    nomatch he.symm.trans (encode_ok hf)
  case mpr =>
    intro hf
    cases he : r.encode
    case ok      => exact absurd (fits_of_encode_ok he) hf
    case error e => exact ⟨e, rfl⟩

theorem Overflows.unique (h : r.Overflows e) (h' : r.Overflows e') : e = e' := by
  cases h
  case device h =>
    cases h'
    case device => rfl
    case path h' _ => omega
  case path h hf =>
    cases h'
    case device h' => omega
    case path hf' => cases hf.symm.trans hf'; rfl

theorem Overflows.not_fit (h : r.Overflows e) : ¬∀ n ∈ r.numbers, Decimal.fits 32 n := by
  rw [numbers_fit_iff]
  rintro ⟨hd, hp⟩
  cases h
  case device h => omega
  case path path _ hf =>
    have hl := List.find?_some hf
    have := hp path (List.mem_of_find?_eq_some hf)
    rw [decide_eq_true_iff] at hl
    omega

-- The value that is reported is the one that was asked for, however large it is.
theorem encode_error_iff : r.encode = .error e ↔ r.Overflows e := by
  refine ⟨encode_error, fun h => ?_⟩
  have ⟨e', he⟩ := exists_encode_error_iff.mpr h.not_fit
  rw [he, h.unique (encode_error he)]

end Request

end FileBroker
