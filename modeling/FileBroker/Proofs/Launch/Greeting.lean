import Mathlib
import FileBroker.Launch.Basic
import FileBroker.Proofs.Text.Numeral

namespace FileBroker

namespace Greeting

theorem isScriptDigit_of_isDigit (h : Char.isDigit c) : isScriptDigit c := by
  simp only [Char.isDigit, Bool.and_eq_true, decide_eq_true_eq, ge_iff_le, UInt32.le_iff_toNat_le] at h
  have hl : 0x30 ≤ c.toNat := h.left
  have hu : c.toNat ≤ 0x39 := h.right
  exact List.any_eq_true.mpr ⟨(0x30, 0x39), List.mem_cons_self, by simp [hl, hu]⟩

-- A mark in a text, with all the digits behind it, of which there is at least one.
structure Marks (text front run back : List Char) : Prop where
  split  : text = front ++ (mark.toList ++ (run ++ back))
  run_ne : run ≠ []
  digits : ∀ c ∈ run, isScriptDigit c
  ends   : ∀ c ∈ back.head?, isScriptDigit c = false

def LastMarks (text run : List Char) : Prop :=
  ∃ front back, Marks text front run back ∧
    ∀ front' run' back', Marks text front' run' back' → front'.length ≤ front.length

-- What a search for marks with digits behind them finds from the front, when each search goes on behind
-- the last find.
def runs : List Char → List (List Char)
  | []        => []
  | c :: text =>
    match runAtStart (c :: text) with
    | some run => run :: runs (text.drop (mark.length - 1 + run.length))
    | none     => runs text
termination_by text => text.length
decreasing_by all_goals simp

theorem takeWhile_digits {run back : List Char} (hd : ∀ c ∈ run, isScriptDigit c)
    (hb : ∀ c ∈ back.head?, isScriptDigit c = false) : (run ++ back).takeWhile isScriptDigit = run := by
  rw [List.takeWhile_append_of_pos hd]
  cases back
  case nil  => simp
  case cons => simp [hb _ rfl]

theorem runAtStart_eq_some_iff : runAtStart text = some run ↔ ∃ back, Marks text [] run back := by
  unfold runAtStart
  refine ⟨fun h => ?_, fun ⟨back, h⟩ => ?_⟩
  case refine_1 =>
    split at h
    case isFalse => cases h
    case isTrue hp =>
      dsimp only at h
      split at h
      case isTrue => cases h
      case isFalse hr =>
        obtain rfl := Option.some.inj h
        obtain ⟨more, rfl⟩ := List.isPrefixOf_iff_prefix.mp hp
        have hm : (mark.toList ++ more).drop mark.length = more := List.drop_left
        rw [hm] at hr ⊢
        exact ⟨more.dropWhile isScriptDigit, {
          split  := by rw [List.takeWhile_append_dropWhile, List.nil_append]
          run_ne := by simpa using hr
          digits := fun c hc => List.mem_takeWhile_imp hc
          ends   := fun c hc => by
            have := List.head?_dropWhile_not isScriptDigit more
            rw [hc] at this
            exact this }⟩
  case refine_2 =>
    have hm : (mark.toList ++ (run ++ back)).drop mark.length = run ++ back := List.drop_left
    have hp : mark.toList.isPrefixOf (mark.toList ++ (run ++ back)) :=
      List.isPrefixOf_iff_prefix.mpr <| List.prefix_append _ _
    rw [h.split, List.nil_append, if_pos hp, hm, takeWhile_digits h.digits h.ends]
    simp [h.run_ne]

theorem Marks.cons (h : Marks text front run back) : Marks (c :: text) (c :: front) run back :=
  { h with split := congrArg (c :: ·) h.split }

theorem Marks.front_cases (h : Marks (c :: text) front run back) :
    front = [] ∨ ∃ front', front = c :: front' ∧ Marks text front' run back := by
  cases front
  case nil => exact .inl rfl
  case cons d front =>
    obtain ⟨rfl, hs⟩ := List.cons.inj h.split
    exact .inr ⟨front, rfl, { h with split := hs }⟩

-- Where a mark stands says which digits are behind it.
theorem Marks.unique (h : Marks text front run back) (h' : Marks text front' run' back')
    (hl : front.length = front'.length) : run = run' := by
  have ⟨_, hs⟩ := List.append_inj (h.split.symm.trans h'.split) hl
  rw [←takeWhile_digits h.digits h.ends, ←takeWhile_digits h'.digits h'.ends, List.append_cancel_left hs]

theorem LastMarks.marks (h : LastMarks text run) : ∃ front back, Marks text front run back :=
  h.imp fun _ hb => hb.imp fun _ hm => hm.1

theorem LastMarks.unique (h : LastMarks text run) (h' : LastMarks text run') : run = run' :=
  have ⟨_, _, hm, hl⟩ := h
  have ⟨_, _, hm', hl'⟩ := h'
  hm.unique hm' <| Nat.le_antisymm (hl' _ _ _ hm) (hl _ _ _ hm')

theorem lastRun_eq_none_iff : lastRun text = none ↔ ∀ front run back, ¬Marks text front run back := by
  induction text
  case nil =>
    refine iff_of_true rfl fun front run back h => ?_
    have hl := congrArg List.length h.split
    simp [mark] at hl
  case cons c text hi =>
    rw [lastRun, Option.or_eq_none_iff, hi]
    refine ⟨fun ⟨hl, hr⟩ front run back h => ?_, fun h => ⟨fun _ _ _ hm => h _ _ _ hm.cons, ?_⟩⟩
    case refine_1 =>
      rcases h.front_cases with rfl | ⟨front', _, hm⟩
      case inl => exact absurd (runAtStart_eq_some_iff.mpr ⟨back, h⟩) (by simp [hr])
      case inr => exact hl _ _ _ hm
    case refine_2 =>
      refine Option.eq_none_iff_forall_ne_some.mpr fun run hr => ?_
      have ⟨back, hm⟩ := runAtStart_eq_some_iff.mp hr
      exact h _ _ _ hm

theorem lastMarks_of_lastRun (h : lastRun text = some run) : LastMarks text run := by
  induction text
  case nil => cases h
  case cons c text hi =>
    rw [lastRun] at h
    rcases Option.or_eq_some_iff.mp h with h | ⟨hn, hr⟩
    case inl =>
      have ⟨front, back, hm, hl⟩ := hi h
      refine ⟨c :: front, back, hm.cons, fun _ _ _ h' => ?_⟩
      rcases h'.front_cases with rfl | ⟨front', rfl, hm'⟩
      case inl => exact Nat.zero_le _
      case inr => exact Nat.succ_le_succ (hl _ _ _ hm')
    case inr =>
      have ⟨back, hm⟩ := runAtStart_eq_some_iff.mp hr
      refine ⟨[], back, hm, fun _ _ _ h' => ?_⟩
      rcases h'.front_cases with rfl | ⟨front', _, hm'⟩
      case inl => exact Nat.le_refl _
      case inr => exact absurd hm' (lastRun_eq_none_iff.mp hn _ _ _)

theorem lastRun_eq_some_iff : lastRun text = some run ↔ LastMarks text run := by
  refine ⟨lastMarks_of_lastRun, fun h => ?_⟩
  cases hr : lastRun text
  case none =>
    have ⟨_, _, hm, _⟩ := h
    exact absurd hm (lastRun_eq_none_iff.mp hr _ _ _)
  case some run' => rw [h.unique (lastMarks_of_lastRun hr)]

theorem runAtStart_none (hc : c ≠ 'P') : runAtStart (c :: text) = none := by
  have hp : mark.toList.isPrefixOf (c :: text) = false := by
    simp [mark, List.isPrefixOf, hc.symm]
  rw [runAtStart, hp]
  rfl

theorem lastRun_skip {front back : List Char} (h : ∀ c ∈ front, c ≠ 'P') :
    lastRun (front ++ back) = lastRun back := by
  induction front
  case nil => rfl
  case cons c front hi =>
    obtain ⟨hc, h⟩ := List.forall_mem_cons.mp h
    rw [List.cons_append, lastRun, runAtStart_none hc, Option.or_none, hi h]

-- No mark begins within another one or among digits.
theorem Marks.lastRun_eq (h : Marks text [] run back) : lastRun text = (lastRun back).or (some run) := by
  have hd : ∀ c ∈ "ID:".toList ++ run, c ≠ 'P' := by
    rintro c hc rfl
    cases List.mem_append.mp hc
    case inl hc => exact absurd hc (by decide)
    case inr hc => exact absurd (h.digits _ hc) (by decide)
  have hs : text = 'P' :: (("ID:".toList ++ run) ++ back) := by simp [h.split, mark]
  have hr := runAtStart_eq_some_iff.mpr ⟨back, h⟩
  rw [hs] at hr ⊢
  rw [lastRun, hr, lastRun_skip hd]

theorem lastRun_eq_getLast? (text : List Char) : lastRun text = (runs text).getLast? := by
  fun_induction runs text
  case case1 => rfl
  case case2 c text run hr hi =>
    have ⟨back, hm⟩ := runAtStart_eq_some_iff.mp hr
    have hb : text.drop (mark.length - 1 + run.length) = back := by
      have hs : text = ("ID:".toList ++ run) ++ back := by
        have := hm.split
        simp [mark] at this
        simp [this]
      have hl : mark.length - 1 + run.length = ("ID:".toList ++ run).length := by
        rw [List.length_append]
        rfl
      rw [hs, hl, List.drop_left]
    rw [hm.lastRun_eq, List.getLast?_cons, ←hi, hb]
    cases lastRun back <;> rfl
  case case3 c text hr hi => rw [lastRun, hr, Option.or_none, hi]

theorem lastRun_append (h : lastRun back = some run) : lastRun (front ++ back) = some run := by
  induction front
  case nil       => exact h
  case cons hi => rw [List.cons_append, lastRun, hi, Option.some_or]

-- Digits are no sign, so that they are a number exactly if they are ASCII.
theorem nat?_eq_some_iff (hr : run ≠ []) (hd : ∀ c ∈ run, isScriptDigit c) :
    Decimal.nat? 32 run = some n ↔
      (∀ c ∈ run, c.isDigit) ∧ Nat.ofDigitChars 10 run 0 = n ∧ n < 2 ^ 32 := by
  have hp : Decimal.parseNat? run = Decimal.magnitude? run := by
    unfold Decimal.parseNat?
    split
    case h_1 => exact absurd (hd '+' List.mem_cons_self) (by decide)
    case h_2 => rfl
  rw [Decimal.nat?, hp, Decimal.magnitude?]
  by_cases ha : ∀ c ∈ run, c.isDigit
  case pos =>
    have hall : run.all Char.isDigit = true := List.all_eq_true.mpr ha
    simp only [List.isEmpty_eq_false_iff.mpr hr, hall, Bool.not_true, Bool.or_self, if_false,
      Bool.false_eq_true, Option.ite_none_right_eq_some, Option.some.injEq]
    exact ⟨fun h => ⟨ha, h.2, h.2 ▸ h.1⟩, fun h => ⟨h.2.1 ▸ h.2.2, h.2.1⟩⟩
  case neg =>
    have hall : run.all Char.isDigit = false := by simpa using ha
    simp [hall, ha]

-- The number that the last mark gives.
def Tells (text : List Char) (pid : UInt32) : Prop :=
  ∃ run, LastMarks text run ∧ (∀ c ∈ run, c.isDigit) ∧ Nat.ofDigitChars 10 run 0 = pid.toNat

theorem helperPid_eq_ok_iff : helperPid text = .ok pid ↔ Tells text.toList pid := by
  unfold helperPid
  refine ⟨fun h => ?_, fun h => ?_⟩
  case refine_1 =>
    split at h
    case h_2 => cases h
    case h_1 n hn =>
      obtain rfl := Except.ok.inj h
      obtain ⟨run, hr, hn⟩ := Option.bind_eq_some_iff.mp hn
      have hl := lastRun_eq_some_iff.mp hr
      obtain ⟨_, _, hm⟩ := hl.marks
      obtain ⟨ha, hv, hlt⟩ := (nat?_eq_some_iff hm.run_ne hm.digits).mp hn
      exact ⟨run, hl, ha, by rw [hv, UInt32.toNat_ofNat_of_lt' hlt]⟩
  case refine_2 =>
    obtain ⟨run, hl, ha, hv⟩ := h
    obtain ⟨_, _, hm⟩ := hl.marks
    have hn := (nat?_eq_some_iff hm.run_ne hm.digits).mpr ⟨ha, hv, pid.toNat_lt⟩
    rw [lastRun_eq_some_iff.mpr hl, Option.bind_some, hn]
    exact congrArg _ UInt32.ofNat_toNat

theorem helperPid_cases (text : String) :
    (∃ pid, helperPid text = .ok pid) ∨ helperPid text = .error .noHelperPid := by
  unfold helperPid
  split
  case h_1 => exact .inl ⟨_, rfl⟩
  case h_2 => exact .inr rfl

-- The greeting without the NUL, as text.
def line (pid : UInt32) : List Char :=
  mark.toList ++ (Nat.toDigits 10 pid.toNat ++ ['\n'])

theorem announce_eq (pid : UInt32) : announce pid = Utf8.encode (String.ofList (line pid)) ++ [0] := by
  have hl : String.ofList (line pid) = s!"{mark}{Decimal.text pid.toNat}\n" := by
    simp [String.ext_iff, line, Decimal.text, Decimal.render, toString]
  rw [announce, hl]

theorem line_tells (front : List Char) (pid : UInt32) : Tells (front ++ line pid) pid := by
  have hd : ∀ c ∈ Nat.toDigits 10 pid.toNat, c.isDigit :=
    fun _ => Nat.isDigit_of_mem_toDigits (by decide) (by decide)
  have hm : Marks (line pid) [] (Nat.toDigits 10 pid.toNat) ['\n'] := {
    split  := rfl
    run_ne := Nat.toDigits_ne_nil
    digits := fun c hc => isScriptDigit_of_isDigit (hd c hc)
    ends   := by simp; decide }
  have hl : lastRun (line pid) = some (Nat.toDigits 10 pid.toNat) := by
    rw [hm.lastRun_eq]
    rfl
  exact ⟨_, lastRun_eq_some_iff.mp <| lastRun_append hl, hd, Nat.ofDigitChars_ten_toDigits⟩

theorem line_no_nul (pid : UInt32) : 0 ∉ Utf8.encode (String.ofList (line pid)) := by
  intro h
  have h := Utf8.mem_encode (by decide) h
  rw [String.toList_ofList] at h
  rcases List.mem_append.mp h with h | h
  case inl => exact absurd h (by decide)
  case inr =>
    rcases List.mem_append.mp h with h | h
    case inl => exact absurd (Nat.isDigit_of_mem_toDigits (by decide) (by decide) h) (by decide)
    case inr => exact absurd h (by decide)

-- Bytes in front of the greeting may be no text, but they end where it begins.
theorem decodeLossy_line (noise : Bytes) (pid : UInt32) :
    (Utf8.decodeLossy (noise ++ Utf8.encode (String.ofList (line pid)))).toList =
      (Utf8.decodeLossy noise).toList ++ line pid := by
  have hs := Utf8.scan_encode (String.ofList (line pid))
  have ⟨rest, hb⟩ : ∃ rest, Utf8.encode (String.ofList (line pid)) = 80 :: rest := by
    rw [Utf8.encode, String.toList_ofList]
    exact ⟨_, rfl⟩
  rw [hb] at hs ⊢
  rw [Utf8.decodeLossy, Utf8.decodeLossy, Utf8.scan_append (by decide), hs]
  simp [Function.comp_def]

end Greeting

variable {ω δ : Type}

theorem Child.greeting_eq {noise more : Bytes} {c : Child ω δ} (hn : 0 ∉ noise)
    (ho : (c.output.filter (·.1 < deadline)).flatMap (·.2) = noise ++ Greeting.announce pid ++ more) :
    c.greeting deadline =
      .ok (Utf8.decodeLossy (noise ++ Utf8.encode (String.ofList (Greeting.line pid)))) := by
  have hd : deadline ≠ 0 := by
    rintro rfl
    have hl := congrArg List.length ho
    simp [Greeting.announce] at hl
  have ht : ∀ b ∈ noise ++ Utf8.encode (String.ofList (Greeting.line pid)), decide (b ≠ 0) = true := by
    refine fun b hb => decide_eq_true ?_
    rintro rfl
    exact (List.mem_append.mp hb).elim hn (Greeting.line_no_nul pid)
  rw [Child.greeting, if_neg hd, ho, Greeting.announce_eq, ←List.append_assoc, List.append_assoc,
    List.takeWhile_append_of_pos ht]
  simp

-- For everything that a helper can print. Its number is told whatever stands before the greeting, marks and
-- broken characters included; and of any text the last mark decides, alone, where digits follow one.
theorem Greeting.last_mark_tells :
    (∀ (ω δ : Type) (c : Child ω δ) deadline noise more pid, 0 ∉ noise →
      (c.output.filter (·.1 < deadline)).flatMap (·.2) = noise ++ announce pid ++ more →
        ∃ text, c.greeting deadline = .ok text ∧ helperPid text = .ok pid) ∧
    (∀ text pid, helperPid text = .ok pid ↔ Tells text.toList pid) ∧
    (∀ text, (¬∃ pid, Tells text.toList pid) → helperPid text = .error .noHelperPid) ∧
    ∀ text, lastRun text = (runs text).getLast? := by
  refine ⟨fun ω δ c deadline noise more pid hn ho => ⟨_, c.greeting_eq hn ho, ?_⟩,
    fun _ _ => helperPid_eq_ok_iff, fun text h => ?_, lastRun_eq_getLast?⟩
  case refine_1 =>
    rw [helperPid_eq_ok_iff, decodeLossy_line]
    exact line_tells _ pid
  case refine_2 =>
    exact (helperPid_cases text).resolve_left fun ⟨pid, hp⟩ => h ⟨pid, helperPid_eq_ok_iff.mp hp⟩

-- A mark of somebody else, the beginning of one, and a character that is broken off.
theorem Greeting.noise_tells_nothing :
    let noise : Bytes := Utf8.encode "PID:9\nPI" ++ [0xF0, 0x9F]
    let c : Child Unit Nat := { output := [(0, noise), (1, announce 4242)] }
    0 ∉ noise ∧ (c.output.filter (·.1 < 100)).flatMap (·.2) = noise ++ announce 4242 ++ [] ∧
      ∃ text, c.greeting 100 = .ok text ∧ helperPid text = .ok 4242 := by
  intro noise c
  have hn : 0 ∉ noise := by decide
  have ho : (c.output.filter (·.1 < 100)).flatMap (·.2) = noise ++ announce 4242 ++ [] := by decide +kernel
  exact ⟨hn, ho, last_mark_tells.left Unit Nat c 100 noise [] 4242 hn ho⟩

-- A digit that is not ASCII spoils the last mark, and the one before it does not count.
example : Greeting.helperPid "PID:7 PID:٣" = .error .noHelperPid := by decide

end FileBroker
