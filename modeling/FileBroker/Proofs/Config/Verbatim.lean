import Mathlib
import FileBroker.Proofs.Config.Layering
import FileBroker.Proofs.Text.Canonical
import FileBroker.Proofs.Text.Numeral

namespace FileBroker

-- Characters of which numbers and truth values are made.
def isScalarChar (c : Char) : Bool :=
  c.isAlphanum || c = '+' || c = '-' || c = '.'

theorem isAlphanum_of_toLower (h : (Char.toLower c).isAlphanum) : c.isAlphanum := by
  unfold Char.toLower at h
  split at h
  case isTrue hu =>
    have hu : c.isUpper := by simpa [Char.isUpper] using hu
    simp [Char.isAlphanum, Char.isAlpha, hu]
  case isFalse   => exact h

-- A text that is a word but for the case of its letters.
theorem isScalarChar_of_toLower {v word : String} (h : v.toLower = word)
    (hw : word.toList.all Char.isAlphanum) (hc : c ∈ v.toList) : isScalarChar c := by
  have hl : c.toLower ∈ word.toList := by
    rw [←h, String.toLower, String.toList_map]
    exact List.mem_map_of_mem hc
  simp [isScalarChar, isAlphanum_of_toLower <| List.all_eq_true.mp hw _ hl]

namespace Binary64

variable {c : Char} {text : List Char}

theorem not_digit_of_stray (hc : isScalarChar c = false) : c.isDigit = false := by
  simp only [isScalarChar, Char.isAlphanum, Bool.or_eq_false_iff] at hc
  exact hc.1.1.1.2

theorem ne_of_stray {d : Char} (hc : isScalarChar c = false) (hd : isScalarChar d) : c ≠ d := by
  rintro rfl
  cases hc.symm.trans hd

theorem mem_dropWhile (h : c ∈ text) (hc : isScalarChar c = false) : c ∈ text.dropWhile Char.isDigit := by
  rw [←List.takeWhile_append_dropWhile (p := Char.isDigit) (l := text), List.mem_append] at h
  refine h.resolve_left fun ht => ?_
  cases (not_digit_of_stray hc).symm.trans <| List.mem_takeWhile_imp ht

theorem exponent_stray (h : c ∈ text) (hc : isScalarChar c = false) : parse?.exponent text = none := by
  unfold parse?.exponent
  split
  case h_1 => cases h
  case h_2 d rest =>
    split
    case isTrue hd =>
      have hs : isScalarChar d := by rcases hd with rfl | rfl <;> decide
      have hr : c ∈ rest := (List.mem_cons.mp h).resolve_left <| ne_of_stray hc hs
      exact Decimal.parse?_stray hr (not_digit_of_stray hc)
        ⟨ne_of_stray hc (by decide), ne_of_stray hc (by decide)⟩
    case isFalse => rfl

theorem unsigned_stray (negative : Bool) (h : c ∈ text) (hc : isScalarChar c = false) :
    parse?.unsigned negative text = none := by
  have hw (word : String) (hl : word.toList.all Char.isAlphanum) : (String.ofList text).toLower ≠ word :=
    fun he => absurd (isScalarChar_of_toLower he hl (by simpa using h)) (by simp [hc])
  -- It is behind the digits, where only an exponent may be.
  have hr := mem_dropWhile h hc
  unfold parse?.unsigned
  dsimp only
  rw [if_neg (not_or.mpr ⟨hw _ (by decide), hw _ (by decide)⟩), if_neg (hw _ (by decide))]
  generalize text.dropWhile Char.isDigit = rest at hr
  split
  case h_1 rest =>
    have hr : c ∈ rest := (List.mem_cons.mp hr).resolve_left <| ne_of_stray hc (by decide)
    rw [exponent_stray (mem_dropWhile hr hc) hc]
    exact ite_self none
  case h_2 =>
    rw [exponent_stray hr hc]
    exact ite_self none

-- A character that is in no number.
theorem parse?_stray (h : c ∈ text) (hc : isScalarChar c = false) : parse? text = none := by
  have hm (sign : Char) (rest : List Char) (hd : text = sign :: rest) (hs : isScalarChar sign) : c ∈ rest :=
    (List.mem_cons.mp (hd ▸ h)).resolve_left <| ne_of_stray hc hs
  unfold parse?
  split
  case h_1 rest => exact unsigned_stray true (hm '-' rest rfl (by decide)) hc
  case h_2 rest => exact unsigned_stray false (hm '+' rest rfl (by decide)) hc
  case h_3      => exact unsigned_stray false h hc

end Binary64

namespace Decimal

-- An integer as it is printed.
inductive Printed : List Char → Int → Prop
  | zero     : Printed ['0'] 0
  | positive : 0 < n → Canonical digits n → Printed digits n
  | negative : 0 < n → Canonical digits n → Printed ('-' :: digits) (-n)

theorem render_eq_iff : render n = cs ↔ Printed cs n := by
  refine ⟨?_, fun h => ?_⟩
  case refine_1 =>
    rintro rfl
    rcases n with n | n
    case ofNat =>
      rcases Nat.eq_zero_or_pos n with rfl | hn
      case inl => exact .zero
      case inr => exact .positive hn <| (canonical_iff hn).mpr rfl
    case negSucc =>
      have hn : 0 < n + 1 := Nat.succ_pos n
      exact .negative hn <| (canonical_iff hn).mpr rfl
  case refine_2 =>
    rcases h with _ | ⟨hn, hc⟩ | ⟨hn, hc⟩
    case zero     => rfl
    case positive => exact ((canonical_iff hn).mp hc).symm
    case negative n digits =>
      obtain ⟨n, rfl⟩ := Nat.exists_eq_succ_of_ne_zero hn.ne'
      exact congrArg _ ((canonical_iff hn).mp hc).symm

end Decimal

namespace Setting

variable {v w : String}

-- A truth value, with letters of either case.
def IsWord (v : String) : Prop :=
  v.toLower = "true" ∨ v.toLower = "false"

-- An integer of 64 bits, perhaps with a sign and with zeros in front.
def IsInteger (v : String) (n : Int) : Prop :=
  Decimal.Numeral (Utf8.encode v) n ∧ Decimal.fits 64 n

-- What becomes of a text that is taken for what it looks like.
inductive Arrives (v : String) : String → Prop
  | word    : IsWord v → Arrives v v.toLower
  | integer : ¬IsWord v → IsInteger v n → Arrives v (Decimal.text n)
  | float   : ¬IsWord v → (∀ n, ¬IsInteger v n) → Binary64.parse? v.toList = some x →
    Arrives v (String.ofList x.render)
  | itself  : ¬IsWord v → (∀ n, ¬IsInteger v n) → Binary64.parse? v.toList = none → Arrives v v

-- A text that stays as it is.
inductive Verbatim (v : String) : Prop
  | word    : v = "true" ∨ v = "false" → Verbatim v
  | integer : ¬IsWord v → IsInteger v n → Decimal.Printed v.toList n → Verbatim v
  | float   : ¬IsWord v → (∀ n, ¬IsInteger v n) → Binary64.parse? v.toList = some x → v.toList = x.render →
    Verbatim v
  | other   : ¬IsWord v → (∀ n, ¬IsInteger v n) → Binary64.parse? v.toList = none → Verbatim v

theorem parse?_eq_some_iff : Decimal.parse? v.toList = some n ↔ Decimal.Numeral (Utf8.encode v) n := by
  rw [←Decimal.decode?_parse?_iff, Utf8.decode?_encode, Option.bind_some]

theorem int64?_of_isInteger (h : IsInteger v n) : ∃ m, Decimal.int64? v.toList = some m ∧ m.toInt = n := by
  obtain ⟨hn, hf⟩ := h
  have hr : -2 ^ 63 ≤ n ∧ n < 2 ^ 63 := by simpa [Decimal.fits] using hf
  refine ⟨Int64.ofInt n, ?_, Int64.toInt_ofInt_of_le hr.1 hr.2⟩
  simp only [Decimal.int64?, parse?_eq_some_iff.mpr hn, hf, if_true]

theorem int64?_of_not_isInteger (h : ∀ n, ¬IsInteger v n) : Decimal.int64? v.toList = none := by
  unfold Decimal.int64?
  split
  case h_1 n hn => exact if_neg fun hf => h n ⟨parse?_eq_some_iff.mp hn, hf⟩
  case h_2      => rfl

theorem ofVariable_of_not_word (h : ¬IsWord v) : ofVariable v =
    match Decimal.int64? v.toList, Binary64.parse? v.toList with
    | some n, _      => integer n
    | none,   some x => float x
    | none,   none   => text v :=
  (if_neg (not_or.mp h).1).trans <| if_neg (not_or.mp h).2

theorem Arrives.toText (h : Arrives v w) : (ofVariable v).toText = .ok w := by
  cases h
  case word h =>
    rcases h with h | h
    case inl => simp [ofVariable, h, Setting.toText, boolText]
    case inr => simp [ofVariable, h, Setting.toText, boolText]
  case integer hw hn =>
    have ⟨m, hm, he⟩ := int64?_of_isInteger hn
    rw [ofVariable_of_not_word hw, hm, ←he]
    rfl
  case float hw hn hx =>
    rw [ofVariable_of_not_word hw, int64?_of_not_isInteger hn, hx]
    rfl
  case itself hw hn hx =>
    rw [ofVariable_of_not_word hw, int64?_of_not_isInteger hn, hx]
    rfl

theorem exists_arrives (v : String) : ∃ w, Arrives v w := by
  by_cases hw : IsWord v
  case pos => exact ⟨_, .word hw⟩
  by_cases hn : ∃ n, IsInteger v n
  case pos => exact ⟨_, .integer hw hn.choose_spec⟩
  have hn : ∀ n, ¬IsInteger v n := not_exists.mp hn
  cases hx : Binary64.parse? v.toList
  case none   => exact ⟨_, .itself hw hn hx⟩
  case some x => exact ⟨_, .float hw hn hx⟩

theorem Arrives.unique (h : Arrives v w) (h' : Arrives v w') : w = w' :=
  Except.ok.inj <| h.toText.symm.trans h'.toText

theorem Arrives.verbatim (h : Arrives v w) (he : w = v) : Verbatim v := by
  cases h
  case word h => exact .word <| h.imp (he ▸ ·) (he ▸ ·)
  case integer hw hn =>
    refine .integer hw hn <| Decimal.render_eq_iff.mp ?_
    rw [←he, Decimal.text, String.toList_ofList]
  case float hw hn hx =>
    refine .float hw hn hx ?_
    conv => lhs; rw [←he]
    exact String.toList_ofList
  case itself hw hn hx => exact .other hw hn hx

theorem Verbatim.arrives (h : Verbatim v) : Arrives v v := by
  cases h
  case word h =>
    have hl : v.toLower = v := by rcases h with rfl | rfl <;> decide +kernel
    have hw : IsWord v := h.imp hl.trans hl.trans
    have ha : Arrives v v.toLower := .word hw
    rwa [hl] at ha
  case integer n hw hn hp =>
    have he : Decimal.text n = v := by rw [Decimal.text, Decimal.render_eq_iff.mpr hp, String.ofList_toList]
    have ha : Arrives v (Decimal.text n) := .integer hw hn
    rwa [he] at ha
  case float x hw hn hx hp =>
    have he : String.ofList x.render = v := by rw [←hp, String.ofList_toList]
    have ha : Arrives v (String.ofList x.render) := .float hw hn hx
    rwa [he] at ha
  case other hw hn hx => exact .itself hw hn hx

theorem Arrives.eq_iff (h : Arrives v w) : w = v ↔ Verbatim v :=
  ⟨h.verbatim, fun hv => h.unique hv.arrives⟩

-- A character that is in no number and no word.
theorem verbatim_of_stray (h : c ∈ v.toList) (hc : isScalarChar c = false) : Verbatim v := by
  have hstray {word : String} (hl : word.toList.all Char.isAlphanum) : v.toLower ≠ word := fun he =>
    absurd (isScalarChar_of_toLower he hl h) (by simp [hc])
  refine .other (not_or.mpr ⟨hstray (by decide), hstray (by decide)⟩) (fun n hn => ?_)
    (Binary64.parse?_stray h hc)
  have hp := Decimal.parse?_stray h (Binary64.not_digit_of_stray hc)
    ⟨Binary64.ne_of_stray hc (by decide), Binary64.ne_of_stray hc (by decide)⟩
  cases hp.symm.trans <| parse?_eq_some_iff.mpr hn.1

end Setting

-- The fields that are texts.
inductive TextField
  | elevationCommand
  | helperPath

namespace TextField

def field : TextField → Field String
  | elevationCommand => .elevationCommand
  | helperPath       => .helperPath

def variableName : TextField → String
  | elevationCommand => "PRIVFS_ELEVATION_COMMAND"
  | helperPath       => "PRIVFS_HELPER_PATH"

def given? (o : CommonOptions) : TextField → Option String
  | elevationCommand => o.elevation?
  | helperPath       => o.helper?

-- A command line with nothing but this field.
def flag (v : String) : TextField → CommonOptions
  | elevationCommand => { elevation? := some v }
  | helperPath       => { helper? := some v }

-- The usual configuration but for this field.
def config (v : String) : TextField → Config
  | elevationCommand => { elevationCommand := v }
  | helperPath       => { helperPath := v }

theorem find?_single (key : String) (s : Setting) : Settings.find? [(key, s)] key = some s := by
  simp [Settings.find?]

theorem find?_single_other (s : Setting) (h : key' ≠ key) : Settings.find? [(key, s)] key' = none :=
  Settings.find?_eq_none_iff.mpr fun _ ht => h <| (Prod.mk.inj <| List.mem_singleton.mp ht).1

-- Layers in which only one field is set.
theorem config_of_single (t : TextField) {l : Layers} (h : l.value t.field = .ok v)
    (hno : ∀ {α} (f : Field α), f.key ≠ t.field.key → l.value f = .ok f.usual) :
    l.config = .ok (t.config v) := by
  refine (Layers.config_eq_ok_iff l).mpr fun f => ?_
  cases t
  case elevationCommand =>
    cases f
    case elevationCommand => exact h
    all_goals exact hno _ (by decide)
  case helperPath =>
    cases f
    case helperPath => exact h
    all_goals exact hno _ (by decide)

theorem ofSetting_field (t : TextField) : t.field.ofSetting = Setting.toText := by
  cases t <;> rfl

-- One variable, and one text in a file, are a single setting.
theorem ofEnvironment_variable (t : TextField) (v : String) :
    Settings.ofEnvironment [(t.variableName, v)] = [(t.field.key, .ofVariable v)] := by
  cases t <;> rfl

theorem ofToml_text (t : TextField) (v : String) :
    Settings.ofToml (Toml.written [(t.field.key, v)]) = [(t.field.key, .text v)] := by
  cases t <;> rfl

theorem load_none (read : Config.Files) (env : Environment) :
    Config.load read none env = ({ inEnv := .ofEnvironment env } : Layers).config := by
  rw [Config.load]
  rfl

theorem load_variable (t : TextField) (h : (Setting.ofVariable v).toText = .ok w)
    (read : Config.Files) :
    Config.load read none [(t.variableName, v)] = .ok (t.config w) := by
  rw [load_none, ofEnvironment_variable]
  refine t.config_of_single ?_ fun f hf => ?_
  case refine_1 =>
    rw [Layers.value, Layers.field, find?_single, ofSetting_field]
    dsimp only
    rw [h]
    rfl
  case refine_2 =>
    rw [Layers.value, Layers.field, find?_single_other _ hf]
    rfl

theorem config_of_text (t : TextField) (v fileName : String) :
    ({ file := .ofToml (Toml.written [(t.field.key, v)]), fileName } : Layers).config = .ok (t.config v) := by
  rw [ofToml_text]
  refine t.config_of_single ?_ fun f hf => ?_
  case refine_1 =>
    have hn : Settings.find? [] t.field.key = none := rfl
    rw [Layers.value, Layers.field, hn, find?_single, ofSetting_field]
    rfl
  case refine_2 =>
    have hn : Settings.find? [] f.key = none := rfl
    rw [Layers.value, Layers.field, hn, find?_single_other _ hf]

theorem wins_of_variable (t : TextField) {S : Sources} (h : (t.variableName, v) ∈ S.env)
    (entries : Toml.Entries) :
    S.Wins entries t.field (.ofVariable v) := by
  refine .inEnv ⟨_, v, h, ?_, rfl⟩
  cases t
  case elevationCommand =>
    exact ⟨"elevation_command".toList, by decide, Settings.wordsOf_eq_iff.mp (by decide)⟩
  case helperPath =>
    exact ⟨"helper_path".toList, by decide, Settings.wordsOf_eq_iff.mp (by decide)⟩

theorem inFile_of_text (t : TextField) (h : (t.field.key, .value (.text v)) ∈ entries) :
    t.field.InFile entries (.text v) := by
  have hl : Settings.lower t.field.key = t.field.key := by cases t <;> decide
  exact ⟨_, _, h, by rw [hl]; exact .itself⟩

theorem override_field (t : TextField) (o : CommonOptions) (v : String) :
    t.field.override o v = (t.given? o).getD v := by
  cases t <;> rfl

theorem config_from_variable (t : TextField) (h : (Setting.ofVariable v).toText = .ok w)
    (read : Config.Files) :
    Sources.config ⟨{}, read, [(t.variableName, v)]⟩ = .ok (t.config w) := by
  refine Sources.config_eq_ok_iff_load.mpr ⟨t.config w, t.load_variable h read, fun f => ?_⟩
  cases f <;> cases t <;> simp [config, Field.override, Field.get]

theorem config_from_text (t : TextField) (v name : String) :
    (Sources.ofTexts name [(t.field.key, v)] { config? := some name } []).config = .ok (t.config v) := by
  have hl : ((Sources.ofTexts name [(t.field.key, v)] { config? := some name } []).layers
      (Toml.written [(t.field.key, v)]) name).config = .ok (t.config v) := t.config_of_text v name
  rw [Sources.ofTexts_config rfl (by simp) (.inl rfl), hl]
  cases t <;> rfl

theorem config_from_flag (t : TextField) (v : String) (read : Config.Files) :
    Sources.config ⟨t.flag v, read, []⟩ = .ok (t.config v) := by
  have hno : (t.flag v).config? = none := by cases t <;> rfl
  have hl : Config.load read (t.flag v).config? [] = .ok {} := by
    rw [hno, load_none]
    exact (Layers.config_eq_ok_iff _).mpr fun f => rfl
  refine Sources.config_eq_ok_iff_load.mpr ⟨{}, hl, fun f => ?_⟩
  cases f <;> cases t <;> simp [flag, config, Field.override, Field.get]

-- Whatever else there is, the field is what counts for it.
theorem get_of_wins (t : TextField) {S : Sources} (hs : S.Settled) (hc : S.config = .ok c)
    (hg : t.given? S.options = none) (hw : ∀ entries, S.File entries → S.Wins entries t.field s)
    (ht : s.toText = .ok w) : t.field.get c = w := by
  have ⟨entries, hf, h⟩ := (Sources.config_eq_ok_iff hs).mp hc
  have ⟨u, hu, he⟩ := h t.field
  have hw : S.Takes entries t.field w := .set (hw entries hf) (by rw [ofSetting_field, ht])
  rw [he, hu.unique hw hs hf, override_field, hg, Option.getD_none]

theorem get_of_given (t : TextField) {S : Sources} (hc : S.config = .ok c)
    (hg : t.given? S.options = some v) : t.field.get c = v := by
  have ⟨d, _, h⟩ := Sources.config_eq_ok_iff_load.mp hc
  rw [h t.field, override_field, hg, Option.getD_some]

-- Where a text comes from decides whether it arrives as it was written.
theorem text_by_source (t : TextField) (v : String) :
    (∃ w, Setting.Arrives v w ∧ (w = v ↔ Setting.Verbatim v) ∧
      (∀ read, Sources.config ⟨{}, read, [(t.variableName, v)]⟩ = .ok (t.config w)) ∧
      ∀ S : Sources, S.Settled → ∀ c, S.config = .ok c → t.given? S.options = none →
        (t.variableName, v) ∈ S.env → t.field.get c = w) ∧
    ((∃ c ∈ v.toList, isScalarChar c = false) → Setting.Verbatim v) ∧
    ((∀ name, (Sources.ofTexts name [(t.field.key, v)] { config? := some name } []).config =
      .ok (t.config v)) ∧
      ∀ S : Sources, S.Settled → ∀ c, S.config = .ok c → t.given? S.options = none →
        (∀ s, ¬t.field.InEnv S.env s) →
          (∀ entries, S.File entries → (t.field.key, .value (.text v)) ∈ entries) → t.field.get c = v) ∧
    (∀ read, Sources.config ⟨t.flag v, read, []⟩ = .ok (t.config v)) ∧
    ∀ S : Sources, ∀ c, S.config = .ok c → t.given? S.options = some v → t.field.get c = v := by
  have ⟨w, hw⟩ := Setting.exists_arrives v
  refine ⟨⟨w, hw, hw.eq_iff, t.config_from_variable hw.toText, ?_⟩,
    fun ⟨c, hm, hc⟩ => Setting.verbatim_of_stray hm hc, ⟨t.config_from_text v, ?_⟩, t.config_from_flag v, ?_⟩
  case refine_1 =>
    intro S hs c hc hg hv
    exact t.get_of_wins hs hc hg (fun entries _ => t.wins_of_variable hv entries) hw.toText
  case refine_2 =>
    intro S hs c hc hg hno hf
    exact t.get_of_wins hs hc hg (fun entries he => .inFile hno <| t.inFile_of_text (hf entries he)) rfl
  case refine_3 =>
    intro S c hc hg
    exact t.get_of_given hc hg

-- A command that looks like a number, from each source.
theorem numeral_command_is_changed :
    let file := Sources.ofTexts "privfs.toml" [("elevation-command", "007")] { config? := some "privfs.toml" } []
    Sources.config ⟨{}, fun _ => none, [("PRIVFS_ELEVATION_COMMAND", "007")]⟩ =
        .ok { elevationCommand := "7" } ∧
      file.config = .ok { elevationCommand := "007" } ∧
      Sources.config ⟨{ elevation? := some "007" }, fun _ => none, []⟩ =
        .ok { elevationCommand := "007" } := by
  intro file
  refine ⟨by decide +kernel, ?_, by decide +kernel⟩
  rw [Sources.ofTexts_config rfl (by simp) (.inl rfl)]
  decide +kernel

end TextField

end FileBroker
