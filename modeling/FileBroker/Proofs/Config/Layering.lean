import Mathlib
import FileBroker.Command.Basic
import FileBroker.Proofs.Config.Naming
import FileBroker.Proofs.Record.Layout
import FileBroker.Proofs.Toml.Writing

namespace FileBroker

open Settings

-- The fields of a configuration, each with the type of its values.
inductive Field : Type → Type
  | elevationCommand : Field String
  | helperPath       : Field String
  | primaryTimeout   : Field UInt64
  | secondaryTimeout : Field UInt64
  | handshakeTimeout : Field UInt64
  | expectedUid      : Field UInt32
  | debug            : Field Bool

namespace Field

def words : Field α → List (List Char)
  | elevationCommand => ["elevation".toList, "command".toList]
  | helperPath       => ["helper".toList, "path".toList]
  | primaryTimeout   => ["primary".toList, "timeout".toList, "ms".toList]
  | secondaryTimeout => ["secondary".toList, "timeout".toList, "ms".toList]
  | handshakeTimeout => ["handshake".toList, "timeout".toList, "ms".toList]
  | expectedUid      => ["expected".toList, "uid".toList]
  | debug            => ["debug".toList]

def key (f : Field α) : String :=
  keyOf f.words

def ofSetting : Field α → Setting → Except Mismatch α
  | elevationCommand => Setting.toText
  | helperPath       => Setting.toText
  | primaryTimeout   => Setting.toUInt64
  | secondaryTimeout => Setting.toUInt64
  | handshakeTimeout => Setting.toUInt64
  | expectedUid      => Setting.toUInt32
  | debug            => Setting.toBool

def get (c : Config) : Field α → α
  | elevationCommand => c.elevationCommand
  | helperPath       => c.helperPath
  | primaryTimeout   => c.primaryTimeout
  | secondaryTimeout => c.secondaryTimeout
  | handshakeTimeout => c.handshakeTimeout
  | expectedUid      => c.expectedUid
  | debug            => c.debug

def usual (f : Field α) : α :=
  f.get {}

-- What the command line makes of a value.
def override (o : CommonOptions) : Field α → α → α
  | elevationCommand, v => o.elevation?.getD v
  | helperPath,       v => o.helper?.getD v
  | primaryTimeout,   v => v
  | secondaryTimeout, v => v
  | handshakeTimeout, v => v
  | expectedUid,      v => v
  | debug,            v => v || o.debug

theorem wording (f : Field α) : Wording f.words := by
  constructor
  case ne_nil  => cases f <;> simp [words]
  case word    => cases f <;> simp [words, isSeparator]
  case keyChar => cases f <;> simp [words, isKeyChar, Char.isAlphanum, Char.isAlpha, Char.isLower]

theorem ext {c d : Config} (h : ∀ {α} (f : Field α), f.get c = f.get d) : c = d := by
  cases c
  cases d
  rw [Config.mk.injEq]
  exact ⟨h .elevationCommand, h .helperPath, h .primaryTimeout, h .secondaryTimeout, h .handshakeTimeout,
    h .expectedUid, h .debug⟩

def assemble (v : ∀ {α}, Field α → α) : Config where
  elevationCommand := v elevationCommand
  helperPath       := v helperPath
  primaryTimeout   := v primaryTimeout
  secondaryTimeout := v secondaryTimeout
  handshakeTimeout := v handshakeTimeout
  expectedUid      := v expectedUid
  debug            := v debug

theorem get_assemble (v : ∀ {α}, Field α → α) (f : Field α) : f.get (assemble v) = v f := by
  cases f <;> rfl

-- A variable for the field.
def InEnv (env : Environment) (f : Field α) (s : Setting) : Prop :=
  ∃ name value, (name, value) ∈ env ∧ Names f.words name ∧ s = .ofVariable value

-- A key of a file for the field, or for something in it.
def InFile (entries : Toml.Entries) (f : Field α) (s : Setting) : Prop :=
  ∃ name e, (name, e) ∈ entries ∧ Entered f.key (.ofToml e.toValue) (lower name) s

end Field

namespace Layers

def value (l : Layers) (f : Field α) : Except ConfigError α :=
  l.field f.key f.usual f.ofSetting

theorem config_eq (l : Layers) : l.config = do
    return {
      elevationCommand := ← l.value .elevationCommand
      helperPath       := ← l.value .helperPath
      primaryTimeout   := ← l.value .primaryTimeout
      secondaryTimeout := ← l.value .secondaryTimeout
      handshakeTimeout := ← l.value .handshakeTimeout
      expectedUid      := ← l.value .expectedUid
      debug            := ← l.value .debug } := rfl

theorem config_eq_ok_iff (l : Layers) :
    l.config = .ok c ↔ ∀ {α} (f : Field α), l.value f = .ok (f.get c) := by
  refine ⟨fun h => ?_, fun h => ?_⟩
  case refine_1 =>
    have ⟨_, h₁, h⟩ := bind_eq_ok h
    have ⟨_, h₂, h⟩ := bind_eq_ok h
    have ⟨_, h₃, h⟩ := bind_eq_ok h
    have ⟨_, h₄, h⟩ := bind_eq_ok h
    have ⟨_, h₅, h⟩ := bind_eq_ok h
    have ⟨_, h₆, h⟩ := bind_eq_ok h
    have ⟨_, h₇, h⟩ := bind_eq_ok h
    obtain rfl := Except.ok.inj h
    intro _ f
    cases f <;> assumption
  case refine_2 =>
    simp only [config_eq, h, bind, Except.bind, pure, Except.pure]
    rfl

-- If a field has no value, the configuration has none.
theorem config_eq_error_iff (l : Layers) :
    (∃ e, l.config = .error e) ↔ ∃ α, ∃ (f : Field α) (e : ConfigError), l.value f = .error e := by
  refine ⟨fun ⟨e, he⟩ => ?_, fun ⟨α, f, e, he⟩ => ?_⟩
  case refine_1 =>
    by_contra hn
    -- Values of all fields would make up a configuration.
    have hv : ∀ {α} (f : Field α), ∃ v, l.value f = .ok v := fun f => by
      cases hf : l.value f
      case error e => exact absurd ⟨_, f, e, hf⟩ hn
      case ok v    => exact ⟨v, rfl⟩
    choose v hv using @hv
    have hc : l.config = .ok (Field.assemble v) :=
      (config_eq_ok_iff l).mpr fun f => by rw [hv f, Field.get_assemble]
    cases he.symm.trans hc
  case refine_2 =>
    cases hc : l.config
    case error e => exact ⟨e, rfl⟩
    case ok c    => cases he.symm.trans <| (config_eq_ok_iff l).mp hc f

end Layers

-- What there is under a name, or under that name with the usual ending if there is nothing of that name.
inductive Holds (read : Config.Files) (name : String) : Except IoError Bytes → Prop
  | named : read name = some found → Holds read name found
  | ended : read name = none → read (name ++ ".toml") = some found → Holds read name found

variable {read : Config.Files} {found : Except IoError Bytes}

theorem findFile_holds (h : Config.findFile read name = some (fileName, found)) : Holds read name found := by
  rw [Config.findFile, List.findSome?_cons] at h
  cases hn : read name
  case some there =>
    rw [hn] at h
    cases h
    exact .named hn
  case none =>
    simp only [hn, Option.map_none, List.findSome?_cons, List.findSome?_nil] at h
    cases he : read (name ++ ".toml")
    case none       => simp [he] at h
    case some there =>
      simp only [he, Option.map_some, Option.some.injEq, Prod.mk.injEq] at h
      exact .ended hn <| h.2 ▸ he

theorem Holds.findFile (h : Holds read name found) :
    ∃ fileName, Config.findFile read name = some (fileName, found) := by
  cases h
  case named hn    => exact ⟨name, by simp [Config.findFile, hn]⟩
  case ended he hn => exact ⟨name ++ ".toml", by simp [Config.findFile, he, hn]⟩

theorem findFile_eq_none_iff :
    Config.findFile read name = none ↔ read name = none ∧ read (name ++ ".toml") = none := by
  simp [Config.findFile]

theorem fileSettings_eq_ok (h : Config.fileSettings read name = .ok (fileName, settings)) :
    ∃ bytes entries, Holds read name (.ok bytes) ∧ ∃ text, Utf8.decode? bytes = some text ∧
      Toml.read? text = some entries ∧ settings = .ofToml entries := by
  unfold Config.fileSettings at h
  split at h
  case h_1 => cases h
  case h_2 => cases h
  case h_3 fileName bytes hf =>
    split at h
    case h_1 => cases h
    case h_2 text ht =>
      split at h
      case h_1 => cases h
      case h_2 entries hr =>
        cases h
        exact ⟨bytes, entries, findFile_holds hf, text, ht, hr, rfl⟩

theorem Holds.fileSettings (h : Holds read name (.ok bytes)) (ht : Utf8.decode? bytes = some text)
    (hr : Toml.read? text = some entries) :
    ∃ fileName, Config.fileSettings read name = .ok (fileName, .ofToml entries) := by
  have ⟨fileName, hf⟩ := h.findFile
  refine ⟨fileName, ?_⟩
  simp only [Config.fileSettings, hf, ht, hr]

-- A file of texts.
theorem load_document
    (h : Config.findFile read name = some (fileName, .ok (Utf8.encode (String.ofList (Toml.document texts)))))
    (hn : (texts.map (·.1)).Nodup) (env : Environment) : Config.load read (some name) env =
      ({ file := .ofToml (Toml.written texts), fileName, inEnv := .ofEnvironment env } : Layers).config := by
  have hs : Config.fileSettings read name = .ok (fileName, .ofToml (Toml.written texts)) := by
    simp only [Config.fileSettings, h, Utf8.decode?_encode, Toml.read?_document texts hn]
  rw [Config.load, hs]
  rfl

theorem Holds.unique {found' : Except IoError Bytes} (h : Holds read name found) (h' : Holds read name found') :
    found = found' := by
  have ⟨_, hf⟩ := h.findFile
  have ⟨_, hf'⟩ := h'.findFile
  exact (Prod.mk.inj <| Option.some.inj <| hf.symm.trans hf').2

-- What a configuration is made of.
structure Sources where
  options : CommonOptions
  read    : Config.Files
  env     : Environment

namespace Sources

def config (S : Sources) : Except ConfigError Config :=
  S.options.proxyConfig S.read S.env

-- What the file holds, if there has to be one.
inductive File (S : Sources) : Toml.Entries → Prop
  | none : S.options.config? = none → File S []
  | some : S.options.config? = some name → Holds S.read name (.ok bytes) → Utf8.decode? bytes = some text →
    Toml.read? text = some entries → File S entries

-- Why there is no file where there has to be one.
inductive Lacks (S : Sources) : Prop
  | missing : S.options.config? = some name → S.read name = none → S.read (name ++ ".toml") = none → Lacks S
  | unreadable : S.options.config? = some name → Holds S.read name (.error e) → Lacks S
  | notText : S.options.config? = some name → Holds S.read name (.ok bytes) → Utf8.decode? bytes = none →
    Lacks S
  | notToml : S.options.config? = some name → Holds S.read name (.ok bytes) → Utf8.decode? bytes = some text →
    Toml.read? text = none → Lacks S

-- The setting that counts for a field.
inductive Wins (S : Sources) (entries : Toml.Entries) (f : Field α) : Setting → Prop
  | inEnv  : f.InEnv S.env s → Wins S entries f s
  | inFile : (∀ t, ¬f.InEnv S.env t) → f.InFile entries s → Wins S entries f s

-- The value that a field has below the command line.
inductive Takes (S : Sources) (entries : Toml.Entries) (f : Field α) : α → Prop
  | set   : S.Wins entries f s → f.ofSetting s = .ok v → Takes S entries f v
  | usual : (∀ s, ¬S.Wins entries f s) → Takes S entries f f.usual

-- Names of variables lead nowhere, and nothing is set in two ways in one source.
structure Settled (S : Sources) : Prop where
  plain : ∀ p ∈ S.env, Plain p.1
  env   : Consistent (.ofEnvironment S.env)
  file  : S.File entries → Consistent (.ofToml entries)

-- Sources that agree on a field.
structure Alike (S S' : Sources) (f : Field α) : Prop where
  options : f.override S.options = f.override S'.options
  env     : Names f.words name → ((name, value) ∈ S.env ↔ (name, value) ∈ S'.env)
  file    : S.File entries → S'.File entries' → LeadsTo f.key name →
    ((name, e) ∈ entries ↔ (name, e) ∈ entries')

-- Sources that differ in those of one field at most.
structure AlikeBut (S S' : Sources) (g : Field β) : Prop where
  options : ∀ {α} (f : Field α), f.key ≠ g.key → f.override S.options = f.override S'.options
  env     : ¬Names g.words name → ((name, value) ∈ S.env ↔ (name, value) ∈ S'.env)
  file    : S.File entries → S'.File entries' → ¬LeadsTo g.key name →
    ((name, e) ∈ entries ↔ (name, e) ∈ entries')

variable {S S' : Sources} {entries entries' : Toml.Entries}

def layers (S : Sources) (entries : Toml.Entries) (fileName : String) : Layers where
  file     := .ofToml entries
  fileName := fileName
  inEnv    := .ofEnvironment S.env

theorem Settled.mem_env_iff (hs : S.Settled) (f : Field α) :
    (f.key, s) ∈ Settings.ofEnvironment S.env ↔ f.InEnv S.env s :=
  mem_ofEnvironment_iff f.wording hs.plain

theorem mem_file_iff (f : Field α) : (f.key, s) ∈ Settings.ofToml entries ↔ f.InFile entries s :=
  mem_ofToml_iff f.wording

theorem Wins.value {f : Field α} (h : S.Wins entries f s) (hs : S.Settled) (hf : S.File entries)
    (fileName : String) :
    ∃ origin, (S.layers entries fileName).value f = (f.ofSetting s).mapError (.mismatch · f.key origin) := by
  rw [Layers.value, Layers.field]
  rcases h with hv | ⟨hn, hv⟩
  case inEnv =>
    have hv : (S.layers entries fileName).inEnv.find? f.key = some s :=
      (find?_eq_some_iff hs.env).mpr <| (hs.mem_env_iff f).mpr hv
    exact ⟨_, by rw [hv]⟩
  case inFile =>
    have hn : (S.layers entries fileName).inEnv.find? f.key = none :=
      find?_eq_none_iff.mpr fun t => (hs.mem_env_iff f).not.mpr (hn t)
    have hv : (S.layers entries fileName).file.find? f.key = some s :=
      (find?_eq_some_iff (hs.file hf)).mpr <| (mem_file_iff f).mpr hv
    exact ⟨_, by rw [hn, hv]⟩

theorem value_of_none (f : Field α) (h : ∀ s, ¬S.Wins entries f s) (hs : S.Settled) (fileName : String) :
    (S.layers entries fileName).value f = .ok f.usual := by
  have he (t : Setting) : ¬f.InEnv S.env t := fun ht => h t <| .inEnv ht
  have hn : (S.layers entries fileName).inEnv.find? f.key = none :=
    find?_eq_none_iff.mpr fun t => (hs.mem_env_iff f).not.mpr (he t)
  have hv : (S.layers entries fileName).file.find? f.key = none :=
    find?_eq_none_iff.mpr fun t => (mem_file_iff f).not.mpr fun ht => h t <| .inFile he ht
  rw [Layers.value, Layers.field, hn, hv]

theorem value_eq_ok_iff (f : Field α) (hs : S.Settled) (hf : S.File entries) :
    (S.layers entries fileName).value f = .ok v ↔ S.Takes entries f v := by
  by_cases hw : ∃ s, S.Wins entries f s
  case pos =>
    have ⟨s, hw⟩ := hw
    refine ⟨fun h => ?_, fun h => ?_⟩
    case refine_1 =>
      have ⟨origin, he⟩ := hw.value hs hf fileName
      rw [he] at h
      cases hc : f.ofSetting s
      case error => cases hc ▸ h
      case ok w  =>
        cases hc ▸ h
        exact .set hw hc
    case refine_2 =>
      cases h
      case set hw hc =>
        have ⟨origin, he⟩ := hw.value hs hf fileName
        rw [he, hc]
        rfl
      case usual hn => exact absurd hw (hn s)
  case neg =>
    have hn (s : Setting) : ¬S.Wins entries f s := fun h => hw ⟨s, h⟩
    rw [value_of_none f hn hs fileName]
    refine ⟨fun h => ?_, fun h => ?_⟩
    case refine_1 => exact Except.ok.inj h ▸ .usual hn
    case refine_2 =>
      cases h
      case set hw _ => exact absurd hw (hn _)
      case usual    => rfl

theorem load_eq_ok_iff (hs : S.Settled) :
    Config.load S.read S.options.config? S.env = .ok c ↔
      ∃ entries, S.File entries ∧ ∀ {α} (f : Field α), S.Takes entries f (f.get c) := by
  -- The name of the file occurs in messages only.
  have hlayers {entries fileName} (hf : S.File entries) : (S.layers entries fileName).config = .ok c ↔
      ∀ {α} (f : Field α), S.Takes entries f (f.get c) :=
    (Layers.config_eq_ok_iff _).trans
      ⟨fun h _ f => (value_eq_ok_iff f hs hf).mp (h f), fun h _ f => (value_eq_ok_iff f hs hf).mpr (h f)⟩
  unfold Config.load
  refine ⟨fun h => ?_, fun ⟨entries, hf, hc⟩ => ?_⟩
  case refine_1 =>
    split at h
    case h_1 hn => exact ⟨[], .none hn, (hlayers (.none hn)).mp h⟩
    case h_2 name hn =>
      have ⟨⟨fileName, settings⟩, hset, h⟩ := bind_eq_ok h
      have ⟨bytes, entries, hh, text, ht, hr, he⟩ := fileSettings_eq_ok hset
      subst he
      have hf : S.File entries := .some hn hh ht hr
      exact ⟨entries, hf, (hlayers hf).mp h⟩
  case refine_2 =>
    have hl (fileName : String) : (S.layers entries fileName).config = .ok c := (hlayers hf).mpr hc
    rcases hf with hn | ⟨hn, hh, ht, hr⟩
    case none =>
      rw [hn]
      exact hl _
    case some =>
      have ⟨fileName, hset⟩ := hh.fileSettings ht hr
      rw [hn]
      dsimp only
      rw [hset]
      exact hl _

theorem File.unique (h : S.File entries) (h' : S.File entries') : entries = entries' := by
  rcases h with hn | ⟨hn, hh, ht, hr⟩ <;> rcases h' with hn' | ⟨hn', hh', ht', hr'⟩
  case none.none => rfl
  case none.some => cases hn.symm.trans hn'
  case some.none => cases hn.symm.trans hn'
  case some.some =>
    obtain rfl := Option.some.inj <| hn.symm.trans hn'
    obtain rfl := Except.ok.inj <| hh.unique hh'
    obtain rfl := Option.some.inj <| ht.symm.trans ht'
    exact Option.some.inj <| hr.symm.trans hr'

theorem Lacks.no_file (h : S.Lacks) (entries : Toml.Entries) : ¬S.File entries := by
  intro hf
  rcases hf with hn | ⟨hn, hh, ht, hr⟩
  case none =>
    obtain ⟨hn', _⟩ | ⟨hn', _⟩ | ⟨hn', _⟩ | ⟨hn', _⟩ := h
    all_goals cases hn.symm.trans hn'
  case some =>
    rcases h with ⟨hn', hm, he⟩ | ⟨hn', hh'⟩ | ⟨hn', hh', ht'⟩ | ⟨hn', hh', ht', hr'⟩
    all_goals obtain rfl := Option.some.inj <| hn.symm.trans hn'
    case missing =>
      have ⟨_, hf⟩ := hh.findFile
      cases hf.symm.trans <| findFile_eq_none_iff.mpr ⟨hm, he⟩
    case unreadable => cases hh.unique hh'
    case notText =>
      obtain rfl := Except.ok.inj <| hh.unique hh'
      cases ht.symm.trans ht'
    case notToml =>
      obtain rfl := Except.ok.inj <| hh.unique hh'
      obtain rfl := Option.some.inj <| ht.symm.trans ht'
      cases hr.symm.trans hr'

-- Nothing else can be wrong with a file.
theorem lacks_iff : S.Lacks ↔ ∀ entries, ¬S.File entries := by
  refine ⟨Lacks.no_file, fun h => ?_⟩
  cases hn : S.options.config?
  case none      => exact absurd (.none hn) (h [])
  case some name =>
    rcases hf : Config.findFile S.read name with _ | ⟨fileName, _ | bytes⟩
    case none =>
      have ⟨hm, he⟩ := findFile_eq_none_iff.mp hf
      exact .missing hn hm he
    case some.error => exact .unreadable hn <| findFile_holds hf
    case some.ok =>
      have hh := findFile_holds hf
      cases ht : Utf8.decode? bytes
      case none      => exact .notText hn hh ht
      case some text =>
        cases hr : Toml.read? text
        case none         => exact .notToml hn hh ht hr
        case some entries => exact absurd (.some hn hh ht hr) (h entries)

theorem Wins.unique {f : Field α} (h : S.Wins entries f s) (h' : S.Wins entries f t) (hs : S.Settled)
    (hf : S.File entries) : s = t := by
  rcases h with hv | ⟨hn, hv⟩ <;> rcases h' with hv' | ⟨hn', hv'⟩
  case inEnv.inEnv   => exact hs.env _ ((hs.mem_env_iff f).mpr hv) _ ((hs.mem_env_iff f).mpr hv') rfl
  case inEnv.inFile  => exact absurd hv (hn' s)
  case inFile.inEnv  => exact absurd hv' (hn t)
  case inFile.inFile => exact hs.file hf _ ((mem_file_iff f).mpr hv) _ ((mem_file_iff f).mpr hv') rfl

-- A field has no value if what counts for it is not of its type.
theorem not_takes_iff (f : Field α) (hs : S.Settled) (hf : S.File entries) :
    (∀ v, ¬S.Takes entries f v) ↔ ∃ s m, S.Wins entries f s ∧ f.ofSetting s = .error m := by
  refine ⟨fun h => ?_, fun ⟨s, m, hw, hm⟩ v hv => ?_⟩
  case refine_1 =>
    by_cases hw : ∃ s, S.Wins entries f s
    case pos =>
      have ⟨s, hw⟩ := hw
      cases hc : f.ofSetting s
      case error m => exact ⟨s, m, hw, hc⟩
      case ok v    => exact absurd (.set hw hc) (h v)
    case neg => exact absurd (.usual fun s hs => hw ⟨s, hs⟩) (h f.usual)
  case refine_2 =>
    cases hv
    case set hw' hc =>
      rw [hw.unique hw' hs hf] at hm
      cases hm.symm.trans hc
    case usual hn => exact hn s hw

theorem config_eq_ok_iff_load :
    S.config = .ok c ↔ ∃ d, Config.load S.read S.options.config? S.env = .ok d ∧
      ∀ {α} (f : Field α), f.get c = f.override S.options (f.get d) := by
  refine ⟨fun h => ?_, fun ⟨d, hd, hc⟩ => ?_⟩
  case refine_1 =>
    have ⟨d, hd, h⟩ := bind_eq_ok h
    obtain rfl := Except.ok.inj h
    refine ⟨d, hd, fun f => ?_⟩
    cases f <;> rfl
  case refine_2 =>
    rw [config, CommonOptions.proxyConfig, hd]
    refine congrArg Except.ok <| Field.ext fun f => (Eq.trans ?_ (hc f).symm)
    cases f <;> rfl

theorem config_eq_ok_iff (hs : S.Settled) :
    S.config = .ok c ↔ ∃ entries, S.File entries ∧ ∀ {α} (f : Field α), ∃ v,
      S.Takes entries f v ∧ f.get c = f.override S.options v := by
  rw [config_eq_ok_iff_load]
  refine ⟨fun ⟨d, hd, hc⟩ => ?_, fun ⟨entries, hf, h⟩ => ?_⟩
  case refine_1 =>
    have ⟨entries, hf, ht⟩ := (load_eq_ok_iff hs).mp hd
    exact ⟨entries, hf, fun f => ⟨f.get d, ht f, hc f⟩⟩
  case refine_2 =>
    choose v hv using @h
    refine ⟨Field.assemble v, (load_eq_ok_iff hs).mpr ⟨entries, hf, fun f => ?_⟩, fun f => ?_⟩
    case refine_1 => exact (Field.get_assemble v f).symm ▸ (hv f).1
    case refine_2 => rw [Field.get_assemble, (hv f).2]

theorem config_eq_error_iff (hs : S.Settled) :
    (∃ e, S.config = .error e) ↔ S.Lacks ∨ ∃ entries, S.File entries ∧
      ∃ α, ∃ (f : Field α) (s : Setting) (m : Mismatch), S.Wins entries f s ∧ f.ofSetting s = .error m := by
  rw [lacks_iff]
  refine ⟨fun ⟨e, he⟩ => ?_, fun h => ?_⟩
  case refine_1 =>
    by_contra hn
    obtain ⟨⟨entries, hf⟩, hn⟩ := (not_or.mp hn).imp_left not_forall_not.mp
    have ht : ∀ {α} (f : Field α), ∃ v, S.Takes entries f v := fun f => by
      by_contra hv
      have ⟨s, m, hw, hm⟩ := (not_takes_iff f hs hf).mp (not_exists.mp hv)
      exact hn ⟨entries, hf, _, f, s, m, hw, hm⟩
    choose v hv using @ht
    have hc : S.config = .ok (Field.assemble fun f => f.override S.options (v f)) :=
      (config_eq_ok_iff hs).mpr ⟨entries, hf, fun f => ⟨v f, hv f, Field.get_assemble _ f⟩⟩
    cases he.symm.trans hc
  case refine_2 =>
    cases hc : S.config
    case error e => exact ⟨e, rfl⟩
    case ok c =>
      have ⟨entries, hf, ht⟩ := (config_eq_ok_iff hs).mp hc
      rcases h with hn | ⟨entries', hf', α, f, s, m, hw, hm⟩
      case inl => exact absurd hf (hn entries)
      case inr =>
        obtain rfl := hf.unique hf'
        have ⟨v, hv, _⟩ := ht f
        exact absurd hv <| (not_takes_iff f hs hf).mpr ⟨s, m, hw, hm⟩ v

theorem AlikeBut.alike {g : Field β} (h : S.AlikeBut S' g) (f : Field α) (hfg : f.key ≠ g.key) :
    S.Alike S' f where
  options := h.options f hfg
  env hn  := h.env fun hg => hfg <| congrArg keyOf <| hn.unique hg
  file hf hf' hl := h.file hf hf' fun hg => hfg <| hl.unique f.wording g.wording hg

theorem Alike.symm {f : Field α} (h : S.Alike S' f) : S'.Alike S f where
  options := h.options.symm
  env hn  := (h.env hn).symm
  file hf hf' hl := (h.file hf' hf hl).symm

theorem Alike.wins {f : Field α} (h : S.Alike S' f) (hf : S.File entries) (hf' : S'.File entries')
    (hw : S.Wins entries f s) : S'.Wins entries' f s := by
  rcases hw with ⟨name, value, hm, hn, rfl⟩ | ⟨hno, name, e, hm, he⟩
  case inEnv => exact .inEnv ⟨name, value, (h.env hn).mp hm, hn, rfl⟩
  case inFile =>
    refine .inFile (fun t ⟨name, value, hm, hn, ht⟩ => ?_) ⟨name, e, (h.file hf hf' ⟨_, _, he⟩).mp hm, he⟩
    exact hno t ⟨name, value, (h.env hn).mpr hm, hn, ht⟩

theorem Alike.takes {f : Field α} (h : S.Alike S' f) (hf : S.File entries) (hf' : S'.File entries')
    (ht : S.Takes entries f v) : S'.Takes entries' f v := by
  cases ht
  case set hw hc => exact .set (h.wins hf hf' hw) hc
  case usual hn  => exact .usual fun s hs => hn s <| h.symm.wins hf' hf hs

theorem Takes.unique {f : Field α} (h : S.Takes entries f v) (h' : S.Takes entries f w) (hs : S.Settled)
    (hf : S.File entries) : v = w := by
  have hv : (S.layers entries "").value f = .ok v := (value_eq_ok_iff f hs hf).mpr h
  exact Except.ok.inj <| hv.symm.trans <| (value_eq_ok_iff f hs hf).mpr h'

theorem Alike.get_eq {f : Field α} (h : S.Alike S' f) (hs : S.Settled) (hs' : S'.Settled)
    (hc : S.config = .ok c) (hc' : S'.config = .ok c') : f.get c = f.get c' := by
  have ⟨entries, hf, ht⟩ := (config_eq_ok_iff hs).mp hc
  have ⟨entries', hf', ht'⟩ := (config_eq_ok_iff hs').mp hc'
  have ⟨v, hv, he⟩ := ht f
  have ⟨v', hv', he'⟩ := ht' f
  rw [he, he', h.options, (h.takes hf hf' hv).unique hv' hs' hf']

theorem Alike.config_ok (h : ∀ {α} (f : Field α), S.Alike S' f) (hfile : ∃ entries, S'.File entries)
    (hs : S.Settled) (hs' : S'.Settled) (hc : S.config = .ok c) : S'.config = .ok c := by
  have ⟨entries, hf, ht⟩ := (config_eq_ok_iff hs).mp hc
  have ⟨entries', hf'⟩ := hfile
  refine (config_eq_ok_iff hs').mpr ⟨entries', hf', fun f => ?_⟩
  have ⟨v, hv, he⟩ := ht f
  exact ⟨v, (h f).takes hf hf' hv, (h f).options ▸ he⟩

-- Sources with one file, which holds texts.
def ofTexts (fileName : String) (texts : List (String × String)) (options : CommonOptions)
    (env : Environment) : Sources where
  options := options
  read    := fun name =>
    if name = fileName then some <| .ok <| Utf8.encode <| String.ofList <| Toml.document texts else none
  env     := env

section

variable {fileName name : String} {texts : List (String × String)} {options : CommonOptions}
  {env : Environment}

theorem ofTexts_findFile (h : name = fileName ∨ name ≠ fileName ∧ name ++ ".toml" = fileName) :
    Config.findFile (ofTexts fileName texts options env).read name =
      some (fileName, .ok (Utf8.encode (String.ofList (Toml.document texts)))) := by
  rw [Config.findFile, List.findSome?_cons]
  rcases h with rfl | ⟨hne, rfl⟩
  case inl => simp [ofTexts]
  case inr =>
    have hno : (ofTexts (name ++ ".toml") texts options env).read name = none := if_neg hne
    rw [hno]
    simp [ofTexts]

theorem ofTexts_file (hc : options.config? = some name) (hn : (texts.map (·.1)).Nodup)
    (h : name = fileName ∨ name ≠ fileName ∧ name ++ ".toml" = fileName) :
    (ofTexts fileName texts options env).File (Toml.written texts) :=
  .some hc (findFile_holds <| ofTexts_findFile h) (Utf8.decode?_encode _) (Toml.read?_document texts hn)

theorem ofTexts_config (hc : options.config? = some name) (hn : (texts.map (·.1)).Nodup)
    (h : name = fileName ∨ name ≠ fileName ∧ name ++ ".toml" = fileName) :
    (ofTexts fileName texts options env).config = ((ofTexts fileName texts options env).layers
      (Toml.written texts) fileName).config.map fun c =>
        Field.assemble fun f => f.override options (f.get c) := by
  have hf : Config.findFile (ofTexts fileName texts options env).read name = _ := ofTexts_findFile h
  have hl := load_document hf hn (ofTexts fileName texts options env).env
  change options.proxyConfig _ _ = _
  rw [CommonOptions.proxyConfig, hc, hl]
  rfl

end

-- A configuration gives each field what counts for it, and there is none exactly if the file cannot be read or
-- something that counts is not of its field's type. What is set for one field, or for none, is nothing to another.
theorem layered_by_field (S : Sources) (hs : S.Settled) :
    (∀ c, S.config = .ok c ↔ ∃ entries, S.File entries ∧ ∀ {α} (f : Field α), ∃ v,
      S.Takes entries f v ∧ f.get c = f.override S.options v) ∧
    ((∃ e, S.config = .error e) ↔ S.Lacks ∨ ∃ entries, S.File entries ∧
      ∃ α, ∃ (f : Field α) (s : Setting) (m : Mismatch), S.Wins entries f s ∧ f.ofSetting s = .error m) ∧
    ∀ S' : Sources, S'.Settled →
      (∀ c c', S.config = .ok c → S'.config = .ok c' → ∀ {α β} (f : Field α) (g : Field β),
        S.AlikeBut S' g → f.key ≠ g.key → f.get c = f.get c') ∧
      ((∀ {α} (f : Field α), S.Alike S' f) → ((∃ entries, S.File entries) ↔ ∃ entries, S'.File entries) →
        ∀ c, S.config = .ok c ↔ S'.config = .ok c) := by
  refine ⟨fun c => config_eq_ok_iff hs, config_eq_error_iff hs, fun S' hs' => ⟨?_, ?_⟩⟩
  case refine_1 =>
    intro c c' hc hc' α β f g h hfg
    exact (h.alike f hfg).get_eq hs hs' hc hc'
  case refine_2 =>
    intro h hfile c
    have hloaded {T : Sources} (ht : T.Settled) (hc : T.config = .ok c) : ∃ entries, T.File entries :=
      ((config_eq_ok_iff ht).mp hc).imp fun _ he => he.1
    refine ⟨fun hc => ?_, fun hc => ?_⟩
    case refine_1 => exact Alike.config_ok h (hfile.mp (hloaded hs hc)) hs hs' hc
    case refine_2 => exact Alike.config_ok (fun f => (h f).symm) (hfile.mpr (hloaded hs' hc)) hs' hs hc

-- Over a file, three variables and the command line. One of the variables is for no field, and what the file
-- holds for another field is no number, but does not count.
theorem layered_over_a_file :
    let S := ofTexts "privfs.toml" [("Primary-Timeout-MS", "1000"), ("secondary-timeout-ms", "soon"),
      ("elevation-command", "sudo")] { config? := some "privfs.toml", helper? := some "/opt/helper" }
      [("PRIVFS_SECONDARY_TIMEOUT_MS", "750"), ("PRIVFS_DEBUG", "yes"), ("PRIVFS_LOG", "trace")]
    let c : Config := {
      elevationCommand := "sudo", helperPath := "/opt/helper", primaryTimeout := 1000,
      secondaryTimeout := 750, debug := true }
    S.Settled ∧ ∃ entries, S.File entries ∧ ∀ {α} (f : Field α), ∃ v,
      S.Takes entries f v ∧ f.get c = f.override S.options v := by
  intro S c
  have hc : S.config = .ok c := by
    rw [ofTexts_config rfl (by simp) (.inl rfl)]
    decide +kernel
  have hs : S.Settled := {
    plain := by simp [S, ofTexts, Plain]
    env   := by
      unfold Consistent
      decide +kernel
    file hf := by
      rw [hf.unique <| ofTexts_file rfl (by simp) (.inl rfl)]
      unfold Consistent
      decide +kernel }
  exact ⟨hs, ((layered_by_field S hs).1 c).mp hc⟩

-- A key that is no field's but is a path into one counts for it, and a file that is not there is looked for
-- under another name.
theorem path_and_ending_count :
    let path := ofTexts "privfs.toml" [("debug.x", "1")] { config? := some "privfs.toml" } []
    let ending := ofTexts "privfs.toml" [("debug", "yes")] { config? := some "privfs" } []
    path.File [("debug.x", .value (.text "1"))] ∧ (∀ {α} (f : Field α), f.key ≠ "debug.x") ∧
      path.config = .error (.mismatch { found := "map", wanted := "a boolean" } "debug" "privfs.toml") ∧
      ending.read "privfs" = none ∧ ending.config = .ok { debug := true } := by
  intro path ending
  refine ⟨ofTexts_file rfl (by simp) (.inl rfl), fun f => ?_, ?_, rfl, ?_⟩
  case refine_1 => cases f <;> decide
  case refine_2 =>
    rw [ofTexts_config rfl (by simp) (.inl rfl)]
    decide +kernel
  case refine_3 =>
    rw [ofTexts_config rfl (by simp) (.inr ⟨by decide, by decide⟩)]
    decide +kernel

end Sources

end FileBroker
