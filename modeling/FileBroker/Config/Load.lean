import FileBroker.Config.Basic
import FileBroker.Config.Setting
import FileBroker.Failure

namespace FileBroker

abbrev Environment := List (String × String)

-- Settings by the names they are looked up by. The last one of a name counts.
abbrev Settings := List (String × Setting)

inductive ConfigError
  -- The file is not there, cannot be read, or is no text.
  | file (text : String)
  | notToml
  | mismatch (m : Mismatch) (key : String) (origin : String)
  deriving DecidableEq, Repr

def ConfigError.message : ConfigError → String
  | file text => text
  | notToml   => "the configuration file is not TOML"
  | mismatch m key origin =>
    s!"invalid type: {m.found}, expected {m.wanted} for key \x60{key}\x60 in {origin}"

namespace Settings

-- Names are told apart in lower case. The Kelvin sign is the only letter outside ASCII that becomes a letter
-- of some key: the `k` of `handshake-timeout-ms`.
def lower (name : String) : String :=
  String.ofList <| name.toList.map fun c => if c = '\u212A' then 'k' else c.toLower

def isKeyChar (c : Char) : Bool :=
  c.isAlphanum || c = '_' || c = '-'

-- What may follow the first part of a name: a dot and another part, or a number in brackets.
def isSubPath : (bound : Nat) → List Char → Bool
  | _,         []          => true
  | 0,         _           => false
  | bound + 1, '.' :: rest =>
    !(rest.takeWhile isKeyChar).isEmpty && isSubPath bound (rest.dropWhile isKeyChar)
  | bound + 1, '[' :: rest =>
    let index := rest.takeWhile (· ≠ ']')
    (Decimal.parse? index).isSome && rest.length ≠ index.length &&
      isSubPath bound (rest.drop (index.length + 1))
  | _ + 1,     _           => false

-- A name that leads into something stands for that thing, which then is no scalar.
def ofName (name : String) (s : Setting) : String × Setting :=
  let head := name.toList.takeWhile isKeyChar
  match name.toList.drop head.length with
  | []   => (name, s)
  | rest =>
    if head.isEmpty || !isSubPath rest.length rest then (name, s)
    else (String.ofList head, if rest.head? = some '[' then .list else .table)

def ofToml (entries : Toml.Entries) : Settings :=
  entries.map fun (key, e) => ofName (lower key) (.ofToml e.toValue)

def isSeparator (c : Char) : Bool :=
  c = '_' || c = '-' || c = ' '

-- Underscores and dashes are the same in the name of a variable, and many are like one.
def fieldName (rest : List Char) : String :=
  "-".intercalate (((rest.splitOnP isSeparator).filter (!·.isEmpty)).map String.ofList)

def variablePrefix : String := "privfs_"

def ofEnvironment (env : Environment) : Settings :=
  env.filterMap fun (name, value) =>
    let name := (lower name).toList
    if variablePrefix.toList.isPrefixOf name then
      some (ofName (fieldName (name.drop variablePrefix.length)) (.ofVariable value))
    else none

def find? (settings : Settings) (key : String) : Option Setting :=
  (settings.reverse).lookup key

end Settings

-- The layers of a configuration, each with the words for where it comes from.
structure Layers where
  file     : Settings := []
  fileName : String := ""
  inEnv    : Settings := []

namespace Layers

-- The value for a key in the uppermost layer that has one.
def field (l : Layers) (key : String) (default : α) (convert : Setting → Except Mismatch α) :
    Except ConfigError α :=
  match l.inEnv.find? key with
  | some s => (convert s).mapError (.mismatch · key "the environment")
  | none =>
    match l.file.find? key with
    | some s => (convert s).mapError (.mismatch · key l.fileName)
    | none   => .ok default

def config (l : Layers) : Except ConfigError Config := do
  let usual : Config := {}
  return {
    elevationCommand := ← l.field "elevation-command" usual.elevationCommand Setting.toText
    helperPath       := ← l.field "helper-path" usual.helperPath Setting.toText
    primaryTimeout   := ← l.field "primary-timeout-ms" usual.primaryTimeout Setting.toUInt64
    secondaryTimeout := ← l.field "secondary-timeout-ms" usual.secondaryTimeout Setting.toUInt64
    handshakeTimeout := ← l.field "handshake-timeout-ms" usual.handshakeTimeout Setting.toUInt64
    expectedUid      := ← l.field "expected-uid" usual.expectedUid Setting.toUInt32
    debug            := ← l.field "debug" usual.debug Setting.toBool }

end Layers

namespace Config

-- What there is under each name: nothing, a file that cannot be read, or a file.
abbrev Files := String → Option (Except IoError Bytes)

-- The file of that name, or of that name with the usual ending if there is none of that name.
def findFile (read : Files) (name : String) : Option (String × Except IoError Bytes) :=
  [name, name ++ ".toml"].findSome? fun candidate => (read candidate).map ((candidate, ·))

def fileSettings (read : Files) (name : String) : Except ConfigError (String × Settings) :=
  match findFile read name with
  | none => .error (.file s!"configuration file {Quoted.plain name} not found")
  | some (_, .error e) => .error (.file e.message)
  | some (fileName, .ok bytes) =>
    match Utf8.decode? bytes with
    | none => .error (.file "stream did not contain valid UTF-8")
    | some text =>
      match Toml.read? text with
      | none         => .error .notToml
      | some entries => .ok (fileName, .ofToml entries)

def load (read : Files) (file : Option String) (env : Environment) : Except ConfigError Config := do
  let (fileName, settings) ← match file with
    | none      => pure ("", [])
    | some name => fileSettings read name
  ({ file := settings, fileName, inEnv := .ofEnvironment env } : Layers).config

end Config

end FileBroker
