import FileBroker.Config.Load
import FileBroker.Text.PathText

namespace FileBroker

inductive LogLevel
  | error | warn | info | debug | trace
  deriving DecidableEq, Repr

namespace LogLevel

def all : List LogLevel := [error, warn, info, debug, trace]

def usual : LogLevel := info

def name : LogLevel → String
  | error => "error"
  | warn  => "warn"
  | info  => "info"
  | debug => "debug"
  | trace => "trace"

-- The name in the log itself.
def title (l : LogLevel) : String :=
  l.name.toUpper

def ofName? (name : String) : Option LogLevel :=
  all.find? (·.name = name)

def ofNameAnyCase? (name : String) : Option LogLevel :=
  ofName? name.toLower

end LogLevel

inductive LogFormat
  | plaintext | json
  deriving DecidableEq, Repr

namespace LogFormat

def all : List LogFormat := [plaintext, json]

def usual : LogFormat := plaintext

def name : LogFormat → String
  | plaintext => "plaintext"
  | json      => "json"

def ofName? (name : String) : Option LogFormat :=
  all.find? (·.name = name)

def ofNameAnyCase (text : String) : Except String LogFormat :=
  match ofName? text.toLower with
  | some f => .ok f
  | none   => .error s!"Invalid log format: {text}. Use 'plaintext' or 'json'"

end LogFormat

structure LogOptions where
  level?  : Option LogLevel := none
  format? : Option LogFormat := none
  dir?    : Option String := none
  file?   : Option String := none
  deriving DecidableEq, Repr

namespace LogOptions

def isEmpty (o : LogOptions) : Bool :=
  o = {}

-- What is missing is taken from `other`.
def orElse (o other : LogOptions) : LogOptions where
  level?  := o.level?.or other.level?
  format? := o.format?.or other.format?
  dir?    := o.dir?.or other.dir?
  file?   := o.file?.or other.file?

def isToFile (o : LogOptions) : Bool :=
  o.file?.isSome || o.dir?.isSome

-- Where the home directory is when the environment does not say so.
def defaultHome : String := "/root"

def home (env : Environment) : String :=
  match env.lookup "HOME" with
  | some home => if home.isEmpty then defaultHome else home
  | none      => defaultHome

def dataDir (env : Environment) : String :=
  match env.lookup "XDG_DATA_HOME" with
  | some dir => if PathText.isAbsolute dir then dir else PathText.join (home env) ".local/share"
  | none     => PathText.join (home env) ".local/share"

def fileName (component : String) : String :=
  component ++ ".log"

def standardPath (env : Environment) (component : String) : String :=
  PathText.join (PathText.join (dataDir env) "privfs") (fileName component)

-- The path of the log file of a component.
def path (o : LogOptions) (env : Environment) (component : String) : String :=
  match o.file?, o.dir? with
  | some file, some dir => PathText.join dir file
  | some file, none     => file
  | none,      some dir => PathText.join dir (fileName component)
  | none,      none     => standardPath env component

end LogOptions

end FileBroker
