import FileBroker.Command.Basic
import FileBroker.Command.Mode
import FileBroker.Usage.Parts

namespace FileBroker

namespace CommandLine

open Form

def commands : List (String × Form Command) := [
  ("cat", .cat <$> word aPath),
  ("stat", .stat <$> word aPath <*> flag "no-follow" <*> flag "json"),
  ("mkdir", .mkdir <$> word aPath <*> value "mode" 0o755 (checked OctalMode.read)),
  ("rm", .rm <$> word aPath <*> flag "dir"),
  ("mv", .mv <$> word aPath <*> word aPath),
  ("ln", .ln <$> word aPath <*> word aPath),
  ("readlink", .readlink <$> word aPath),
  ("access", .access <$> word aPath <*> value "mode" 4 (checked AccessMode.read))]

-- Asks about the program, or about the command that is named next.
def helpCommand : String := "help"

def commandNames : List String :=
  commands.map (·.1) ++ [helpCommand]

def common : Form CommonOptions :=
  CommonOptions.mk <$> value? "config" aPath <*> value? "elevation-cmd" aText
    <*> value? "helper" aPath <*> flag "debug" <*> flag "no-local" <*> logging

def usage : Usage CommonOptions where
  form     := common.helped.versioned
  letters  := exitLetters
  commands := commandNames

def commandUsage (form : Form Command) : Usage (Command × LogOptions) where
  form    := (Prod.mk <$> form <*> logging).helped
  letters := [('h', "help")]

def help : List String → UsageError
  | []     => .helpWanted
  | [name] => if commandNames.contains name then .helpWanted else .unknownCommand
  | _      => .unknownCommand

-- Names the configuration file where the command line does not.
def configVariable : String := "PRIVFS_CONFIG"

-- The options before the command, and whether there were any.
def finishCommon (env : Environment) (r : usage.Progress) :
    Except UsageError (CommonOptions × Bool) := do
  let r ← r.resolve
  let o ← usage.form.finish r.value
  match o.config?, env.lookup configVariable with
  | none, some path => return ({ o with config? := some (← aPath path) }, true)
  | _,    _         => return (o, !r.given.isEmpty)

def read (env : Environment) (words : List String) : Except UsageError CommandLine := do
  match ← usage.readOn words usage.start with
  | (r, none) =>
    let (_, given) ← finishCommon env r
    throw (if given then .missingCommand else .nothingGiven)
  | (r, some (name, words)) =>
    match commands.lookup name with
    | none      => throw (help words)
    | some form =>
      let (command, logging) ← (commandUsage form).read words
      let (o, _) ← finishCommon env r
      return { o with command, logging := logging.orElse o.logging }

end CommandLine

end FileBroker
