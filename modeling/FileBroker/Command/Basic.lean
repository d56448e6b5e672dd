import FileBroker.Log.Basic

namespace FileBroker

inductive Command
  | cat (path : String)
  | stat (path : String) (noFollow json : Bool)
  | mkdir (path : String) (mode : UInt32)
  | rm (path : String) (dir : Bool)
  | mv (source target : String)
  | ln (source target : String)
  | readlink (path : String)
  | access (path : String) (mode : Int32)
  deriving DecidableEq, Repr

structure CommonOptions where
  config?    : Option String := none
  elevation? : Option String := none
  helper?    : Option String := none
  debug      : Bool := false
  noLocal    : Bool := false
  logging    : LogOptions := {}
  deriving DecidableEq, Repr

structure CommandLine extends CommonOptions where
  command : Command
  deriving DecidableEq, Repr

-- The configuration from its sources, and over it what the command line says.
def CommonOptions.proxyConfig (o : CommonOptions) (read : Config.Files) (env : Environment) :
    Except ConfigError Config := do
  let c ← Config.load read o.config? env
  return { c with
    elevationCommand := o.elevation?.getD c.elevationCommand
    helperPath       := o.helper?.getD c.helperPath
    debug            := c.debug || o.debug }

end FileBroker
