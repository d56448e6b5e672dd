import FileBroker.Json.Basic

namespace FileBroker

structure Config where
  -- The program that runs a command line with more privilege.
  elevationCommand : String := "su"
  helperPath       : String := "privfs-helper"
  -- How long a request may wait to be accepted.
  primaryTimeout   : UInt64 := 20000
  -- How long a reply may take.
  secondaryTimeout : UInt64 := 2500
  handshakeTimeout : UInt64 := 15000
  -- Only a helper of this user is accepted.
  expectedUid      : UInt32 := 0
  debug            : Bool := false
  deriving DecidableEq, Repr

def Config.json (c : Config) : Json :=
  .object [
    ("elevation-command", .text c.elevationCommand),
    ("helper-path", .text c.helperPath),
    ("primary-timeout-ms", .integer c.primaryTimeout.toNat),
    ("secondary-timeout-ms", .integer c.secondaryTimeout.toNat),
    ("handshake-timeout-ms", .integer c.handshakeTimeout.toNat),
    ("expected-uid", .integer c.expectedUid.toNat),
    ("debug", .boolean c.debug)]

structure Duration where
  seconds     : UInt64
  nanoseconds : UInt32
  deriving DecidableEq, Repr

-- Parts of a millisecond are dropped, and so is what 64 bits cannot hold.
def Duration.milliseconds (d : Duration) : UInt64 :=
  UInt64.ofNat ((d.seconds.toNat * 1000000000 + d.nanoseconds.toNat) / 1000000)

end FileBroker
