import FileBroker.Proxy.Error
import FileBroker.Text.CharClass

namespace FileBroker.Greeting

def mark : String := "PID:"

def announce (pid : UInt32) : Bytes :=
  Utf8.encode s!"{mark}{Decimal.text pid.toNat}\n" ++ [0]

-- The digits after the mark that the text begins with, if it does and there are any.
def runAtStart (text : List Char) : Option (List Char) :=
  if mark.toList.isPrefixOf text then
    let run := (text.drop mark.length).takeWhile isScriptDigit
    if run.isEmpty then none else some run
  else none

-- What is printed by the programs that start a helper stands before its greeting, so the last mark counts.
def lastRun : List Char → Option (List Char)
  | []        => none
  | c :: text => (lastRun text).or (runAtStart (c :: text))

-- The digits may be of any script, but only ASCII digits make a number.
def helperPid (text : String) : Except StartupFailure UInt32 :=
  match (lastRun text.toList).bind (Decimal.nat? 32) with
  | some pid => .ok (UInt32.ofNat pid)
  | none     => .error .noHelperPid

end FileBroker.Greeting
