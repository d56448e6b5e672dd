import FileBroker.Errno
import FileBroker.Operation
import FileBroker.Text.Decimal
import FileBroker.Text.Quoted
import FileBroker.Text.Utf8

namespace FileBroker

-- What was being read when the stream ended.
inductive Unfinished
  | delimited | token | fixed | record
  deriving DecidableEq, Repr

def Unfinished.text : Unfinished → String
  | delimited => "a delimited field"
  | token     => "a field"
  | fixed     => "a fixed-size field"
  | record    => "a binary record"

inductive IoError
  | os (code : Errno.Code)
  | closedDuring (what : Unfinished)
  | closedBeforeDescriptor
  | bareDescriptor
  | nulInName
  | other (text : String)
  deriving DecidableEq, Repr

namespace IoError

abbrev wouldBlock : IoError := .os Errno.again
abbrev brokenPipe : IoError := .os Errno.pipe
abbrev reset      : IoError := .os Errno.connreset

def message : IoError → String
  | os code                => s!"{Errno.systemText code} (os error {Decimal.text code.toInt})"
  | closedDuring what      => s!"control channel closed while reading {what.text}"
  | closedBeforeDescriptor => "peer closed the socket before sending a descriptor"
  | bareDescriptor         => "descriptor must travel with at least one data byte"
  | nulInName              => "file name contained an unexpected NUL byte"
  | other text             => text

def kind : IoError → Errno.Kind
  | os code                => Errno.kind code
  | closedDuring _         => .unexpectedEnd
  | closedBeforeDescriptor => .unexpectedEnd
  | bareDescriptor         => .invalidInput
  | nulInName              => .invalidInput
  | other _                => .other

def code? : IoError → Option Errno.Code
  | os code => some code
  | _       => none

end IoError

-- Why a record is none. The causes are in the order in which a reader meets them.
inductive Malformed
  | keywordNotText
  | unknownOperation (keyword : String)
  | layout (operation : Operation)
  | notDecimal (field : String) (token : Bytes)
  | announces (operation : Operation) (count : Int32)
  | negativeLength (length : Int32)
  | stray (count : Nat) (operation : Operation)
  | other (text : String)
  deriving DecidableEq, Repr

def Malformed.text : Malformed → String
  | keywordNotText           => "operation keyword is not UTF-8"
  | unknownOperation keyword => s!"unknown operation {Quoted.text keyword}"
  | layout operation         => s!"{operation.keyword} record has an unexpected field layout"
  | notDecimal field token   =>
    s!"{field} is not a decimal number: {Quoted.text (Utf8.decodeLossy token)}"
  | announces operation n    => s!"{operation.keyword} announces {Decimal.text n.toInt} descriptors"
  | negativeLength n         => s!"negative path length {Decimal.text n.toInt}"
  | stray n operation        => s!"{n} stray bytes after {operation.keyword} paths"
  | other text               => text

inductive FrameError
  | overflow (field : String) (value : Int)
  | malformed (cause : Malformed)
  | io (error : IoError)
  deriving DecidableEq, Repr

namespace FrameError

def message : FrameError → String
  | overflow field value =>
    s!"{field} value {Decimal.text value} does not fit in a signed 32-bit field"
  | malformed cause => s!"malformed frame: {cause.text}"
  | io error        => s!"I/O error: {error.message}"

def isIo : FrameError → Bool
  | io _ => true
  | _    => false

end FrameError

end FileBroker
