import FileBroker.Failure

namespace FileBroker

-- Text that does not report a failed operation is a failure of the conversation itself.
inductive ErrorText
  | errno (code : Errno.Code) (message : String)
  | protocol (text : String)
  deriving DecidableEq, Repr

namespace ErrorText

-- Numbers with a sign or a leading zero are read as numbers elsewhere, but `render` writes none.
def parse (text : String) : ErrorText :=
  let code := text.toList.takeWhile (· ≠ ' ')
  let rest := (text.toList.dropWhile (· ≠ ' ')).drop 1
  match Decimal.int32? code with
  | some n =>
    if 0 < n ∧ Decimal.render n.toInt = code then
      .errno n (if rest.isEmpty then Errno.describe n else String.ofList rest)
    else
      .protocol text
  | none => .protocol text

def render (code : Errno.Code) : String :=
  s!"{Decimal.text code.toInt} {Errno.describe code}"

-- A failure without a number counts as a general I/O error.
def ofIoError (e : IoError) : String :=
  render (e.code?.getD Errno.io)

end ErrorText

end FileBroker
