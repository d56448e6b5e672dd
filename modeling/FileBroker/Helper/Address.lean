import FileBroker.FileSystem.Path
import FileBroker.Helper.Serve

namespace FileBroker

-- What there is to connect to.
structure Listeners where
  files : List Ino := []
  names : List Bytes := []

namespace Address

-- How long an address may be, with the byte that ends it or marks it as a name.
def room : Nat := 108

def nameMark : UInt8 := 64

def tooLongPath : IoError := .other "path must be shorter than SUN_LEN"
def tooLongName : IoError := .other "abstract socket name must be shorter than SUN_LEN"
def nulInPath : IoError := .other "paths must not contain interior null bytes"

def connectName (l : Listeners) (name : Bytes) : Except IoError Unit :=
  if room ≤ name.length then .error tooLongName
  else if l.names.contains name then .ok ()
  else .error (.os Errno.connrefused)

def connectPath (fs : FileSystem) (l : Listeners) (path : Bytes) : Except IoError Unit :=
  if path.contains 0 then .error nulInPath
  else if room ≤ path.length then .error tooLongPath
  else if path.isEmpty then .error (.os Errno.inval)
  else
    match fs.resolve true none path with
    | .error e => .error (.os e)
    | .ok i    => if l.files.contains i then .ok () else .error (.os Errno.connrefused)

def connect (fs : FileSystem) (l : Listeners) (address : String) : Except HelperError Unit :=
  let bytes := Utf8.encode address
  let result :=
    if bytes.head? = some nameMark then connectName l bytes.tail else connectPath fs l bytes
  result.mapError (.connect address)

end Address

end FileBroker
