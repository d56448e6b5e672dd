namespace FileBroker

inductive ReplyShape
  | status
  | statusWithDescriptor
  | statusWithText
  | snapshot
  | watchId
  deriving DecidableEq, Repr

inductive Operation
  | openFile | create | makeDir | unlink | makeNode | readLink | rename | link | access | stat
  | addWatch | init | cleanup
  deriving DecidableEq, Repr

namespace Operation

def all : List Operation :=
  [openFile, create, makeDir, unlink, makeNode, readLink, rename, link, access, stat, addWatch,
    init, cleanup]

-- Operations are numbered from one.
def ordinal (o : Operation) : Nat :=
  o.ctorIdx + 1

def keyword : Operation → String
  | openFile => "OPEN"
  | create   => "CREAT"
  | makeDir  => "MKDIR"
  | unlink   => "UNLINK"
  | makeNode => "MKNOD"
  | readLink => "READLINK"
  | rename   => "RENAME"
  | link     => "LINK"
  | access   => "FACCESS"
  | stat     => "FSTAT"
  | addWatch => "ADDWATCH"
  | init     => "INIT"
  | cleanup  => "CLEANUP"

def ofKeyword? (s : String) : Option Operation :=
  all.find? (·.keyword = s)

def slots : Operation → Nat
  | create | init | cleanup  => 0
  | rename | link | addWatch => 2
  | _                        => 1

def args : Operation → Nat
  | makeNode => 2
  | readLink => 0
  | _        => 1

def paths : Operation → Nat
  | init | cleanup => 0
  | rename | link  => 2
  | _              => 1

def reply : Operation → ReplyShape
  | openFile | create | init => .statusWithDescriptor
  | readLink                 => .statusWithText
  | stat                     => .snapshot
  | addWatch                 => .watchId
  | _                        => .status

theorem keyword_inj {o p : Operation} (h : o.keyword = p.keyword) : o = p := by
  cases o <;> cases p <;> first | rfl | exact absurd h (by decide)

end Operation

end FileBroker
