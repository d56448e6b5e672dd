import FileBroker.FileSystem.Tree

namespace FileBroker

inductive Change
  | makeDir (path : Bytes)
  | write (path content : Bytes)
  | removeDir (path : Bytes)
  | remove (path : Bytes)
  deriving DecidableEq, Repr

namespace Listed

-- How an entry comes to be as it is, if there was `old` in its place.
def arrival (old : Option Listed) (e : Listed) : Option Change :=
  match e.inode.content with
  | .directory ..    => if old.isSome then none else some (.makeDir e.path)
  | .regular content =>
    if old.any (·.inode.content = e.inode.content) then none else some (.write e.path content)
  | _                => none

def departure (e : Listed) : Change :=
  match e.inode.content with
  | .directory .. => .removeDir e.path
  | _             => .remove e.path

end Listed

-- Both listings are sorted, so that a directory is made before what is in it and removed after
-- that.
def changes (before after : List Listed) : List Change :=
  let gone := before.filter fun e => !after.any (·.path = e.path)
  after.filterMap (fun e => e.arrival (before.find? (·.path = e.path))) ++
    gone.reverse.map (·.departure)

end FileBroker
