namespace FileBroker.PathText

def isAbsolute (path : String) : Bool :=
  path.toList.head? = some '/'

-- An absolute path replaces what it is joined to.
def join (dir path : String) : String :=
  if isAbsolute path || dir.isEmpty then path
  else if dir.toList.getLast? = some '/' then dir ++ path
  else dir ++ "/" ++ path

-- Takes away separators at the end, and parts that stay where they are. `reversed` is back to
-- front.
def trimEnd : (reversed : List Char) → List Char
  | '/' :: '.' :: '/' :: rest => trimEnd ('/' :: rest)
  | ['/']                     => ['/']
  | '/' :: '.' :: []          => ['.']
  | '/' :: rest               => trimEnd rest
  | '.' :: '/' :: rest        => trimEnd ('/' :: rest)
  | path                      => path

-- The path without its last part; `none` if it has no part that could go.
def parent? (path : String) : Option String :=
  match trimEnd path.toList.reverse with
  | []    => none
  | ['/'] => none
  | rest  =>
    let above := rest.dropWhile (· ≠ '/')
    some (String.ofList (if above.isEmpty then [] else (trimEnd above).reverse))

end FileBroker.PathText
