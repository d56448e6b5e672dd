namespace FileBroker.Shell

-- How a character of a word was protected.
inductive Quoting
  | bare | escaped | single | double
  deriving DecidableEq, Repr

abbrev Word := List (Char × Quoting)

def Word.text (w : Word) : String :=
  String.ofList (w.map (·.1))

inductive Token
  | word (w : Word)
  -- The end of a command.
  | stop
  deriving DecidableEq, Repr

-- A word in single quotes. A single quote inside leaves them and comes back.
def quote (text : String) : String :=
  String.ofList ('\'' :: text.toList.flatMap inside ++ ['\''])
where
  inside (c : Char) : List Char :=
    if c = '\'' then ['\'', '\\', '\'', '\''] else [c]

def isBlank (c : Char) : Bool :=
  c = ' ' || c = '\t'

def isStop (c : Char) : Bool :=
  c = '\n' || c = ';'

-- What a backslash protects between double quotes.
def isSpecial (c : Char) : Bool :=
  c = '$' || c = '\x60' || c = '"' || c = '\\'

-- The word that has been begun, if there is one.
def begun : Option Word → List Token
  | some w => [.word w]
  | none   => []

def extend (w : Option Word) (c : Char) (q : Quoting) : Option Word :=
  some (w.getD [] ++ [(c, q)])

-- Goes on from inside `q` with the word `w`. Quotes that are never closed make no command line.
def split : (q : Quoting) → (w : Option Word) → List Char → Option (List Token)
  | .single, _, [] => none
  | .single, w, c :: rest =>
    if c = '\'' then split .bare w rest else split .single (extend w c .single) rest
  | .double, _, [] => none
  | .double, w, ['\\'] => split .double (extend w '\\' .double) []
  | .double, w, '\\' :: c :: rest =>
    if c = '\n' then split .double w rest
    else if isSpecial c then split .double (extend w c .escaped) rest
    else split .double (extend (extend w '\\' .double) c .double) rest
  | .double, w, c :: rest =>
    if c = '"' then split .bare w rest else split .double (extend w c .double) rest
  | .escaped, w, [] => some (begun (extend w '\\' .bare))
  | .escaped, w, c :: rest =>
    if c = '\n' then split .bare w rest else split .bare (extend w c .escaped) rest
  | .bare, w, [] => some (begun w)
  | .bare, w, c :: rest =>
    if isBlank c then (begun w ++ ·) <$> split .bare none rest
    else if isStop c then (begun w ++ .stop :: ·) <$> split .bare none rest
    else if c = '\'' then split .single (some (w.getD [])) rest
    else if c = '"' then split .double (some (w.getD [])) rest
    else if c = '\\' then split .escaped w rest
    else split .bare (extend w c .bare) rest

def tokens (line : String) : Option (List Token) :=
  split .bare none line.toList

-- The line that starts a helper and tells it where to connect.
def helperLine (path address : String) : String :=
  s!"{quote path} {quote address}"

end FileBroker.Shell
