import FileBroker.Binary64

namespace FileBroker.Toml

inductive Value
  | text (s : String)
  | integer (n : Int64)
  | float (x : Binary64)
  | boolean (b : Bool)
  -- A date, a time or both, in canonical form.
  | moment (s : String)
  | array
  | table

-- How a table came about decides what may be added to it later.
inductive Origin
  -- Opened by a header of its own.
  | header
  -- Only named on the way to something below it.
  | implied
  | dotted
  deriving DecidableEq, Repr

inductive Entry
  | value (v : Value)
  | table (origin : Origin) (entries : List (String × Entry))
  -- The last table is the one that is being filled.
  | tables (last : List (String × Entry))

abbrev Entries := List (String × Entry)

-- The entry of that name, or a new one, is replaced by what `f` makes of it.
def Entries.change (name : String) (f : Option Entry → Option Entry) : Entries → Option Entries
  | []               => (f none).map fun e => [(name, e)]
  | (key, e) :: rest =>
    if key = name then (f (some e)).map fun e => (key, e) :: rest
    else (Entries.change name f rest).map ((key, e) :: ·)

-- Goes down a path of tables and changes the last of them. By a dotted key only tables can be
-- reached that no header has opened.
def Entries.descend (dotted : Bool) (f : Origin → Entries → Option Entries) :
    List String → Origin → Entries → Option Entries
  | [],           origin, entries => f origin entries
  | name :: path, _,      entries =>
    entries.change name fun
      | none =>
        let origin := if dotted then .dotted else .implied
        (descend dotted f path origin []).map (.table origin)
      | some (.value _)     => none
      | some (.tables last) => (descend dotted f path .header last).map .tables
      | some (.table origin entries) =>
        if dotted && origin = .header then none
        else (descend dotted f path origin entries).map (.table origin)

-- Adds a value under a key. A key with dots may only lead into tables that dotted keys have made,
-- and one without only stands in a table that none has.
def Entries.insert (entries : Entries) (path : List String) (name : String) (v : Value) :
    Option Entries :=
  entries.descend true (fun origin entries =>
    if (origin == .dotted) == path.isEmpty then none
    else entries.change name fun
      | none   => some (.value v)
      | some _ => none) path .header

-- A header opens a table that is not there yet or was only implied.
def Entries.openTable (entries : Entries) (path : List String) (name : String) : Option Entries :=
  entries.descend false (fun _ entries =>
    entries.change name fun
      | none                           => some (.table .header [])
      | some (.table .implied entries) => some (.table .header entries)
      | some _                         => none) path .header

-- A header in double brackets starts one more table of a list.
def Entries.openNext (entries : Entries) (path : List String) (name : String) : Option Entries :=
  entries.descend false (fun _ entries =>
    entries.change name fun
      | none | some (.tables _) => some (.tables [])
      | some _                  => none) path .header

-- Adds a value below the table that the last header has opened.
def Entries.insertBelow (entries : Entries) (opened : List String) (path : List String)
    (name : String) (v : Value) : Option Entries :=
  entries.descend false (fun _ entries => entries.insert path name v) opened .header

def Entry.toValue : Entry → Value
  | value v   => v
  | table ..  => .table
  | tables .. => .array

end FileBroker.Toml
