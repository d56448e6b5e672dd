import FileBroker.Log.Basic
import FileBroker.Text.CharClass

namespace FileBroker

inductive Threshold
  | off
  | upTo (level : LogLevel)
  deriving DecidableEq, Repr

namespace Threshold

def name : Threshold → String
  | off        => "off"
  | upTo level => level.name

def numbered : List Threshold :=
  off :: LogLevel.all.map upTo

-- A level is given by name or by number.
def read? (text : List Char) : Option Threshold :=
  match (Decimal.nat? 64 text).bind (numbered[·]?) with
  | some t => some t
  | none   => numbered.find? (·.name = (String.ofList text).toLower)

end Threshold

-- A condition on a field of a message.
structure FieldMatch where
  name  : String
  value : Option String := none
  deriving DecidableEq, Repr

namespace FieldMatch

-- A value is shown as what it was taken for, the first of these that fits.
def valueText (text : List Char) : String :=
  match Decimal.nat? 64 text, Decimal.int64? text, Binary64.parse? text with
  | some n, _,      _      => Decimal.text n
  | none,   some n, _      => Decimal.text n.toInt
  | none,   none,   some x => String.ofList x.render
  | none,   none,   none   => String.ofList text

def read? (text : List Char) : Option FieldMatch :=
  if text.isEmpty then none else
  match text.splitOn '=' with
  | name :: value :: _ => some { name := String.ofList name, value := some (valueText value) }
  | _                  => some { name := String.ofList text }

def text (f : FieldMatch) : String :=
  match f.value with
  | some value => s!"{f.name}={value}"
  | none       => f.name

end FieldMatch

-- Of two directives for the same messages the later one counts.
structure Directive where
  target? : Option String := none
  span?   : Option String := none
  fields  : List FieldMatch := []
  level   : Threshold := .upTo .trace
  deriving DecidableEq, Repr

namespace Directive

def mayStart (c : Char) : Bool :=
  c.isAlphanum || c = '-' || c = ':' || c = '_' || 127 < c.toNat

def some? (text : List Char) : Option String :=
  if text.isEmpty then none else some (String.ofList text)

-- The level after an equals sign; without one everything is let through.
def levelOf? (text : List Char) : Option Threshold :=
  if text.isEmpty then some (.upTo .trace) else Threshold.read? text

-- What follows the target: perhaps a span with a field, and perhaps a level.
def readRest? (d : Directive) : List Char → Option Directive
  | '=' :: level => do return { d with level := ← levelOf? level }
  | '[' :: rest  => do
    let span := rest.takeWhile fun c => c ≠ ']' && c ≠ '\x7b'
    match rest.drop span.length with
    | ']' :: rest    => ending { d with span? := some (String.ofList span) } rest
    | '\x7b' :: rest =>
      let inside := rest.takeWhile (· ≠ '\x7d')
      let field ← FieldMatch.read? inside
      match rest.drop inside.length with
      | '\x7d' :: ']' :: rest => ending { d with span? := some? span, fields := [field] } rest
      | _                     => none
    | _ => none
  | _ => none
where
  ending (d : Directive) : List Char → Option Directive
    | '=' :: level => do return { d with level := ← levelOf? level }
    | rest         => if rest.all isBlank then some d else none

-- A word alone is a level if it can be one, and else a target of which everything is let through.
-- Blanks in front make it a target that nothing can follow.
def read? (text : List Char) : Option Directive :=
  match text, text.dropWhile isBlank with
  | _,        []     => none
  | '[' :: _, _      => readRest? {} text
  | first :: _, c :: _ =>
    if !mayStart c then none else
    let word := text.takeWhile fun c => c ≠ '=' && c ≠ '['
    match text.drop word.length with
    | [] =>
      match Threshold.read? word with
      | some level => some { level }
      | none       => some { target? := some (String.ofList word) }
    | rest =>
      if isBlank first then none
      else readRest? { target? := some (String.ofList word) } rest
  | [], _ => none

-- Whether the directive depends on where in the program a message comes from.
def isDynamic (d : Directive) : Bool :=
  d.span?.isSome || !d.fields.isEmpty

-- What of it can be decided without looking at values.
def static? (d : Directive) : Option Directive :=
  if d.span?.isSome || d.fields.any (·.value.isSome) then none else some d

def sameSelection (d e : Directive) : Bool :=
  d.target? = e.target? && d.span? = e.span? && d.fields = e.fields

def text (d : Directive) : String :=
  let fields := ",".intercalate (d.fields.map (·.text))
  let inner := d.span?.getD "" ++ (if d.fields.isEmpty then "" else "\x7b" ++ fields ++ "\x7d")
  let selection := d.target?.getD "" ++ (if d.isDynamic then s!"[{inner}]" else "")
  if d.target?.isNone && !d.isDynamic then d.level.name else s!"{selection}={d.level.name}"

end Directive

namespace LogFilter

-- Of the directives that select the same, only the last is kept.
def distinct : List Directive → List Directive
  | []      => []
  | d :: ds => if ds.any d.sameSelection then distinct ds else d :: distinct ds

-- The filter without any directive lets nothing through.
def ofDirectives (ds : List Directive) : List Directive :=
  let dynamic := ds.filter (·.isDynamic)
  let static := ds.filter (!·.isDynamic) ++ dynamic.filterMap (·.static?)
  if static.isEmpty && dynamic.isEmpty then [{ level := .off }]
  else distinct static ++ distinct dynamic

def read? (text : String) : Option (List Directive) :=
  if text.isEmpty then some (ofDirectives [])
  else (text.toList.splitOn ',').mapM Directive.read? |>.map ofDirectives

def variableNames : List String := ["PRIVFS_LOG", "RUST_LOG"]

def targets : List String := ["privfs_client", "privfs_proto", "privfs_helper"]

-- Warnings of everyone, and more of the component and of what it is made of. What is no directive
-- is left out.
def usual (component : String) (level : LogLevel) : List Directive :=
  let target := component.map fun c => if c = '-' then '_' else c
  let ours := target :: targets.filter (· ≠ target)
  let texts := "warn" :: ours.map fun target => s!"{target}={level.title}"
  ofDirectives <|
    ((texts.flatMap (·.toList.splitOn ',')).filter (!·.isEmpty)).filterMap Directive.read?

def ofEnvironment (env : Environment) (component : String) (level : LogLevel) : List Directive :=
  match variableNames.findSome? fun name => (env.lookup name).bind read? with
  | some filter => filter
  | none        => usual component level

end LogFilter

end FileBroker
