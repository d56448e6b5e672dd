import FileBroker.Json.Read
import FileBroker.Log.Basic

namespace FileBroker.LogOptions

def fieldNames : List String := ["log-level", "log-format", "log-dir", "log-file"]

def json (o : LogOptions) : Json :=
  let values : List (Option Json) := [o.level?.map (.text ·.name), o.format?.map (.text ·.name),
    o.dir?.map .text, o.file?.map .text]
  .object ((fieldNames.zip values).filterMap fun (key, value) => value.map ((key, ·)))

-- A field that may be missing or `null`. Anything else there has to be right.
def optional (read : JsonValue → Option α) : Option JsonValue → Option (Option α)
  | none | some .null => some none
  | some v            => (read v).map some

def ofJson? (v : JsonValue) : Option LogOptions := do
  match ← v.known? fieldNames with
  | [level, format, dir, file] =>
    return {
      level?  := ← optional (fun v => v.toName?.bind LogLevel.ofName?) level
      format? := ← optional (fun v => v.toName?.bind LogFormat.ofName?) format
      dir?    := ← optional JsonValue.toText? dir
      file?   := ← optional JsonValue.toText? file }
  | _ => none

end FileBroker.LogOptions
