/-
# LogAlert.Log.Entry -- log entries

A log entry is one message of a service at a point of time. Entries are read from mappings with a
few known keys (`LogEntry.ofValue`); all other keys are kept as they are. An entry without a time
gets the present time, and one whose clock has no offset is taken to show universal time. Metadata
are nested, and their leaves are named by the keys above them; an entry is refused if one of these keys
cannot be shown. No key of JSON data is refused, since these are texts.
`LogEntry.toValue` is the mapping that an entry is sent as.
-/
import LogAlert.Time.Stamp
import LogAlert.Time.Iso

set_option autoImplicit false

namespace LogAlert

/-- One message of a service. -/
structure LogEntry where
  time : Time.DateTime
  service : String
  level : String
  message : String
  /-- Data of any shape that came with the message. -/
  metadata : List (Value × Value)
  traceId : Value
  projectId : Value
  id : Value
  /-- The entries under other keys. -/
  extra : List (String × Value)
deriving BEq, Inhabited, Repr

namespace LogEntry

/-- The keys that an entry is read from. -/
def knownKeys : List String :=
  ["time", "service", "level", "message", "metadata", "trace_id", "project_id", "id"]

/-- The text with a letter Z at its end, for universal time, written as an offset. -/
def zuluAsOffset (text : String) : String :=
  match text.toList.reverse with
  | 'Z' :: rest => String.ofList rest.reverse ++ "+00:00"
  | _ => text

/-- Read a time from a text. -/
def timeOfText (text : String) : Except Fault Time.DateTime :=
  match Time.Iso.read text with
  | .ok t => .ok t.orUniversal
  | .error .malformed => .error (.noTime (Text.quoted text))
  | .error (.field e) => .error (.timeField e)

/-- The time that a value stands for; values that stand for none are taken for the present. -/
def timeOf (now : Time.Instant) : Value → Except Fault Time.DateTime
  | .time t => .ok t.orUniversal
  | .bool b => Time.ofSeconds (if b then 1 else 0) 0
  | .int n => Time.ofSeconds n 0
  | .float x => Time.ofStamp x
  | .text s =>
    let text := Text.trim s
    if text = "" then .ok now.dateTime else timeOfText (zuluAsOffset text)
  | _ => .ok now.dateTime

/-- The entries of a mapping under other keys than the known ones. -/
def extraOf (entries : List (Value × Value)) : List (String × Value) :=
  entries.filterMap fun (k, v) =>
    k.text?.bind fun k => if k ∈ knownKeys then none else some (k, v)

mutual

/-- The leaves of a value can be named: the keys above them can be shown. -/
def nameable : Value → Bool
  | .map entries => nameableBelow entries
  | _ => true

@[inherit_doc nameable]
def nameableBelow : List (Value × Value) → Bool
  | [] => true
  | (k, v) :: rest => !k.overlong && nameable v && nameableBelow rest

end

/-- Read an entry. -/
def ofValue (now : Time.Instant) (data : Value) : Except Fault LogEntry := do
  let metadata := (← data.getOf "metadata").entries?.getD []
  let time ← timeOf now (← data.getOf "time")
  let service ← (← data.getOf "service").coerce
  let level ← (← data.getOf "level").coerce
  let message ← (← data.getOf "message").coerce
  if nameableBelow metadata then
    return ⟨time, service, level, message, metadata, ← data.getOf "trace_id",
      ← data.getOf "project_id", ← data.getOf "id", extraOf (data.entries?.getD [])⟩
  else throw .overlongInteger

/-- An entry of a mapping, unless the value is null. -/
def optionalEntry (key : String) (value : Value) : List (String × Value) :=
  if value.isNull then [] else [(key, value)]

/-- The identifiers that are present, by name. -/
def identifiers (entry : LogEntry) : List (String × Value) :=
  optionalEntry "trace_id" entry.traceId ++ optionalEntry "project_id" entry.projectId ++
    optionalEntry "id" entry.id

/-- The mapping that an entry is sent as. -/
def toValue (entry : LogEntry) : Value :=
  let known : List (String × Value) :=
    [("time", .text entry.time.text), ("service", .text entry.service),
      ("level", .text entry.level), ("message", .text entry.message),
      ("metadata", .map entry.metadata)] ++ entry.identifiers
  .map (known.foldl (fun entries (k, v) => Value.insertIn entries (.text k) v)
    (entry.extra.map fun (k, v) => (.text k, v)))

end LogEntry

end LogAlert
