/-
# LogAlert.Settings.Config -- the settings of the service

Settings are a YAML mapping written over built-in defaults. `load` expands the variables of a text,
reads it, and merges it over the defaults. An empty text changes nothing.
-/
import LogAlert.Settings.Expansion
import LogAlert.Settings.Merge
import LogAlert.Text.Lines
import LogAlert.Yaml.Load

set_option autoImplicit false

namespace LogAlert.Settings

/-- A mapping with text keys. -/
def group (entries : List (String × Value)) : Value :=
  .map (entries.map fun (k, v) => (.text k, v))

/-- The settings that hold unless others are given. -/
def defaults : List (Value × Value) :=
  [(.text "database", group [("url", .text "sqlite:///./data/logward.db")]),
    (.text "redis", group
      [("host", .text "localhost"), ("port", .int 6379), ("db", .int 0), ("password", .null)]),
    (.text "detection", group [("case_sensitive", .bool false), ("rule_cache_ttl", .int 30)]),
    (.text "scheduler", group [("interval_seconds", .int 60), ("run_on_start", .bool true)]),
    (.text "alerting", group [("distributed_lock", .bool false), ("lock_timeout", .int 120)]),
    (.text "queues", group
      [("notifications", .text "alert-notifications"), ("detection", .text "sigma-detection"),
        ("max_attempts", .int 3), ("block_timeout", .int 5)]),
    (.text "notifications", group
      [("webhook_timeout", .int 10), ("max_retries", .int 3), ("retry_delay", .int 1),
        ("dedup_window", .int 3600), ("use_redis", .bool true),
        ("smtp", group
          [("host", .null), ("port", .int 587), ("user", .null), ("password", .null),
            ("from", .null), ("use_tls", .bool true)])]),
    (.text "logging", group [("level", .text "INFO"), ("file", .null)])]

/-- Why there are no settings. -/
inductive ConfigError where
  /-- There is no file at this path. -/
  | missing (path : String)
  /-- The file at this path is not read as YAML. -/
  | unreadable (path : String)
  /-- The file at this path holds no mapping. -/
  | noMapping (path : String)
  /-- A scalar cannot be read. -/
  | scalar (fault : Fault)
deriving DecidableEq, Repr

/-- The message for missing settings. -/
def ConfigError.message : ConfigError → String
  | .missing path => "Config file not found at " ++ path
  | .unreadable path => "Invalid YAML in " ++ path ++ ": malformed document"
  | .noMapping path => "Config file " ++ path ++ " must contain a mapping"
  | .scalar fault => fault.message

/-- The settings in the text of the file at a path; there is no text if there is no such file. -/
def load (environment : Environment) (path : String) (content : Option String) :
    Except ConfigError (List (Value × Value)) :=
  match content with
  | none => .error (.missing path)
  | some text =>
    match Yaml.load (expand environment (Text.unifyBreaks text)) with
    | .error .malformed => .error (.unreadable path)
    | .error (.scalar fault) => .error (.scalar fault)
    | .ok .null => .ok defaults
    | .ok (.map entries) => .ok (merge defaults entries)
    | .ok _ => .error (.noMapping path)

end LogAlert.Settings
