/-
# LogAlert.Settings.Expansion -- variables in settings

A settings text may refer to variables of the environment by a name between braces behind a dollar
sign. A reference stands for the value of the variable, and for nothing if there is no such
variable. Values are not searched for references again.
-/

set_option autoImplicit false

namespace LogAlert.Settings

/-- Variables by name. -/
abbrev Environment := List (String × String)

/-- The name in front of the next closing brace, and the characters behind it. -/
def splitName? (chars : List Char) : Option (List Char × List Char) :=
  match chars.span (· ≠ '\x7d') with
  | (c :: name, _ :: rest) => some (c :: name, rest)
  | _ => none

/-- The characters with each reference replaced. The first argument is the number of characters that
belong to a reference and are passed over. -/
def expandFrom (environment : Environment) : Nat → List Char → List Char
  | _, [] => []
  | skip + 1, _ :: rest => expandFrom environment skip rest
  | 0, c :: rest =>
    match c, rest with
    | '$', '\x7b' :: body =>
      match splitName? body with
      | some (name, _) =>
        ((environment.lookup (String.ofList name)).getD "").toList ++
          expandFrom environment (name.length + 2) rest
      | none => c :: expandFrom environment 0 rest
    | _, _ => c :: expandFrom environment 0 rest

/-- The text with each reference replaced. -/
def expand (environment : Environment) (text : String) : String :=
  String.ofList (expandFrom environment 0 text.toList)

/-- The names in a text that can be those of variables. -/
def references : List Char → List String
  | [] => []
  | c :: rest =>
    let here : Option String :=
      match c, rest with
      | '$', '\x7b' :: body => (splitName? body).map fun found => String.ofList found.1
      | _, _ => none
    here.toList ++ references rest

end LogAlert.Settings
