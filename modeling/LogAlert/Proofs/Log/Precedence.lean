/-
# LogAlert.Proofs.Log.Precedence -- which value a field has

The fields of a log entry come from three places: from the entry itself, from its other keys, and
from the leaves of its metadata, which are written twice.  Names can meet: keys may have points in
them, may begin with `metadata.`, and may be those of the entry itself.  Which value a field then has
is said here without any writing (`LogEntry.fieldOf`): leaves are listed with the keys that lead to
them (`LogEntry.trails`), and of several values under one name the last one counts (`lastUnder`).

Main statement: `fields_precedence`.
-/
import LogAlert.Log.Fields
import LogAlert.Proofs.Value.Entries

set_option autoImplicit false

namespace LogAlert

/-! ## Writing fields -/

namespace Fields

variable {fields : Fields}

theorem put_eq_overwrite (fields : Fields) (name : String) (value : Value) :
    fields.put name value = overwrite Prod.fst (name, value) fields := by
  induction fields with
  | nil => rfl
  | cons first rest ih =>
      rw [put, overwrite, ih]
      split
      · rename_i same
        rw [same]
      · rfl

theorem putAll_eq (fields : Fields) (others : List (String × Value)) : fields.putAll others =
    others.foldl (fun fields part => overwrite Prod.fst part fields) fields := by
  simp only [putAll, put_eq_overwrite]

theorem lookup_putAll (fields : Fields) (others : List (String × Value)) (name : String) :
    (fields.putAll others).lookup name = (lastUnder others name).or (fields.lookup name) := by
  rw [putAll_eq, lookup_foldl_overwrite]

/-- A field that is present stays what it is. -/
theorem lookup_putNew (fields : Fields) (part : String × Value) (name : String) :
    (fields.putNew part.1 part.2).lookup name =
      (fields.lookup name).or (if name = part.1 then some part.2 else none) := by
  rw [putNew, put_eq_overwrite]
  split
  · rename_i present
    by_cases same : name = part.1
    · obtain ⟨value, found⟩ := Option.isSome_iff_exists.1 (same ▸ present)
      rw [found, Option.some_or]
    · rw [if_neg same, Option.or_none]
  · rename_i absent
    rw [lookup_overwrite]
    split
    · rename_i same
      rw [same, Option.not_isSome_iff_eq_none.1 absent, Option.none_or]
    · rw [Option.or_none]

/-- Of the fields that are written unless they are present, the first of a name counts. -/
theorem lookup_foldl_putNew (fields : Fields) (others : List (String × Value)) (name : String) :
    (others.foldl (fun fields (n, v) => fields.putNew n v) fields).lookup name =
      (fields.lookup name).or (others.lookup name) := by
  induction others generalizing fields with
  | nil => exact (Option.or_none).symm
  | cons part rest ih =>
      rw [List.foldl_cons, ih, lookup_putNew, lookup_cons_eq, Option.or_assoc]
      split <;> rfl

/-- A name occurs once. -/
def Distinct (fields : Fields) : Prop := (fields.map Prod.fst).Nodup

theorem Distinct.putAll (distinct : fields.Distinct) (others : List (String × Value)) :
    (fields.putAll others).Distinct := by
  rw [putAll_eq]
  exact List.foldlRecOn (motive := Distinct) others _ distinct fun _ once part _ =>
    nodup_overwrite once part

theorem Distinct.putNew (distinct : fields.Distinct) (name : String) (value : Value) :
    (fields.putNew name value).Distinct := by
  rw [Fields.putNew, put_eq_overwrite]
  split
  · exact distinct
  · exact nodup_overwrite distinct _

end Fields

/-! ## Leaves and their trails -/

namespace LogEntry

mutual

/-- The leaves of a value, from left to right, each behind the keys that lead to it. -/
def trailsOf : Value → List (List String × Value)
  | .map entries => trailsIn entries
  | v => [([], v)]

@[inherit_doc trailsOf]
def trailsIn : List (Value × Value) → List (List String × Value)
  | [] => []
  | (k, v) :: rest =>
    (trailsOf v).map (fun (keys, leaf) => (k.shown :: keys, leaf)) ++ trailsIn rest

end

/-- The leaves of the metadata, each behind its keys. -/
def trails (entry : LogEntry) : List (List String × Value) := trailsIn entry.metadata

/-- The keys with points between them; empty keys in front add nothing. -/
def path (keys : List String) : String := ".".intercalate (keys.dropWhile (· = ""))

/-- A point and a key are added to what is there. -/
theorem foldl_pathTo_of_ne (keys : List String) {front : String} (nonempty : front ≠ "") :
    keys.foldl pathTo front = ".".intercalate (front :: keys) := by
  induction keys generalizing front with
  | nil => rfl
  | cons key rest ih =>
      have longer : front ++ "." ++ key ≠ "" := by simp [nonempty]
      rw [List.foldl_cons, pathTo, if_neg nonempty, ih longer]
      rfl

theorem foldl_pathTo (keys : List String) : keys.foldl pathTo "" = path keys := by
  induction keys with
  | nil => rfl
  | cons key rest ih =>
      rw [List.foldl_cons, pathTo, if_pos rfl]
      by_cases none : key = ""
      · rw [none, ih]
        rfl
      · rw [foldl_pathTo_of_ne rest none, path, List.dropWhile_cons_of_neg (by simpa using none)]

mutual

theorem leavesAt_eq (front : String) : (v : Value) →
    leavesAt front v = (trailsOf v).map fun (keys, leaf) => (keys.foldl pathTo front, leaf.dated)
  | .map entries => leavesBelow_eq front entries
  | .null | .bool _ | .int _ | .float _ | .text _ | .bytes _ | .date _ | .time _ | .list _
  | .pair _ _ | .set _ => rfl

theorem leavesBelow_eq (front : String) : (entries : List (Value × Value)) →
    leavesBelow front entries =
      (trailsIn entries).map fun (keys, leaf) => (keys.foldl pathTo front, leaf.dated)
  | [] => rfl
  | (k, v) :: rest => by
      rw [leavesBelow, trailsIn, leavesAt_eq _ v, leavesBelow_eq front rest, List.map_append,
        List.map_map]
      rfl

end

theorem leaves_eq (entry : LogEntry) :
    entry.leaves = entry.trails.map fun (keys, leaf) => (path keys, leaf.dated) := by
  simp only [leaves, trails, leavesBelow_eq, foldl_pathTo]

/-! ## Precedence -/

/-- What the entry itself has under a name.  Missing identifiers are no fields. -/
def coreField (entry : LogEntry) : String → Option Value
  | "time" => some (.text entry.time.text)
  | "service" => some (.text entry.service)
  | "level" => some (.text entry.level)
  | "message" => some (.text entry.message)
  | "trace_id" => if entry.traceId.isNull then none else some entry.traceId
  | "project_id" => if entry.projectId.isNull then none else some entry.projectId
  | "id" => if entry.id.isNull then none else some entry.id
  | _ => none

/-- The value under another key, if it is neither a list nor a mapping, with dates as texts. -/
def extraField (entry : LogEntry) (name : String) : Option Value :=
  (lastUnder (entry.extra.filter fun part => isScalarField part.2) name).map Value.dated

/-- The last leaf whose path gives the name in this way, with dates as texts. -/
def leafField (entry : LogEntry) (naming : String → String) (name : String) : Option Value :=
  (lastUnder (entry.trails.map fun (keys, leaf) => (naming (path keys), leaf)) name).map Value.dated

/-- The value of a field: the first of these four that there is. -/
def fieldOf (entry : LogEntry) (name : String) : Option Value :=
  (entry.leafField ("metadata." ++ ·) name).or <| (entry.coreField name).or <|
    (entry.extraField name).or <| entry.leafField (fun path => path) name

theorem lastUnder_optionalEntry (key : String) (value : Value) (name : String) :
    lastUnder (optionalEntry key value) name =
      if name = key then (if value.isNull then none else some value) else none := by
  unfold optionalEntry
  cases value.isNull with
  | false => exact lookup_cons_eq (key, value) [] name
  | true => exact (ite_self none).symm

/-- The entry has each of its own fields once. -/
theorem lastUnder_core (entry : LogEntry) (name : String) :
    lastUnder entry.core name = entry.coreField name := by
  unfold coreField
  split <;> simp_all [core, identifiers, lastUnder_append, lastUnder_cons, lastUnder_optionalEntry]

theorem lastUnder_extraFields (entry : LogEntry) (name : String) :
    lastUnder entry.extraFields name = entry.extraField name :=
  lastUnder_map_values Value.dated _ name

theorem lastUnder_leaves (entry : LogEntry) (naming : String → String) (name : String) :
    lastUnder (entry.leaves.map fun (p, v) => (naming p, v)) name = entry.leafField naming name := by
  rw [leafField, ← lastUnder_map_values, leaves_eq, List.map_map, List.map_map]
  rfl

/-- The leaves are collapsed first, and then get another name for each path. -/
theorem lastUnder_nested (entry : LogEntry) {naming : String → String}
    (different : Function.Injective naming) (name : String) :
    lastUnder ((Fields.putAll [] entry.leaves).map fun (p, v) => (naming p, v)) name =
      entry.leafField naming name := by
  have renamed : collapse Prod.fst (entry.leaves.map fun (p, v) => (naming p, v)) =
      (collapse Prod.fst entry.leaves).map fun (p, v) => (naming p, v) :=
    @collapse_map _ Prod.fst _ Prod.fst _ (fun _ _ => different.eq_iff) entry.leaves
  rw [Fields.putAll_eq, ← collapse, ← renamed, lastUnder_collapse, lastUnder_leaves]

theorem lookup_nested (entry : LogEntry) (name : String) :
    (Fields.putAll [] entry.leaves).lookup name = entry.leafField (fun path => path) name := by
  rw [Fields.lookup_putAll, List.lookup_nil, Option.or_none, ← lastUnder_leaves, List.map_id']

theorem lookup_fields (entry : LogEntry) (name : String) :
    entry.fields.lookup name = entry.fieldOf name := by
  have different : Function.Injective ("metadata." ++ ·) := fun _ _ => (String.append_right_inj _).1
  rw [fields, Fields.lookup_foldl_putNew, Fields.lookup_putAll, Fields.lookup_putAll,
    Fields.lookup_putAll, List.lookup_nil, Option.or_none, lastUnder_nested entry different,
    lookup_nested, lastUnder_core, lastUnder_extraFields, fieldOf, Option.or_assoc, Option.or_assoc]

theorem distinct_fields (entry : LogEntry) : entry.fields.Distinct := by
  have none : Fields.Distinct [] := List.nodup_nil
  have own := (none.putAll entry.extraFields).putAll entry.core
  exact List.foldlRecOn (motive := Fields.Distinct) _ _ (own.putAll _) fun _ once part _ =>
    once.putNew part.1 part.2

/-- **One precedence for all fields.**  Whatever the keys of a log are, the value of a field is the
last leaf of the metadata whose path, behind `metadata.`, is the name of the field; or else what the
entry itself has under the name; or else the single value under another key; or else the last leaf of
the metadata whose path is the name; and otherwise there is no such field.  No field is there
twice. -/
theorem fields_precedence (entry : LogEntry) :
    (∀ name, entry.fields.lookup name =
      (entry.leafField ("metadata." ++ ·) name).or ((entry.coreField name).or
        ((entry.extraField name).or (entry.leafField (fun path => path) name)))) ∧
      entry.fields.Distinct :=
  ⟨entry.lookup_fields, entry.distinct_fields⟩

-- a path that is written in two ways, and a leaf with the name of a field of the entry itself
example :
    let metadata := [(Value.text "a", Value.map [(.text "b", .int 1)]), (.text "a.b", .int 2),
      (.text "service", .text "other")]
    let entry : LogEntry := { (default : LogEntry) with service := "web", metadata }
    ["a.b", "service", "metadata.service"].map (fun name => entry.fields.lookup name) =
      [some (.int 2), some (.text "web"), some (.text "other")] :=
  rfl

end LogEntry

end LogAlert
