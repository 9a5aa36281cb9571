/-
# LogAlert.Proofs.Yaml.Keys -- mappings in documents

A key of a mapping may be written several times in a document.  In the value of the document each key
occurs once, and so it is in all mappings behind keys (`load_oneOfEachKey`): mappings are made entry
by entry, and an entry takes the place of an earlier one with the same key.
-/
import LogAlert.Proofs.Value.Keys
import LogAlert.Proofs.Yaml.Floats

set_option autoImplicit false

namespace LogAlert

namespace Value

/-- If the value is a mapping, then no key occurs twice, in it and in the mappings behind its
keys. -/
def OneOfEachKey (v : Value) : Prop := ∀ entries, v = .map entries → WellKeyed (fun _ => True) entries

theorem oneOfEachKey_map {entries : List Entry} (apart : Apart entries)
    (each : ∀ entry ∈ entries, entry.2.OneOfEachKey) : (Value.map entries).OneOfEachKey := by
  rintro _ ⟨⟩
  exact .intro (fun _ _ => trivial) apart each

theorem apart_foldl_insertIn {done : List Entry} (apart : Apart done) (pairs : List Entry) :
    Apart (pairs.foldl (fun done (k, v) => insertIn done k v) done) := by
  induction pairs generalizing done with
  | nil => exact apart
  | cons pair pairs ih => exact ih (apart.insertIn pair.1 pair.2)

end Value

namespace Yaml

theorem Made.oneOfEachKey {v : Value} (made : Made v) : v.OneOfEachKey := by
  induction made with
  | scalar made => cases made <;> rintro _ ⟨⟩
  | list _ _ | ordered _ | set _ => rintro _ ⟨⟩
  | map _ ih =>
      refine Value.oneOfEachKey_map (Value.apart_foldl_insertIn .nil _) fun entry member => ?_
      obtain ⟨pair, among, same⟩ :=
        (Value.mem_foldl_insertIn member).resolve_right List.not_mem_nil
      exact same ▸ ih pair among

/-- **In the value of a YAML text each key occurs once.** -/
theorem load_oneOfEachKey {text : String} {v : Value} (loaded : load text = .ok v) :
    v.OneOfEachKey :=
  (load_made loaded).oneOfEachKey

end Yaml

end LogAlert
