/-
# LogAlert.Proofs.Broker.Envelope -- jobs are read back from their payloads

Whatever a job carries, the text it travels as is read again as a job (`ofPayload_payload`), with the
same number of attempts and with its identifier and its data as JSON keeps them.  It is read the
same way from a connection that answers octets.
-/
import LogAlert.Broker.Envelope
import LogAlert.Proofs.Json.Data
import LogAlert.Proofs.Json.RoundTrip

set_option autoImplicit false

namespace LogAlert.Broker

theorem at?_cons_text (key name : String) (v : Value) (rest : List Value.Entry) :
    Value.at? ((.text key, v) :: rest) name = if key = name then some v else Value.at? rest name := by
  by_cases same : key = name <;>
    simp [Value.at?, Value.lookupIn, Value.same, Value.sameScalar, same]

theorem reread_envelope (id data : Value) (attempts : Int) :
    Json.reread (.map [(.text "id", id), (.text "attempts", .int attempts), (.text "data", data)]) =
      .map [(.text "id", Json.reread id), (.text "attempts", .int attempts),
        (.text "data", Json.reread data)] := by
  simp [Json.reread, Json.rereadEntries, Json.keyName, Value.insertIn, Value.same,
    Value.sameScalar]

/-- **Payloads are never malformed.**  The text of a job is read as a job again. -/
theorem ofPayload_payload {id data : Value} {attempts : Int} {text : String}
    (written : payload id data attempts = .ok text) :
    Job.ofPayload text = .ok (some ⟨Json.reread id, Json.reread data, attempts, text⟩) := by
  have wide : ∀ most ∈ some Text.digitLimit, Text.digitLimit ≤ most := by simp
  have read := Json.read?_print wide written
  rw [reread_envelope] at read
  simp only [Job.ofPayload, read, at?_cons_text]
  rfl

/-- What is read from a payload is JSON. -/
theorem isJson_of_payload {id data : Value} {attempts : Int} {text : String}
    (written : payload id data attempts = .ok text) :
    (Json.reread id).IsJson ∧ (Json.reread data).IsJson := by
  have wide : ∀ most ∈ some Text.digitLimit, Text.digitLimit ≤ most := by simp
  have json := Json.isJson_of_read? (Json.read?_print wide written)
  rw [reread_envelope] at json
  have own := json.get "id"
  have content := json.get "data"
  simp only [Value.get, at?_cons_text] at own content
  exact ⟨own, content⟩

/-- A job of JSON data can be sent. -/
theorem payload_total {id data : Value} (own : id.IsJson) (json : data.IsJson) {attempts : Int}
    (short : Value.isOverlong attempts = false) : ∃ text, payload id data attempts = .ok text := by
  have envelope : (Value.map (Value.named
      [("id", id), ("attempts", .int attempts), ("data", data)])).IsJson := by
    refine .map (by simp) ?_
    simp only [List.forall_mem_cons]
    exact ⟨own, .int short, json, nofun⟩
  obtain ⟨cs, printed⟩ := envelope.chars_total .asText
  exact ⟨String.ofList cs, congrArg (Except.map String.ofList) printed⟩

/-- A count with too many digits cannot be written. -/
theorem payload_overlong (id : String) (data : Value) {attempts : Int}
    (long : Value.isOverlong attempts = true) :
    payload (.text id) data attempts = .error .overlongInteger := by
  simp only [payload, Json.print, Json.chars, Json.entriesChars, Json.keyText, Json.intText, long,
    if_true, ok_bind, error_bind]
  rfl

theorem payload?_ofPayload (asOctets : Bool) (text : String) :
    (Answer.ofPayload asOctets text).payload? = some text := by
  cases asOctets with
  | false => rfl
  | true => exact dif_pos text.isValidUTF8

end LogAlert.Broker
