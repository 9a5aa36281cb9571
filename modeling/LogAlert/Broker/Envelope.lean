/-
# LogAlert.Broker.Envelope -- jobs as the texts that queues hold

A queue holds texts. A job travels as a JSON object with its identifier, the number of attempts that
failed, and its data; `Job.ofPayload` reads the form that `payload` writes. A text that is no such
object is malformed.
-/
import LogAlert.Json.Print
import LogAlert.Json.Read

set_option autoImplicit false

namespace LogAlert.Broker

/-- A job taken from a queue, with the text that the queue holds for it. -/
structure Job where
  id : Value
  data : Value
  /-- How many attempts have failed. -/
  attempts : Int
  payload : String
deriving BEq, Repr, Inhabited

/-- The text that a job travels as. -/
def payload (id data : Value) (attempts : Int) : Except Fault String :=
  Json.print .asText
    (.map [(.text "id", id), (.text "attempts", .int attempts), (.text "data", data)])

/-- The count that a value stands for; none if it stands for no number. The infinite numbers are the
only ones without a count. -/
def attemptsOf (v : Value) : Except Fault (Option Int) :=
  match v.toInt with
  | .ok n => .ok (some n)
  | .error .infiniteInteger => .error .infiniteInteger
  | .error _ => .ok none

/-- Read a job; there is none in a malformed text. -/
def Job.ofPayload (text : String) : Except Fault (Option Job) :=
  match Json.read? (some Text.digitLimit) text with
  | some (.map entries) =>
    match Value.at? entries "id", Value.at? entries "data" with
    | some id, some data => do
      let attempts ← attemptsOf ((Value.at? entries "attempts").getD (.int 0))
      return attempts.map fun n => ⟨id, data, n, text⟩
    | _, _ => .ok none
  | _ => .ok none

/-- A payload as a connection answers it: as a text, or as the octets of a text. -/
inductive Answer where
  | text (chars : String)
  | octets (bytes : ByteArray)

/-- The answer for a payload. -/
def Answer.ofPayload (asOctets : Bool) (payload : String) : Answer :=
  if asOctets then .octets payload.toUTF8 else .text payload

/-- The payload that was answered. -/
def Answer.payload? : Answer → Option String
  | .text chars => some chars
  | .octets bytes => String.fromUTF8? bytes

end LogAlert.Broker
