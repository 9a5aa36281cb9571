/-
# LogAlert.Delivery.Email -- notifications as mail

A notification is sent as one message to all its recipients. A mail server that is missing or
refuses a step makes the channel fail, for a reason that is reported. Settings or recipients from
which no message can be made are faults, and so is a user or password that cannot be said to a server.
-/
import LogAlert.Delivery.AddressLine
import LogAlert.Delivery.Notification
import LogAlert.Delivery.Outside
import LogAlert.Text.Lines

set_option autoImplicit false

namespace LogAlert.Delivery

open Text (CodePoint)

/-- Where and how mail is sent. -/
structure MailSettings where
  /-- The charsets in which words of a head may be encoded. -/
  charsets : Charsets
  host : Value
  port : Value
  user : Value
  password : Value
  sender : Value
  /-- The connection is secured before it is used. -/
  secures : Bool
deriving Inhabited

namespace MailSettings

/-- The settings in the entries of a mapping. -/
def ofEntries (charsets : Charsets) (entries : List (Value × Value)) : MailSettings :=
  ⟨charsets, Value.get entries "host", (Value.at? entries "port").getD (.int 587),
    Value.get entries "user", Value.get entries "password", Value.get entries "from",
    ((Value.at? entries "use_tls").getD (.bool true)).truthy⟩

/-- Who the mail comes from. -/
def from? (settings : MailSettings) : Value :=
  (settings.sender.orElse settings.user).orElse (.text "alerts@localhost")

end MailSettings

/-- How many seconds a mail server or a receiver may take to answer. -/
def patience : Int := 10

/-- The body of the message, sent at an instant. -/
def bodyOf (n : Notification) (now : Time.Instant) : String :=
  let count := Text.intText n.logCount
  let threshold := Text.intText n.threshold
  let window := Text.intText n.window
  "Alert Triggered: " ++ n.ruleName ++ "\n\n" ++ "Alert Details:\n" ++
    "- Log Count: " ++ count ++ "\n" ++ "- Threshold: " ++ threshold ++ "\n" ++
    "- Time Window: " ++ window ++ " minutes\n" ++ "- Triggered At: " ++ now.text ++ "\n\n" ++
    count ++ " logs were recorded in the last " ++ window ++ " minutes, " ++
    "reaching the threshold of " ++ threshold ++ ".\n"

/-- A text that can stand in the head of a message. -/
def headText (text : String) : Except Fault (List CodePoint) :=
  if Text.spansLines text then .error .severalLines else .ok (CodePoint.ofText text)

/-- Any text as it stands in the head of a message. -/
def anyLine (charsets : Charsets) (text : String) : Except Fault String := do
  CodePoint.written (EncodedWord.meant charsets (← headText text))

/-- The recipients as texts; `place` is the number of recipients before them. -/
def recipientTexts (place : Nat) : List Value → Except Fault (List String)
  | [] => .ok []
  | .text s :: rest => do return s :: (← recipientTexts (place + 1) rest)
  | v :: _ => .error (.noTextItem place v.fullKindName)

/-- The recipients in one line. -/
def recipientLine (recipients : List Value) : Except Fault String := do
  return Value.joined ", " (← recipientTexts 0 recipients)

/-- The addresses of a text, as they stand in the head of a message. -/
def addressLine (charsets : Charsets) (text : String) : Except Fault String := do
  CodePoint.written (Addressee.line (← AddressLine.read charsets (← headText text)))

/-- The sender of a message as it stands in its head. What is no text is shown item by item. -/
def senderLine (charsets : Charsets) : Value → Except Fault String
  | .text sender => addressLine charsets sender
  | sender => do
    let items := sender.iterated.toOption.getD [sender]
    let line := Value.joined ", " (← items.mapM Value.display)
    let _ ← AddressLine.entries charsets (CodePoint.ofText line)
    return line

/-- The message for a notification. -/
def messageOf (settings : MailSettings) (n : Notification) (now : Time.Instant) :
    Except Fault Message := do
  let subject ← anyLine settings.charsets ("Alert: " ++ n.ruleName)
  let sender ← senderLine settings.charsets settings.from?
  let recipients ← addressLine settings.charsets (← recipientLine n.recipients)
  if [n.logCount, n.threshold, n.window].any Value.isOverlong then throw .overlongInteger
  return ⟨subject, sender, recipients, Text.unifyBreaks (bodyOf n now)⟩

/-- Hand the message over. The result is why that was refused, if it was. -/
def handOver (message : Message) (outside : Outside) :
    Except Fault (Option String) × Outside :=
  (outside.mailServer.taking.followed (.ok none), outside.witness (.mail message))

/-- The texts of an introduction; only texts can be said. -/
def Introduction.texts (user password : Value) : Introduction → List (Except Fault String)
  | .plain => [do return "\x00" ++ (← user.display) ++ "\x00" ++ (← password.display)]
  | .login => [sayable user, sayable password]
  | .digest => [sayable password, sayable user]
where
  sayable : Value → Except Fault String
    | .text s => .ok s
    | v => .error (.noOperation v.fullKindName "encode")

/-- What a mail server hears of who logs in. -/
def MailServer.hearing (server : MailServer) (settings : MailSettings) :
    List (Except Fault String) :=
  let password := settings.password.orElse (.text "")
  (server.introductions.flatMap (·.texts settings.user password)).take server.hears

/-- Say a text to a mail server, in ASCII. -/
def say (text : Except Fault String) : Except Fault Unit := do
  match CodePoint.beyondAscii? (← text) with
  | some fault => throw fault
  | none => return

/-- How logging in ends. -/
def MailServer.loggingIn (server : MailServer) (settings : MailSettings) : Answer :=
  match (server.hearing settings).forM say with
  | .error fault => .broken fault
  | .ok () => server.admitting

/-- Ask a mail server for the next step, and go on if it agrees. -/
def ask (event : Event) (answer : MailServer → Answer)
    (next : Outside → Except Fault (Option String) × Outside) (outside : Outside) :
    Except Fault (Option String) × Outside :=
  let outside := outside.witness event
  match answer outside.mailServer with
  | .agreed => next outside
  | other => (other.followed (.ok none), outside)

/-- Log in if there is a user, and go on. -/
def logIn (settings : MailSettings) (message : Message) (outside : Outside) :
    Except Fault (Option String) × Outside :=
  if settings.user.truthy then
    ask (.login settings.user (settings.password.orElse (.text ""))) (·.loggingIn settings)
      (handOver message) outside
  else handOver message outside

/-- Secure the connection if that is wanted, and go on. -/
def speak (settings : MailSettings) (message : Message) (outside : Outside) :
    Except Fault (Option String) × Outside :=
  if settings.secures then ask .secure MailServer.securing (logIn settings message) outside
  else logIn settings message outside

/-- Speak to a server and take leave of it, whatever has happened; what that brings is heard last. -/
def speakAndLeave (settings : MailSettings) (message : Message) (outside : Outside) :
    Except Fault (Option String) × Outside :=
  let (result, outside) := speak settings message outside
  (outside.mailServer.closing.followed result, outside)

/-- Send a notification as mail. The result is why that failed, if it did. -/
def sendMail (settings : MailSettings) (n : Notification) (now : Time.Instant)
    (outside : Outside) : Except Fault (Option String) × Outside :=
  if !settings.host.truthy then (.ok (some "Email transporter not configured"), outside)
  else
    match (do return (← messageOf settings n now, ← settings.port.toInt) :
        Except Fault (Message × Int)) with
    | .error fault => (.error fault, outside)
    | .ok (message, port) =>
      ask (.connect settings.host port) MailServer.connecting (speakAndLeave settings message) outside

end LogAlert.Delivery
