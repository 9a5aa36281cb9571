/-
# LogAlert.Delivery.Outside -- mail server and webhooks

What a worker sends is seen by a mail server and by the receivers of webhooks. Here they are given
by how they will behave: the mail server by how each step of speaking to it ends, the receivers by their
replies to the coming requests, and a friendly reply to all others. What reaches them is kept as a list
of events.
-/
import LogAlert.Fault

set_option autoImplicit false

namespace LogAlert.Delivery

/-- How a step of speaking to a mail server ends. -/
inductive Answer where
  | agreed
  /-- The server refuses, or cannot be reached. -/
  | refused (complaint : String)
  /-- Something else goes wrong, on either side: the server says what makes no sense, or it cannot
  even be asked. -/
  | broken (fault : Fault)
deriving DecidableEq, Repr, Inhabited

/-- What follows if the server agrees to a step, as far as it does. The result is why a message was
refused, if it was. -/
def Answer.followed (answer : Answer) (next : Except Fault (Option String)) :
    Except Fault (Option String) :=
  match answer with
  | .agreed => next
  | .refused complaint => .ok (some complaint)
  | .broken fault => .error fault

/-- How somebody tells a mail server who they are. -/
inductive Introduction where
  /-- User and password at once. -/
  | plain
  /-- The user, and then the password. -/
  | login
  /-- The user, and a digest that is made with the password. -/
  | digest
deriving DecidableEq, Repr

/-- How the mail server behaves. -/
structure MailServer where
  /-- It is connected to. -/
  connecting : Answer
  /-- The connection is to be secured. -/
  securing : Answer
  /-- The introductions that it asks for, one after the other. -/
  introductions : List Introduction
  /-- How many texts of these it hears until it has decided. -/
  hears : Nat
  /-- The sender is to be logged in. -/
  admitting : Answer
  /-- It is to take the message. -/
  taking : Answer
  /-- The connection is to end in good order. -/
  closing : Answer
deriving DecidableEq, Repr, Inhabited

namespace MailServer

/-- All is agreed to, and nobody need say who they are. -/
def accepting : MailServer := ⟨.agreed, .agreed, [], 0, .agreed, .agreed, .agreed⟩

/-- Connections are refused. -/
def refusing : MailServer := { accepting with connecting := .refused "connection refused" }

/-- Connections cannot be secured. -/
def plain : MailServer :=
  { accepting with securing := .refused "STARTTLS extension not supported by server." }

/-- Messages are refused. -/
def rejecting : MailServer := { accepting with taking := .refused "rejected" }

end MailServer

/-- What becomes of a request to a webhook. -/
inductive Reply where
  | status (code : Int) (reason : Option String)
  | timeout
  | disconnected
  /-- The request fails in another way. -/
  | failure (text : String)
deriving DecidableEq, Repr, Inhabited

/-- A span of time in seconds. -/
inductive Delay where
  | whole (seconds : Int)
  | fractional (seconds : Binary64)
deriving DecidableEq, Repr, Inhabited

/-- Twice the span. -/
def Delay.doubled : Delay → Delay
  | .whole n => .whole (n * 2)
  | .fractional x => .fractional (x.mul (.ofRatio false 2 1))

/-- The span as a value. -/
def Delay.toValue : Delay → Value
  | .whole n => .int n
  | .fractional x => .float x

/-- A mail message. -/
structure Message where
  subject : String
  sender : String
  recipients : String
  body : String
deriving DecidableEq, Repr, Inhabited

/-- What reaches the outside. -/
inductive Event where
  | connect (host : Value) (port : Int)
  | secure
  | login (user password : Value)
  | mail (message : Message)
  | post (url payload : Value)
  | pause (delay : Delay)
deriving BEq, Repr, Inhabited

/-- The mail server and the receivers of webhooks. -/
structure Outside where
  mailServer : MailServer
  /-- The replies to the coming requests. -/
  replies : List Reply
  /-- What has reached them, the latest last. -/
  events : List Event
deriving BEq, Repr, Inhabited

namespace Outside

/-- An outside that accepts all and has not been reached yet. -/
def quiet : Outside := ⟨.accepting, [], []⟩

/-- Something reaches the outside. -/
def witness (outside : Outside) (event : Event) : Outside :=
  { outside with events := outside.events ++ [event] }

/-- The reply to a request. -/
def reply (outside : Outside) : Reply × Outside :=
  match outside.replies with
  | [] => (.status 200 none, outside)
  | reply :: rest => (reply, { outside with replies := rest })

end Outside

end LogAlert.Delivery
