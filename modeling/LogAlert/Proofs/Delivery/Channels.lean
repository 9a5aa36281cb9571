/-
# LogAlert.Proofs.Delivery.Channels -- whether one channel can stop the other

A worker sends a notification by mail, posts it to a webhook, and writes into the history what became
of that.  The mail server may refuse any step and the receiver may reply anything: this makes a
channel fail, and the other one does not notice.  `Mails` and `Posts` say so of the channels and of
their parts: what the first one does depends on the mail server alone, and what the second one does
on the replies alone.

Two things can stop a delivery.  The mail message is written from the name of the rule and from the
recipients, and where that is impossible the worker fails before the webhook is asked and before the
history hears of it: `Mailable` says when it is possible, and `mailable_of_ordinary` that ordinary names
and addresses are not in the way.  And speaking to the server can break off for a reason that is no
refusal, be it that the server makes no sense or that user or password cannot be said to it:
`MailServer.Breaks` lists the ways.  `process_isolated` says both: the delivery goes through exactly
if neither happens and the history can be looked into, and then channels and history are as they
should be.  `process_stopped_by_two_lines` is a notification that no receiver and no row hears of, for
the name of its rule has two lines.
-/
import LogAlert.Proofs.Delivery.Outcomes
import LogAlert.Proofs.Delivery.PlainAddresses
import LogAlert.Proofs.Outcome

set_option autoImplicit false

namespace LogAlert

/-! ## Messages that can be written -/

namespace Delivery

open Text (CodePoint)

variable {settings : MailSettings} {n : Notification} {now : Time.Instant} {outside : Outside}

variable {charsets : Charsets} {text : String}

/-- The text can stand in the head of a message. -/
structure IsHeadLine (charsets : Charsets) (text : String) : Prop where
  oneLine : Text.spansLines text = false
  encodable : ∀ c ∈ EncodedWord.meant charsets (CodePoint.ofText text), c.isEncodable = true

/-- The text can stand as a line of addresses in the head of a message. -/
structure IsAddressLine (charsets : Charsets) (text : String) : Prop where
  oneLine : Text.spansLines text = false
  addresses : ∃ addresses, AddressLine.read charsets (CodePoint.ofText text) = .ok addresses ∧
    ∀ c ∈ Addressee.line addresses, c.isEncodable = true

/-- The value can stand for the sender of a message. -/
def IsSender (charsets : Charsets) : Value → Prop
  | .text sender => IsAddressLine charsets sender
  | sender => ∃ shown, (sender.iterated.toOption.getD [sender]).mapM Value.display = .ok shown ∧
    ∃ entries,
      AddressLine.entries charsets (CodePoint.ofText (Value.joined ", " shown)) = .ok entries

/-- A message can be written for the notification, and the mail server has a port. -/
structure Mailable (settings : MailSettings) (n : Notification) : Prop where
  subject : IsHeadLine settings.charsets ("Alert: " ++ n.ruleName)
  sender : IsSender settings.charsets settings.from?
  recipients : ∃ texts : List String, n.recipients = texts.map .text ∧
    IsAddressLine settings.charsets (Value.joined ", " texts)
  counts : [n.logCount, n.threshold, n.window].any Value.isOverlong = false
  port : ∃ port, settings.port.toInt = .ok port

theorem headText_eq_ok {head : List CodePoint} :
    headText text = .ok head ↔ Text.spansLines text = false ∧ CodePoint.ofText text = head := by
  unfold headText
  cases Text.spansLines text <;> simp

theorem spansLines_subject (name : String) :
    Text.spansLines ("Alert: " ++ name) = Text.spansLines name := by
  have inside : ∀ c ∈ "Alert: ".toList, c ∉ Text.lineEnds := by simp [Text.lineEnds]
  unfold Text.spansLines
  rw [String.toList_append, Text.behindLine_append inside]

theorem anyLine_eq_ok : (∃ line, anyLine charsets text = .ok line) ↔ IsHeadLine charsets text := by
  simp only [anyLine, bind_eq_ok, headText_eq_ok]
  constructor
  · rintro ⟨line, _, ⟨oneLine, rfl⟩, written⟩
    exact ⟨oneLine, CodePoint.written_eq_ok.1 ⟨line, written⟩⟩
  · rintro ⟨oneLine, encodable⟩
    obtain ⟨line, written⟩ := CodePoint.written_eq_ok.2 encodable
    exact ⟨line, _, ⟨oneLine, rfl⟩, written⟩

theorem addressLine_eq_ok :
    (∃ line, addressLine charsets text = .ok line) ↔ IsAddressLine charsets text := by
  simp only [addressLine, bind_eq_ok, headText_eq_ok]
  constructor
  · rintro ⟨line, _, ⟨oneLine, rfl⟩, addresses, read, written⟩
    exact ⟨oneLine, addresses, read, CodePoint.written_eq_ok.1 ⟨line, written⟩⟩
  · rintro ⟨oneLine, addresses, read, encodable⟩
    obtain ⟨line, written⟩ := CodePoint.written_eq_ok.2 encodable
    exact ⟨line, _, ⟨oneLine, rfl⟩, addresses, read, written⟩

theorem senderLine_eq_ok {sender : Value} :
    (∃ line, senderLine charsets sender = .ok line) ↔ IsSender charsets sender := by
  unfold senderLine IsSender
  split
  · exact addressLine_eq_ok
  · simp only [bind_eq_ok]
    constructor
    · rintro ⟨_, shown, displayed, entries, read, -⟩
      exact ⟨shown, displayed, entries, read⟩
    · rintro ⟨shown, displayed, entries, read⟩
      exact ⟨_, shown, displayed, entries, read, rfl⟩

theorem recipientTexts_eq_ok {place : Nat} {recipients : List Value} {texts : List String} :
    recipientTexts place recipients = .ok texts ↔ recipients = texts.map .text := by
  induction recipients generalizing place texts with
  | nil => cases texts <;> simp [recipientTexts]
  | cons recipient rest ih =>
      cases recipient with
      | text s =>
          rw [recipientTexts, bind_eq_ok]
          constructor
          · rintro ⟨others, read, written⟩
            cases written
            rw [ih.1 read, List.map_cons]
          · intro allTexts
            cases texts with
            | nil => cases allTexts
            | cons one others =>
                rw [List.map_cons, List.cons.injEq, Value.text.injEq] at allTexts
                exact ⟨others, ih.2 allTexts.2, by rw [allTexts.1]; rfl⟩
      | _ => cases texts <;> simp [recipientTexts]

/-- A message can be written, and the server has a port, exactly if the notification is mailable. -/
theorem mailable_iff (now : Time.Instant) : Mailable settings n ↔
    (∃ message, messageOf settings n now = .ok message) ∧
      ∃ port, settings.port.toInt = .ok port := by
  constructor
  · rintro ⟨isSubject, isSender, ⟨texts, allTexts, areLine⟩, counts, port⟩
    obtain ⟨subject, subjectWritten⟩ := anyLine_eq_ok.2 isSubject
    obtain ⟨sender, senderWritten⟩ := senderLine_eq_ok.2 isSender
    obtain ⟨line, lineWritten⟩ := addressLine_eq_ok.2 areLine
    have recipients : recipientLine n.recipients = .ok (Value.joined ", " texts) := by
      rw [recipientLine, recipientTexts_eq_ok.2 allTexts]
      rfl
    refine ⟨⟨⟨subject, sender, line, Text.unifyBreaks (bodyOf n now)⟩, ?_⟩, port⟩
    simp only [messageOf, subjectWritten, senderWritten, recipients, lineWritten, counts, ok_bind]
    rfl
  · rintro ⟨⟨message, written⟩, port⟩
    obtain ⟨subject, subjectWritten, written⟩ := bind_eq_ok.1 written
    obtain ⟨sender, senderWritten, written⟩ := bind_eq_ok.1 written
    obtain ⟨joined, recipients, written⟩ := bind_eq_ok.1 written
    obtain ⟨line, lineWritten, counted⟩ := bind_eq_ok.1 written
    obtain ⟨texts, allTexts, isJoined⟩ := bind_eq_ok.1 recipients
    cases isJoined
    refine ⟨anyLine_eq_ok.1 ⟨subject, subjectWritten⟩, senderLine_eq_ok.1 ⟨sender, senderWritten⟩,
      ⟨texts, recipientTexts_eq_ok.1 allTexts, addressLine_eq_ok.1 ⟨line, lineWritten⟩⟩, ?_, port⟩
    refine Bool.eq_false_iff.2 fun overlong => ?_
    dsimp only at counted
    rw [if_pos overlong] at counted
    cases counted

theorem isAddressLine_ordinary (charsets : Charsets) {addresses : List Address}
    (ordinary : ∀ a ∈ addresses, a.IsOrdinary) :
    IsAddressLine charsets (Value.joined ", " (addresses.map Address.shown)) :=
  addressLine_eq_ok.1 ⟨_, addressLine_ordinary charsets ordinary⟩

/-- A line break can also be hidden in an encoded word of the name. -/
example : AddressLine.read .common (CodePoint.ofText "=?utf-8?q?=0A?= <one@x.y>") =
    .error .addressBreaks := by
  decide +kernel

/-- The name of a rule can stand in a subject if it has one line and no question mark. -/
theorem isHeadLine_subject {name : String} (oneLine : Text.spansLines name = false)
    (uncoded : '?' ∉ name.toList) : IsHeadLine charsets ("Alert: " ++ name) := by
  refine ⟨(spansLines_subject name).trans oneLine, fun c member => ?_⟩
  have unasked : CodePoint.char '?' ∉ CodePoint.ofText ("Alert: " ++ name) := by
    simp [CodePoint.ofText, uncoded]
  obtain ⟨d, -, rfl⟩ := List.mem_map.1 (EncodedWord.meant_uncoded charsets unasked member)
  rfl

/-- With ordinary addresses, what is left to the rule is to have a name of one line in which nothing
is encoded, and to count as far as numbers can be shown. -/
theorem mailable_of_ordinary {sender : Address} (recipients : List Address)
    (fromOne : settings.from? = .text sender.shown) (senderOrdinary : sender.IsOrdinary)
    (toAll : n.recipients = recipients.map fun address => .text address.shown)
    (ordinary : ∀ address ∈ recipients, address.IsOrdinary)
    (subject : Text.spansLines n.ruleName = false) (uncoded : '?' ∉ n.ruleName.toList)
    (counts : [n.logCount, n.threshold, n.window].any Value.isOverlong = false)
    (port : ∃ port, settings.port.toInt = .ok port) : Mailable settings n := by
  have onlySender : ∀ address ∈ [sender], address.IsOrdinary :=
    List.forall_mem_singleton.2 senderOrdinary
  have senderLine := isAddressLine_ordinary settings.charsets onlySender
  rw [List.map_singleton, Value.joined, String.intercalate_singleton] at senderLine
  refine ⟨isHeadLine_subject subject uncoded, by rw [fromOne]; exact senderLine,
    ⟨recipients.map Address.shown, ?_, isAddressLine_ordinary _ ordinary⟩, counts, port⟩
  rw [toAll, List.map_map]
  rfl

/-! ## What can go wrong in speaking to the server -/

variable {server : MailServer}

/-- The answer is none that is foreseen. -/
def Answer.IsBroken (answer : Answer) : Prop := ∃ fault, answer = .broken fault

/-- The text can be said to a mail server. -/
def IsSayable (text : Except Fault String) : Prop :=
  ∃ s, text = .ok s ∧ ∀ c ∈ s.toList, c.toNat < 128

namespace MailServer

/-- The server is connected to, and the connection will end in good order. -/
structure IsOpen (server : MailServer) : Prop where
  connected : server.connecting = .agreed
  closed : server.closing = .agreed

/-- All is in place for a message: the connection is secured, if it is to be, and the sender has
logged in, if there is a user. -/
structure IsReady (server : MailServer) (settings : MailSettings) : Prop where
  isOpen : server.IsOpen
  secured : settings.secures = true → server.securing = .agreed
  heard : settings.user.truthy = true → ∀ text ∈ server.hearing settings, IsSayable text
  admitted : settings.user.truthy = true → server.admitting = .agreed

/-- Speaking to the server breaks off at a step that is reached, and neither the server nor the
connection has refused it. -/
inductive Breaks (server : MailServer) (settings : MailSettings) : Prop
  | connecting (broken : server.connecting.IsBroken)
  | closing (connected : server.connecting = .agreed) (broken : server.closing.IsBroken)
  | securing (isOpen : server.IsOpen) (secures : settings.secures = true)
    (broken : server.securing.IsBroken)
  | unsayable (isOpen : server.IsOpen) (secured : settings.secures = true → server.securing = .agreed)
    (user : settings.user.truthy = true) {text : Except Fault String}
    (heard : text ∈ server.hearing settings) (unsayable : ¬ IsSayable text)
  | admitting (isOpen : server.IsOpen) (secured : settings.secures = true → server.securing = .agreed)
    (user : settings.user.truthy = true) (heard : ∀ text ∈ server.hearing settings, IsSayable text)
    (broken : server.admitting.IsBroken)
  | taking (isReady : server.IsReady settings) (broken : server.taking.IsBroken)

/-- What comes of logging in and handing a message over. -/
def admission (server : MailServer) (settings : MailSettings) : Except Fault (Option String) :=
  if settings.user.truthy then
    (server.loggingIn settings).followed (server.taking.followed (.ok none))
  else server.taking.followed (.ok none)

/-- What comes of speaking to a server that has been connected to. -/
def conversation (server : MailServer) (settings : MailSettings) : Except Fault (Option String) :=
  if settings.secures then server.securing.followed (server.admission settings)
  else server.admission settings

/-- What comes of sending a message. -/
def verdict (server : MailServer) (settings : MailSettings) : Except Fault (Option String) :=
  server.connecting.followed (server.closing.followed (server.conversation settings))

end MailServer

theorem Answer.followed_eq_error (answer : Answer) (next : Except Fault (Option String)) :
    (∃ fault, answer.followed next = .error fault) ↔
      answer.IsBroken ∨ answer = .agreed ∧ ∃ fault, next = .error fault := by
  cases answer <;> simp [Answer.followed, Answer.IsBroken]

theorem say_eq_ok {text : Except Fault String} : say text = .ok () ↔ IsSayable text := by
  cases text with
  | error fault => exact iff_of_false nofun fun ⟨s, same, _⟩ => nomatch same
  | ok s =>
      have ascii : (∃ t, Except.ok (ε := Fault) s = .ok t ∧ ∀ c ∈ t.toList, c.toNat < 128) ↔
          ∀ c ∈ CodePoint.ofText s, c.ascii?.isNone = false := by
        simp [CodePoint.ofText, CodePoint.ascii?]
      rw [IsSayable, ascii, ← CodePoint.unencodable?_eq_none .ascii _
        (·.ascii?.isNone), say, ok_bind, CodePoint.beyondAscii?]
      split <;> simp_all [pure, Except.pure]

theorem forM_say_eq_ok (texts : List (Except Fault String)) :
    texts.forM say = .ok () ↔ ∀ text ∈ texts, IsSayable text := by
  induction texts with
  | nil => simp [List.forM, pure, Except.pure]
  | cons text texts ih =>
      rw [List.forM, bind_eq_ok, List.forall_mem_cons, ← say_eq_ok, ← ih]
      exact ⟨fun ⟨(), said, others⟩ => ⟨said, others⟩, fun both => ⟨(), both⟩⟩

theorem forM_say_eq_error (texts : List (Except Fault String)) :
    (∃ fault, texts.forM say = .error fault) ↔ ∃ text ∈ texts, ¬ IsSayable text := by
  have said := forM_say_eq_ok texts
  cases outcome : texts.forM say with
  | error fault => simpa [outcome] using said
  | ok =>
      have all := said.1 outcome
      simpa using all

namespace MailServer

theorem admission_eq_error : (∃ fault, server.admission settings = .error fault) ↔
    (settings.user.truthy = true ∧ ∃ text ∈ server.hearing settings, ¬ IsSayable text) ∨
    (settings.user.truthy = true ∧ (∀ text ∈ server.hearing settings, IsSayable text) ∧
      server.admitting.IsBroken) ∨
    ((settings.user.truthy = true → ∀ text ∈ server.hearing settings, IsSayable text) ∧
      (settings.user.truthy = true → server.admitting = .agreed) ∧ server.taking.IsBroken) := by
  have taken := Answer.followed_eq_error server.taking (.ok none)
  simp only [reduceCtorEq, exists_false, and_false, or_false] at taken
  unfold admission loggingIn
  cases settings.user.truthy with
  | false => simpa using taken
  | true =>
      have heard := forM_say_eq_ok (server.hearing settings)
      have unheard := forM_say_eq_error (server.hearing settings)
      simp only [if_true, true_and, true_implies]
      rw [← heard, ← unheard, Answer.followed_eq_error, taken]
      cases (server.hearing settings).forM say <;> simp [Answer.IsBroken]

theorem conversation_eq_error : (∃ fault, server.conversation settings = .error fault) ↔
    (settings.secures = true ∧ server.securing.IsBroken) ∨
    ((settings.secures = true → server.securing = .agreed) ∧
      ∃ fault, server.admission settings = .error fault) := by
  unfold conversation
  cases settings.secures with
  | false => simp
  | true => simp [Answer.followed_eq_error]

/-- Sending a message fails for a reason that is not foreseen exactly if speaking to the server
breaks off. -/
theorem verdict_eq_error (server : MailServer) (settings : MailSettings) :
    (∃ fault, server.verdict settings = .error fault) ↔ server.Breaks settings := by
  rw [verdict, Answer.followed_eq_error, Answer.followed_eq_error, conversation_eq_error,
    admission_eq_error]
  constructor
  · rintro (broken | ⟨connected, broken | ⟨closed, breaks⟩⟩)
    · exact .connecting broken
    · exact .closing connected broken
    · have isOpen : server.IsOpen := ⟨connected, closed⟩
      rcases breaks with ⟨secures, broken⟩ | ⟨secured, ⟨user, text, heard, unsayable⟩ |
        ⟨user, heard, broken⟩ | ⟨heard, admitted, broken⟩⟩
      · exact .securing isOpen secures broken
      · exact .unsayable isOpen secured user heard unsayable
      · exact .admitting isOpen secured user heard broken
      · exact .taking ⟨isOpen, secured, heard, admitted⟩ broken
  · intro breaks
    cases breaks with
    | connecting broken => exact .inl broken
    | closing connected broken => exact .inr ⟨connected, .inl broken⟩
    | securing isOpen secures broken =>
        exact .inr ⟨isOpen.connected, .inr ⟨isOpen.closed, .inl ⟨secures, broken⟩⟩⟩
    | unsayable isOpen secured user heard unsayable =>
        exact .inr ⟨isOpen.connected, .inr ⟨isOpen.closed,
          .inr ⟨secured, .inl ⟨user, _, heard, unsayable⟩⟩⟩⟩
    | admitting isOpen secured user heard broken =>
        exact .inr ⟨isOpen.connected, .inr ⟨isOpen.closed,
          .inr ⟨secured, .inr (.inl ⟨user, heard, broken⟩)⟩⟩⟩
    | taking ready broken =>
        exact .inr ⟨ready.isOpen.connected, .inr ⟨ready.isOpen.closed,
          .inr ⟨ready.secured, .inr (.inr ⟨ready.heard, ready.admitted, broken⟩)⟩⟩⟩

end MailServer

/-! ## What the mail channel shows to the server -/

/-- The event is a request to a webhook. -/
def Event.isPost : Event → Bool
  | .post _ _ => true
  | _ => false

/-- A part of the mail channel has this result and shows the server these events, whatever replies
there will be to requests and whatever has happened before.  Nothing of it is a request. -/
structure Mails {α : Type} (server : MailServer) (part : Outside → α × Outside) (result : α)
    (sent : List Event) : Prop where
  runs : ∀ replies events,
    part ⟨server, replies, events⟩ = (result, ⟨server, replies, events ++ sent⟩)
  unasked : ∀ event ∈ sent, event.isPost = false

theorem handOver_mails (server : MailServer) (message : Message) :
    Mails server (handOver message) (server.taking.followed (.ok none)) [.mail message] :=
  ⟨fun _ _ => rfl, by simp [Event.isPost]⟩

/-- A step that the server may refuse, before a part of the channel. -/
theorem Mails.ask {part : Outside → Except Fault (Option String) × Outside}
    {result : Except Fault (Option String)} {sent : List Event}
    (mails : Mails server part result sent) (event : Event) (unasked : event.isPost = false)
    (answer : MailServer → Answer) :
    ∃ sent, Mails server (ask event answer part) ((answer server).followed result) sent := by
  have onlyOne : ∀ shown ∈ [event], shown.isPost = false := List.forall_mem_singleton.2 unasked
  cases answered : answer server with
  | agreed =>
      refine ⟨event :: sent, fun replies events => ?_,
        List.forall_mem_cons.2 ⟨unasked, mails.unasked⟩⟩
      simp only [Delivery.ask, Outside.witness, answered]
      rw [mails.runs, List.append_assoc, List.singleton_append]
      rfl
  | refused complaint =>
      refine ⟨[event], fun replies events => ?_, onlyOne⟩
      simp only [Delivery.ask, Outside.witness, answered]
      rfl
  | broken fault =>
      refine ⟨[event], fun replies events => ?_, onlyOne⟩
      simp only [Delivery.ask, Outside.witness, answered]
      rfl

theorem logIn_mails (server : MailServer) (settings : MailSettings) (message : Message) :
    ∃ sent, Mails server (logIn settings message) (server.admission settings) sent := by
  have handedOver := handOver_mails server message
  unfold logIn MailServer.admission
  cases settings.user.truthy with
  | false => exact ⟨_, handedOver⟩
  | true => exact handedOver.ask _ rfl (·.loggingIn settings)

theorem speak_mails (server : MailServer) (settings : MailSettings) (message : Message) :
    ∃ sent, Mails server (speak settings message) (server.conversation settings) sent := by
  obtain ⟨sent, loggedIn⟩ := logIn_mails server settings message
  unfold speak MailServer.conversation
  cases settings.secures with
  | false => exact ⟨sent, loggedIn⟩
  | true => exact loggedIn.ask .secure rfl MailServer.securing

theorem speakAndLeave_mails (server : MailServer) (settings : MailSettings) (message : Message) :
    ∃ sent, Mails server (speakAndLeave settings message)
      (server.closing.followed (server.conversation settings)) sent := by
  obtain ⟨sent, spoken⟩ := speak_mails server settings message
  exact ⟨sent, fun replies events => by rw [speakAndLeave, spoken.runs], spoken.unasked⟩

/-- If a message can be written, it is up to the server what comes of it. -/
theorem sendMail_mails (server : MailServer) (now : Time.Instant)
    (known : settings.host.truthy = true) (mailable : Mailable settings n) :
    ∃ sent, Mails server (sendMail settings n now) (server.verdict settings) sent := by
  obtain ⟨⟨message, written⟩, port, read⟩ := (mailable_iff now).1 mailable
  obtain ⟨_, spoken⟩ := speakAndLeave_mails server settings message
  obtain ⟨sent, connected⟩ := spoken.ask (.connect settings.host port) rfl MailServer.connecting
  refine ⟨sent, fun replies events => ?_, connected.unasked⟩
  simp only [sendMail, known, written, read, ok_bind, pure, Except.pure, Bool.not_true,
    Bool.false_eq_true, if_false]
  exact connected.runs replies events

/-- If no message can be written, the server is not even connected to. -/
theorem sendMail_stops (server : MailServer) (now : Time.Instant)
    (known : settings.host.truthy = true) (unmailable : ¬ Mailable settings n) :
    ∃ fault, Mails server (sendMail settings n now) (.error fault) [] := by
  have stops : ∃ fault, (do return (← messageOf settings n now, ← settings.port.toInt) :
      Except Fault (Message × Int)) = .error fault := by
    cases written : messageOf settings n now with
    | error fault => exact ⟨fault, rfl⟩
    | ok message =>
        cases read : settings.port.toInt with
        | error fault => exact ⟨fault, rfl⟩
        | ok port =>
            exact absurd ((mailable_iff now).2 ⟨⟨message, written⟩, port, read⟩) unmailable
  obtain ⟨fault, stopped⟩ := stops
  refine ⟨fault, fun replies events => ?_, List.forall_mem_nil _⟩
  simp only [sendMail, known, stopped, Bool.not_true, Bool.false_eq_true, if_false,
    List.append_nil]

/-! ## What the webhook channel shows to the receivers -/

/-- A part of the webhook channel has this result, leaves these replies to later requests and shows
the receivers these events, whatever the mail server is like and whatever has happened before. -/
def Posts (replies : List Reply) (part : Outside → Option String × Outside)
    (failure : Option String) (left : List Reply) (sent : List Event) : Prop :=
  ∀ server events, part ⟨server, replies, events⟩ = (failure, ⟨server, left, events ++ sent⟩)

theorem exists_reply (replies : List Reply) : ∃ reply left, ∀ server events,
    Outside.reply ⟨server, replies, events⟩ = (reply, ⟨server, left, events⟩) := by
  cases replies with
  | nil => exact ⟨_, _, fun _ _ => rfl⟩
  | cons reply rest => exact ⟨reply, rest, fun _ _ => rfl⟩

/-- Whatever the replies are, there is at least one request if one is wanted. -/
theorem postAll_posts (url payload : Value) (attempts : Nat) (delay : Delay) (reason : String)
    (replies : List Reply) : ∃ failure left sent,
      Posts replies (postAll url payload attempts delay reason) failure left sent ∧
        (0 < attempts → .post url payload ∈ sent) := by
  induction attempts generalizing delay reason replies with
  | zero =>
      refine ⟨some reason, replies, [], fun server events => ?_, fun none => absurd none (by simp)⟩
      rw [postAll, List.append_nil]
  | succ attempts ih =>
      obtain ⟨reply, left, replied⟩ := exists_reply replies
      cases verdict : reply.verdict with
      | delivered =>
          refine ⟨none, left, [.post url payload], fun server events => ?_, fun _ => by simp⟩
          simp only [postAll, Outside.witness, replied, verdict]
      | refused reason =>
          refine ⟨some reason, left, [.post url payload], fun server events => ?_, fun _ => by simp⟩
          simp only [postAll, Outside.witness, replied, verdict]
      | failed reason =>
          obtain ⟨failure, left', sent, posts, -⟩ := ih delay.doubled reason left
          refine ⟨failure, left',
            .post url payload :: (if attempts = 0 then [] else [.pause delay]) ++ sent,
            fun server events => ?_, fun _ => by simp⟩
          simp only [postAll, Outside.witness, replied, verdict]
          by_cases last : attempts = 0
          · simp only [last, if_true] at posts ⊢
            rw [posts, List.append_assoc]
          · simp only [last, if_false]
            rw [posts, List.append_assoc, List.append_assoc]
            rfl

theorem post_posts (maxAttempts : Int) (delay : Delay) (url payload : Value)
    (replies : List Reply) : ∃ failure left sent,
      Posts replies (post maxAttempts delay url payload) failure left sent ∧
        (1 ≤ maxAttempts → .post url payload ∈ sent) := by
  obtain ⟨failure, left, sent, posts, tried⟩ :=
    postAll_posts url payload maxAttempts.toNat delay "no attempts made" replies
  refine ⟨failure.map ("Webhook request failed: " ++ ·), left, sent, fun server events => ?_,
    fun once => tried (by omega)⟩
  rw [post, posts]

end Delivery

namespace Worker

open Delivery (Mailable Mails Posts payloadOf)

variable {worker : Worker} {times : Times} {n : Notification} {link : Link} {state : State}

/-! ## Both channels -/

/-- Sending by mail does not stop the delivery: there is nobody to send to, no server to send with,
or the message can be written and speaking to the server does not break off. -/
def CanMail (worker : Worker) (server : Delivery.MailServer) (n : Notification) : Prop :=
  n.recipients = [] ∨ worker.mail.host.truthy = false ∨
    Mailable worker.mail n ∧ ¬ server.Breaks worker.mail

theorem mailChannel_mails (worker : Worker) (server : Delivery.MailServer) (n : Notification)
    (now : Time.Instant) : ∃ result seen, Mails server (worker.mailChannel n now) result seen ∧
      ((∃ mail, result = .ok mail) ↔ worker.CanMail server n) := by
  cases hasNone : n.recipients.isEmpty with
  | true =>
      have nobody : n.recipients = [] := List.isEmpty_iff.1 hasNone
      refine ⟨.ok none, [], ⟨fun replies events => ?_, List.forall_mem_nil _⟩,
        iff_of_true ⟨none, rfl⟩ (.inl nobody)⟩
      simp [mailChannel, nobody]
  | false =>
      have addressed : n.recipients ≠ [] := by simpa using hasNone
      have channel {result : Except Fault (Option String)} {seen : List Delivery.Event}
          (mails : Mails server (Delivery.sendMail worker.mail n now) result seen) :
          Mails server (worker.mailChannel n now)
            (result.map fun failure => failure.map ("Email failed: " ++ ·)) seen :=
        ⟨fun replies events => by
          simp only [mailChannel, hasNone, mails.runs, Bool.false_eq_true, if_false],
          mails.unasked⟩
      cases known : worker.mail.host.truthy with
      | false =>
          have unknown : Mails server (Delivery.sendMail worker.mail n now)
              (.ok (some "Email transporter not configured")) [] :=
            ⟨fun replies events => by simp [Delivery.sendMail, known], List.forall_mem_nil _⟩
          exact ⟨_, _, channel unknown, iff_of_true ⟨_, rfl⟩ (.inr (.inl known))⟩
      | true =>
          by_cases mailable : Mailable worker.mail n
          · obtain ⟨seen, mails⟩ := Delivery.sendMail_mails server now known mailable
            refine ⟨_, seen, channel mails, ?_⟩
            have breaks := server.verdict_eq_error worker.mail
            simp only [CanMail, addressed, known, mailable, ← breaks]
            cases server.verdict worker.mail <;> simp [Except.map]
          · obtain ⟨fault, stops⟩ := Delivery.sendMail_stops server now known mailable
            refine ⟨_, [], channel stops, iff_of_false nofun ?_⟩
            simp [CanMail, addressed, known, mailable]

theorem webhookChannel_posts (worker : Worker) (n : Notification) (now : Time.Instant)
    (replies : List Delivery.Reply) : ∃ webhook left asked,
      Posts replies (worker.webhookChannel n now) webhook left asked ∧
        (n.webhook.truthy = true → 1 ≤ worker.maxAttempts →
          .post n.webhook (payloadOf n now) ∈ asked) := by
  unfold webhookChannel
  cases wanted : n.webhook.truthy with
  | false =>
      refine ⟨none, replies, [], fun server events => ?_, nofun⟩
      simp
  | true =>
      obtain ⟨failure, left, asked, posts, tried⟩ :=
        Delivery.post_posts worker.maxAttempts worker.delay n.webhook (payloadOf n now) replies
      refine ⟨failure.map ("Webhook failed: " ++ ·), left, asked, fun server events => ?_,
        fun _ => tried⟩
      simp only [if_true, posts server events]

/-- What is reported of channels that have failed like this. -/
def report (mail webhook : Option String) : Option String :=
  if (mail.toList ++ webhook.toList).isEmpty then none
  else some (Value.joined "; " (mail.toList ++ webhook.toList))

/-- The notification was sent over both channels: each has done what it does whatever the other one
does, and the failures of both are reported. -/
def SentOverBoth (worker : Worker) (times : Times) (n : Notification)
    (before after : Delivery.Outside) (failure : Option String) : Prop :=
  ∃ mail seen webhook asked,
    Mails before.mailServer (worker.mailChannel n times.mailed) (.ok mail) seen ∧
    Posts before.replies (worker.webhookChannel n times.posted) webhook after.replies asked ∧
    failure = report mail webhook ∧ after.events = before.events ++ seen ++ asked

/-- The webhook of the notification has been asked. -/
def Asked (n : Notification) (now : Time.Instant) (before after : Delivery.Outside) : Prop :=
  ∃ sent, after.events = before.events ++ sent ∧ .post n.webhook (payloadOf n now) ∈ sent

theorem send_goes (times : Times) (outside : Delivery.Outside)
    (canMail : worker.CanMail outside.mailServer n) :
    ∃ failure, (worker.send n times outside).1 = .ok failure ∧
      worker.SentOverBoth times n outside (worker.send n times outside).2 failure ∧
      (n.webhook.truthy = true → 1 ≤ worker.maxAttempts →
        Asked n times.posted outside (worker.send n times outside).2) := by
  obtain ⟨server, replies, events⟩ := outside
  obtain ⟨_, seen, mails, goes⟩ := mailChannel_mails worker server n times.mailed
  obtain ⟨mail, rfl⟩ := goes.2 canMail
  obtain ⟨webhook, left, asked, posts, tried⟩ :=
    webhookChannel_posts worker n times.posted replies
  have both : worker.send n times ⟨server, replies, events⟩ =
      (.ok (report mail webhook), ⟨server, left, events ++ seen ++ asked⟩) := by
    rw [send, mails.runs]
    simp only [posts server]
    rfl
  rw [both]
  refine ⟨report mail webhook, rfl, ⟨mail, seen, webhook, asked, mails, posts, rfl, rfl⟩,
    fun wanted once => ⟨seen ++ asked, List.append_assoc .., ?_⟩⟩
  exact List.mem_append_right seen (tried wanted once)

/-- Where mail stops the delivery, no webhook is asked. -/
theorem send_stops (times : Times) (outside : Delivery.Outside)
    (cannot : ¬ worker.CanMail outside.mailServer n) :
    ∃ fault seen, worker.send n times outside =
        (.error fault, { outside with events := outside.events ++ seen }) ∧
      ∀ event ∈ seen, event.isPost = false := by
  obtain ⟨server, replies, events⟩ := outside
  obtain ⟨result, seen, mails, goes⟩ := mailChannel_mails worker server n times.mailed
  cases result with
  | ok mail => exact absurd (goes.1 ⟨mail, rfl⟩) cannot
  | error fault => exact ⟨fault, seen, by rw [send, mails.runs], mails.unasked⟩

/-! ## The history -/

/-- The name of the row that a value stands for in the history. -/
def rowNamed (history : Value) : Option String :=
  if history.truthy then (Store.columnText history).toOption.join else none

/-- A row can be looked up in the history by the value, if there is one. -/
def CanLookUp (history : Value) : Prop :=
  history.truthy = true → ∃ name, Store.columnText history = .ok name

/-- The store in which the row that a value stands for has this outcome. -/
def withOutcome (store : Store) (history : Value) (failure : Option String) : Store :=
  { store with history := store.history.map fun row =>
      if rowNamed history = some row.id then
        { row with notified := failure.isNone, error := failure }
      else row }

variable {store settled : Store} {history : Value}

theorem withOutcome_unnamed (failure : Option String) (unnamed : rowNamed history = none) :
    withOutcome store history failure = store := by
  have same : (store.history.map fun row =>
      if rowNamed history = some row.id then
        { row with notified := failure.isNone, error := failure }
      else row) = store.history := by
    simp [unnamed]
  rw [withOutcome, same]

theorem withOutcome_named {id : String} (failure : Option String)
    (named : rowNamed history = some id) :
    withOutcome store history failure = (store.markNotified id failure).2 := by
  have rest : (store.markNotified id failure).2 =
      { store with history := (store.markNotified id failure).2.history } := by
    unfold Store.markNotified
    split <;> rfl
  rw [rest, Store.markNotified_history, withOutcome]
  simp only [named, Option.some.injEq, eq_comm (a := id)]
  rfl

/-- The outcome is written if a row can be looked up, and nothing else changes. -/
theorem settle_eq_ok {failure : Option String} : settle store history failure = .ok settled ↔
    CanLookUp history ∧ withOutcome store history failure = settled := by
  cases given : history.truthy with
  | false =>
      have unnamed : rowNamed history = none := by rw [rowNamed, given]; rfl
      have unread : settle store history failure = .ok store := by rw [settle, given]; rfl
      have canLookUp : CanLookUp history := fun named => by simp [given] at named
      rw [unread, withOutcome_unnamed failure unnamed, Except.ok.injEq, and_iff_right canLookUp]
  | true =>
      cases read : Store.columnText history with
      | error error =>
          have unread : settle store history failure = .error error := by
            rw [settle, if_pos given, read]
            rfl
          have cannot : ¬ CanLookUp history := fun canLookUp => by
            obtain ⟨name, named⟩ := canLookUp given
            rw [read] at named
            cases named
          simp [unread, cannot]
      | ok name =>
          have canLookUp : CanLookUp history := fun _ => ⟨name, read⟩
          have stands : rowNamed history = name := by
            rw [rowNamed, if_pos given, read]
            rfl
          have written : settle store history failure =
              .ok (withOutcome store history failure) := by
            rw [settle, if_pos given, read]
            cases name with
            | none => rw [withOutcome_unnamed failure stands]; rfl
            | some id => rw [withOutcome_named failure stands]; rfl
          rw [written, Except.ok.injEq, and_iff_right canLookUp]

/-! ## The delivery -/

/-- A notification that the ledger does not know is sent; if that goes through, the outcome is
written; and the delivery goes through if both do. -/
theorem process_cases {result : Except StoreError (Option String)} {later : Link} {after : State}
    (unknown : (worker.isKnown state.ledger link times.asked n).1 = false)
    (processed : worker.process times n link state = (result, later, after)) :
    after.outside = (worker.send n times state.outside).2 ∧
    ((∃ fault, (worker.send n times state.outside).1 = .error fault ∧
        result = .error (.fault fault) ∧ after.store = state.store) ∨
      ∃ failure, (worker.send n times state.outside).1 = .ok failure ∧
        ((∃ error, settle state.store n.history failure = .error error ∧
            result = .error error ∧ after.store = state.store) ∨
          settle state.store n.history failure = .ok after.store ∧ result = .ok failure)) := by
  unfold process at processed
  generalize worker.isKnown state.ledger link times.asked n = answer at unknown processed
  obtain ⟨known, ledger, rest⟩ := answer
  cases unknown
  simp only [Bool.false_eq_true, if_false] at processed
  generalize worker.send n times state.outside = sending at processed ⊢
  obtain ⟨fault | failure, outside⟩ := sending
  · cases processed
    exact ⟨rfl, .inl ⟨fault, rfl, rfl, rfl⟩⟩
  · cases written : settle state.store n.history failure with
    | error error =>
        simp only [written] at processed
        cases processed
        exact ⟨rfl, .inr ⟨failure, rfl, .inl ⟨error, written, rfl, rfl⟩⟩⟩
    | ok store =>
        simp only [written] at processed
        cases processed
        exact ⟨rfl, .inr ⟨failure, rfl, .inr ⟨written, rfl⟩⟩⟩

/-- **No refusal stops the webhook.**  The delivery of a notification that the ledger does not know goes
through exactly if mail does not stop it and the history can be looked into, whatever the mail server
refuses and the receiver replies; its webhook is asked exactly if mail does not stop the delivery;
and if it went through, each channel has done what it does by itself, and the row of the notification
alone has the outcome that was reported. -/
theorem process_isolated {result : Except StoreError (Option String)} {later : Link}
    {after : State} (unknown : (worker.isKnown state.ledger link times.asked n).1 = false)
    (processed : worker.process times n link state = (result, later, after)) :
    ((∃ failure, result = .ok failure) ↔
      worker.CanMail state.outside.mailServer n ∧ CanLookUp n.history) ∧
    (n.webhook.truthy = true → 1 ≤ worker.maxAttempts →
      (Asked n times.posted state.outside after.outside ↔
        worker.CanMail state.outside.mailServer n)) ∧
    (∀ failure, result = .ok failure →
      worker.SentOverBoth times n state.outside after.outside failure ∧
        after.store = withOutcome state.store n.history failure) ∧
    ∀ error, result = .error error → after.store = state.store := by
  obtain ⟨outside, became⟩ := process_cases unknown processed
  rw [outside]
  by_cases canMail : worker.CanMail state.outside.mailServer n
  · obtain ⟨failure, sent, overBoth, asked⟩ := send_goes times state.outside canMail
    rw [sent] at became
    rcases became with ⟨fault, stopped, -⟩ | ⟨_, went, ⟨error, unwritten, rfl, kept⟩ | ⟨written, rfl⟩⟩
    · cases stopped
    · cases went
      have cannotLookUp : ¬ CanLookUp n.history := fun canLookUp => by
        have written : settle state.store n.history failure =
            .ok (withOutcome state.store n.history failure) := settle_eq_ok.2 ⟨canLookUp, rfl⟩
        rw [unwritten] at written
        cases written
      exact ⟨iff_of_false nofun fun can => cannotLookUp can.2,
        fun wanted tried => iff_of_true (asked wanted tried) canMail, nofun, fun _ _ => kept⟩
    · cases went
      obtain ⟨canLookUp, isWritten⟩ := settle_eq_ok.1 written
      refine ⟨iff_of_true ⟨failure, rfl⟩ ⟨canMail, canLookUp⟩,
        fun wanted tried => iff_of_true (asked wanted tried) canMail, ?_, nofun⟩
      intro failure' same
      cases same
      exact ⟨overBoth, isWritten.symm⟩
  · obtain ⟨fault, seen, stopped, unasked⟩ := send_stops times state.outside canMail
    rw [stopped] at became ⊢
    rcases became with ⟨-, -, rfl, kept⟩ | ⟨failure, sent, -⟩
    · refine ⟨iff_of_false nofun fun can => canMail can.1,
        fun _ _ => iff_of_false ?_ canMail, nofun, fun _ _ => kept⟩
      rintro ⟨sent, same, posted⟩
      have postedSeen := List.append_cancel_left same ▸ posted
      exact absurd (unasked _ postedSeen) (by simp [Delivery.Event.isPost])
    · cases sent

/-! ## Two notifications of one row -/

/-- A worker that knows a mail server. -/
def postman : Worker :=
  ⟨false, { (default : Delivery.MailSettings) with host := .text "mail", port := .int 587 }, 3,
    .whole 1⟩

/-- News of the rule with this name, for one recipient and a webhook. -/
def news (name : String) : Notification :=
  ⟨"news", .text "own", "rule", name, "organization", .null, 1, 1, 10, [.text "one@x.y"],
    .text "http://x.y"⟩

/-- A row of the history without an outcome. -/
def openRow (id : String) : HistoryRow := ⟨id, "rule", ⟨0⟩, 1, false, none⟩

/-- The mail server refuses connections, and the history has two rows. -/
def badDay : State :=
  { ids := default, ledger := .empty 60 false
    store := { (default : Store) with history := [openRow "own", openRow "other"] }
    outside := { Delivery.Outside.quiet with mailServer := .refusing } }

/-- An address at a domain. -/
def addressAt (mailbox domain : String) : Delivery.Address :=
  ⟨[], Text.CodePoint.ofText mailbox, Text.CodePoint.ofText domain⟩

/-- A server that refuses connections is not spoken to. -/
theorem not_breaks_refusing (settings : Delivery.MailSettings) :
    ¬ Delivery.MailServer.refusing.Breaks settings := by
  have closed : ¬ Delivery.MailServer.refusing.IsOpen := fun isOpen => nomatch isOpen.connected
  intro breaks
  cases breaks with
  | connecting broken => exact nomatch broken
  | closing connected _ => exact nomatch connected
  | securing isOpen => exact closed isOpen
  | unsayable isOpen => exact closed isOpen
  | admitting isOpen => exact closed isOpen
  | taking ready => exact closed ready.isOpen

theorem canMail_news : postman.CanMail badDay.outside.mailServer (news "errors") := by
  have sender : (addressAt "alerts" "localhost").IsOrdinary := by decide
  have recipient : (addressAt "one" "x.y").IsOrdinary := by decide
  have mailable : Mailable postman.mail (news "errors") :=
    Delivery.mailable_of_ordinary [_] rfl sender rfl (List.forall_mem_singleton.2 recipient)
      (by decide) (by decide) rfl ⟨587, rfl⟩
  exact .inr (.inr ⟨mailable, not_breaks_refusing _⟩)

/-- If the name of the rule has one line, it does not matter that mail is refused. -/
theorem process_isolated_of_refused_mail : ∃ later after,
    postman.process (.still ⟨0⟩) (news "errors") .sound badDay =
        (.ok (some "Email failed: connection refused"), later, after) ∧
      Asked (news "errors") ⟨0⟩ badDay.outside after.outside ∧
      after.store.history =
        [{ openRow "own" with error := some "Email failed: connection refused" },
          openRow "other"] := by
  obtain ⟨result, later, after, processed⟩ : ∃ result later after,
      postman.process (.still ⟨0⟩) (news "errors") .sound badDay = (result, later, after) :=
    ⟨_, _, _, rfl⟩
  have reported : (postman.process (.still ⟨0⟩) (news "errors") .sound badDay).1 =
      .ok (some "Email failed: connection refused") := by
    decide +kernel
  rw [processed] at reported
  cases reported
  obtain ⟨-, asked, recorded, -⟩ := process_isolated rfl processed
  refine ⟨later, after, processed, (asked rfl (by decide)).2 canMail_news, ?_⟩
  rw [(recorded _ rfl).2]
  decide

/-- **A message that cannot be written stops the webhook.**  If the name has two lines, neither the
webhook nor the history hears of the notification. -/
theorem process_stopped_by_two_lines :
    (postman.isKnown badDay.ledger .sound ⟨0⟩ (news "two\nlines")).1 = false ∧
      postman.process (.still ⟨0⟩) (news "two\nlines") .sound badDay =
        (.error (.fault .severalLines), .sound, badDay) :=
  ⟨rfl, rfl⟩

end Worker

end LogAlert
