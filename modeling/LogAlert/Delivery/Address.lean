/-
# LogAlert.Delivery.Address -- senders and recipients of mail

An address consists of a mailbox, a domain and the name of a person, of which only the mailbox must
be there. Addresses are written in one line, with commas between them: as `mailbox@domain`, or as a
name and then the rest between angle brackets. Several of them may be a group, which is written as its
name, a colon, the addresses and a semicolon. Each address is written in one way; the one without any
part is written as a pair of angle brackets.

The parts of an address may have been decoded, so they are code points.
-/
import LogAlert.Text.CodePoint

set_option autoImplicit false

namespace LogAlert.Delivery

open Text (CodePoint)

/-- A sender or recipient. A part that is missing is empty. -/
structure Address where
  name : List CodePoint
  mailbox : List CodePoint
  domain : List CodePoint
deriving DecidableEq, Repr, Inhabited

/-- One entry of a line of addresses. -/
inductive Addressee where
  | one (address : Address)
  | group (name : List CodePoint) (members : List Address)
deriving DecidableEq, Repr

/-- Parts of a line with commas between them. -/
def withCommas (parts : List (List CodePoint)) : List CodePoint :=
  (CodePoint.ofText ", ").intercalate parts

namespace Address

/-- A text between double quotes. -/
def inQuotes (text : List CodePoint) : List CodePoint :=
  let escaped := text.flatMap fun (c : CodePoint) =>
    if c = '"' ∨ c = '\\' then [.char '\\', c] else [c]
  CodePoint.char '"' :: escaped ++ [.char '"']

/-- The text, between quotes if it contains one of the characters. -/
def quotedFor (chars : List CodePoint) (text : List CodePoint) : List CodePoint :=
  if text.any (· ∈ chars) then inQuotes text else text

/-- A name, between quotes if it contains a character with a meaning of its own. -/
def nameText (name : List CodePoint) : List CodePoint :=
  quotedFor (CodePoint.ofText ".<>@,:;\\[])(\"") name

/-- Mailbox and domain as they are written. -/
def directText (address : Address) : List CodePoint :=
  let mailbox := quotedFor (CodePoint.ofText " \t<>@,:;\\[])(\"") address.mailbox
  if address.domain ≠ [] then mailbox ++ .char '@' :: address.domain
  else if mailbox = [] then CodePoint.ofText "<>" else mailbox

/-- The address as it is written. -/
def text (address : Address) : List CodePoint :=
  let direct := address.directText
  if address.name = [] then direct
  else
    nameText address.name ++ CodePoint.ofText " <" ++
      (if direct = CodePoint.ofText "<>" then [] else direct) ++ [.char '>']

end Address

namespace Addressee

/-- The entry as it is written. -/
def text : Addressee → List CodePoint
  | .one address => address.text
  | .group name members =>
    let members := withCommas (members.map Address.text)
    Address.nameText name ++ .char ':' :: (if members = [] then [] else .char ' ' :: members) ++
      [.char ';']

/-- Entries in one line. -/
def line (entries : List Addressee) : List CodePoint := withCommas (entries.map text)

end Addressee

end LogAlert.Delivery
