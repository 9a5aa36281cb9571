/-
# LogAlert.Proofs.Delivery.PlainAddresses -- reading the addresses that people have

Lines of addresses are read generously, and much of what is read is not what was meant.  An ordinary
address, which is a mailbox and a domain of words with points between them, has one reading only, and
`addressLine_ordinary` is what one expects of it: a line of ordinary addresses is written into the head
of a message as it stands.  A subject without a question mark has no encoded words, and nothing comes
into it by reading it (`EncodedWord.meant_uncoded`).

The reader tries a group first, then a name with an address between angle brackets, and then a
mailbox with a domain.  Before an `@` the first two do not fit, whatever words they take for a name
(`name_plain`); the third one stops where the words of mailbox and domain stop.
-/
import Mathlib.Data.List.TakeDrop
import LogAlert.Delivery.Email
import LogAlert.Proofs.Outcome
import LogAlert.Proofs.Text.CodePoint

set_option autoImplicit false

namespace LogAlert

namespace Text

/-- Characters that end no line do not matter for what stands behind the line. -/
theorem behindLine_append {before : List Char} (inside : ∀ c ∈ before, c ∉ lineEnds)
    (rest : List Char) : behindLine (before ++ rest) = behindLine rest := by
  induction before with
  | nil => rfl
  | cons c before ih =>
      have goesOn : c ∉ lineEnds := inside c List.mem_cons_self
      have notReturn : c ≠ '\r' := by
        rintro rfl
        exact goesOn (by decide)
      rw [List.cons_append, behindLine, if_neg goesOn]
      · exact ih fun d member => inside d (List.mem_cons_of_mem c member)
      · exact fun _ isReturn => absurd isReturn notReturn

theorem lineEnds_blank : lineEnds.all isBlank = true := by decide

end Text

namespace Delivery

open Text (CodePoint)

open EncodedWord (isSpace)

/-! ## Texts without encoded words -/

namespace EncodedWord

variable {line : List CodePoint} (charsets : Charsets)

/-- An encoded word begins with two characters, the second of which is a question mark. -/
theorem read_eq_none (uncoded : ∀ d ∈ line.tail.head?, d ≠ .char '?') : read charsets line = none := by
  unfold read
  split
  · exact absurd rfl (uncoded _ rfl)
  · rfl

theorem beforeStart_subset (line : List CodePoint) : beforeStart line ⊆ line := by
  fun_induction beforeStart line with
  | case1 => exact List.nil_subset _
  | case2 c rest _ ih => exact List.cons_subset_cons c ih
  | case3 => exact List.nil_subset _

theorem unencoded_subset (line : List CodePoint) :
    (unencoded line).1 ⊆ line ∧ (unencoded line).2 ⊆ line := by
  rw [unencoded, List.span_eq_takeWhile_dropWhile]
  have word := (List.takeWhile_prefix (l := line) (!isSpace ·)).subset
  dsimp only
  split
  · exact ⟨List.Subset.trans (beforeStart_subset _) word, List.drop_subset _ line⟩
  · exact ⟨word, (List.dropWhile_suffix _).subset⟩

/-- Without a question mark nothing is decoded, so that nothing new is in the text. -/
theorem text_subset {ends : CodePoint → Bool}
    {plain : List CodePoint → List CodePoint × List CodePoint}
    (kept : ∀ line, (plain line).1 ⊆ line ∧ (plain line).2 ⊆ line)
    {bound : Nat} {isBehindWord : Bool} (uncoded : .char '?' ∉ line) :
    (text charsets ends plain bound isBehindWord line).1 ⊆ line := by
  induction bound generalizing isBehindWord line with
  | zero => exact List.nil_subset _
  | succ bound ih =>
      cases line with
      | nil => exact List.nil_subset _
      | cons c rest =>
          have unread : read charsets (c :: rest) = none := by
            refine read_eq_none charsets fun d next => ?_
            rintro rfl
            exact uncoded (List.mem_cons_of_mem c (List.mem_of_mem_head? next))
          have goesOn {first behind : List CodePoint} {isWord : Bool} (here : first ⊆ c :: rest)
              (later : behind ⊆ c :: rest) :
              first ++ (text charsets ends plain bound isWord behind).1 ⊆ c :: rest :=
            List.append_subset.2
              ⟨here, List.Subset.trans (ih fun asked => uncoded (later asked)) later⟩
          rw [text, List.span_eq_takeWhile_dropWhile, unread]
          split
          · exact List.nil_subset _
          · cases isSpace c with
            | true =>
                refine goesOn ?_ (List.dropWhile_suffix _).subset
                simp only [if_true]
                split
                · exact List.nil_subset _
                · exact (List.takeWhile_prefix _).subset
            | false => exact goesOn (kept _).1 (kept _).2

/-- A text without a question mark has nothing in the head of a message that it does not show. -/
theorem meant_uncoded (uncoded : .char '?' ∉ line) : meant charsets line ⊆ line :=
  text_subset charsets unencoded_subset uncoded

end EncodedWord

namespace AddressLine

/-! ## Ordinary words -/

/-- The character is one of an ordinary word, which is not encoded. -/
structure IsPlain (c : CodePoint) : Prop where
  isChar : c.char?.isSome = true
  word : endsWord c = false
  visible : c.isBlank = false
  uncoded : c ≠ '?'

/-- Ordinary words with points between them. -/
structure IsDottedPlain (chars : List CodePoint) : Prop where
  dotted : isDotted true chars = true
  plain : ∀ c ∈ chars, c = '.' ∨ IsPlain c

instance (c : CodePoint) : Decidable (IsPlain c) :=
  decidable_of_iff (c.char?.isSome = true ∧ endsWord c = false ∧ c.isBlank = false ∧ c ≠ '?')
    ⟨fun all => ⟨all.1, all.2.1, all.2.2.1, all.2.2.2⟩,
      fun plain => ⟨plain.isChar, plain.word, plain.visible, plain.uncoded⟩⟩

instance (chars : List CodePoint) : Decidable (IsDottedPlain chars) :=
  decidable_of_iff
    (isDotted true chars = true ∧ chars.all (fun c => c = .char '.' ∨ IsPlain c) = true)
    ⟨fun both => ⟨both.1, by simpa using both.2⟩,
      fun dotted => ⟨dotted.dotted, by simpa using dotted.plain⟩⟩

/-- No ordinary word goes on here: the line ends, or the next character is one of two. -/
def Stops (line : List CodePoint) : Prop := ∀ c ∈ line.head?, c = '@' ∨ c = ','

variable {c : CodePoint} {lead chars rest : List CodePoint}

namespace IsPlain

theorem not_special (plain : IsPlain c) : c ∉ specials := by
  have word := plain.word
  simp only [endsWord, Bool.or_eq_false_iff, decide_eq_false_iff_not] at word
  exact word.1

theorem not_space (plain : IsPlain c) : isSpace c = false := by
  have word := plain.word
  simp only [endsWord, Bool.or_eq_false_iff] at word
  exact word.2

theorem ne_special {d : CodePoint} (plain : IsPlain c) (special : d ∈ specials) : c ≠ d := by
  rintro rfl
  exact plain.not_special special

theorem not_endsName (plain : IsPlain c) : endsName c = false := by
  simp [endsName, plain.not_special]

theorem not_lineEnd {d : Char} (plain : IsPlain d) : d ∉ Text.lineEnds := fun ends =>
  Bool.false_ne_true (plain.visible.symm.trans (List.all_eq_true.1 Text.lineEnds_blank d ends))

end IsPlain

namespace IsDottedPlain

theorem isChar (dotted : IsDottedPlain chars) : ∀ c ∈ chars, c.char?.isSome = true := by
  intro c member
  rcases dotted.plain c member with rfl | plain
  · rfl
  · exact plain.isChar

theorem not_lineEnd (dotted : IsDottedPlain chars) :
    ∀ c : Char, ↑c ∈ chars → c ∉ Text.lineEnds := by
  intro c member
  rcases dotted.plain c member with point | plain
  · cases point
    decide
  · exact plain.not_lineEnd

/-- Dotted words begin with a character of a word. -/
theorem head (dotted : IsDottedPlain chars) :
    ∃ c others, chars = c :: others ∧ IsPlain c := by
  obtain ⟨isDotted, plain⟩ := dotted
  cases chars with
  | nil => exact absurd isDotted (by simp [AddressLine.isDotted])
  | cons c others =>
      rcases plain c List.mem_cons_self with rfl | one
      · exact absurd isDotted (by simp [AddressLine.isDotted])
      · exact ⟨c, others, rfl, one⟩

end IsDottedPlain

/-! ## Words that are not encoded -/

variable (charsets : Charsets)

/-- Nothing is decoded between a word and where it stops. -/
theorem read_plain (others : ∀ d ∈ chars, d = '.' ∨ IsPlain d) (stops : Stops rest) :
    EncodedWord.read charsets (c :: (chars ++ rest)) = none := by
  refine EncodedWord.read_eq_none charsets fun d next => ?_
  rw [List.tail_cons, List.head?_append] at next
  cases chars with
  | nil => rcases stops d next with rfl | rfl <;> decide
  | cons second chars =>
      rw [List.head?_cons, Option.some_or] at next
      cases next
      rcases others d List.mem_cons_self with rfl | plain
      · decide
      · exact plain.uncoded

/-! ## Blanks before and behind words -/

/-- Between two addresses stands a blank. -/
def IsLead (lead : List CodePoint) : Prop := lead = [] ∨ lead = [.char ' ']

theorem skipBlanks_of_head (visible : ∀ c ∈ rest.head?, isSpace c = false ∧ c ≠ .char '(') :
    skipBlanks rest = (false, rest) := by
  cases rest with
  | nil => rfl
  | cons c rest =>
      obtain ⟨noSpace, notOpen⟩ := visible c rfl
      simp [skipBlanks, startsWith, behindBlanks, noSpace, notOpen]

theorem skipBlanks_of_stops (stops : Stops rest) : skipBlanks rest = (false, rest) := by
  refine skipBlanks_of_head fun c next => ?_
  rcases stops c next with rfl | rfl <;> decide

theorem skipBlanks_lead (isLead : IsLead lead) (plain : IsPlain c) (rest : List CodePoint) :
    skipBlanks (lead ++ c :: rest) = (!lead.isEmpty, c :: rest) := by
  have notOpen : c ≠ '(' := plain.ne_special (by decide)
  rcases isLead with rfl | rfl
  · simp [skipBlanks, startsWith, behindBlanks, plain.not_space, notOpen]
  · simp [skipBlanks, startsWith, behindBlanks, isSpace, plain.visible, notOpen]

/-! ## Words -/

/-- A run of characters ends where a character behind it has another kind. -/
theorem span_append {kind : CodePoint → Bool} (inside : ∀ c ∈ chars, kind c = true)
    (behind : ∀ c ∈ rest.head?, kind c = false) :
    (chars ++ rest).span kind = (chars, rest) := by
  rw [List.span_eq_takeWhile_dropWhile, List.takeWhile_append_of_pos inside,
    List.dropWhile_append_of_pos inside]
  cases rest with
  | nil => simp
  | cons c rest => simp [behind c rfl]

theorem dottedWords_plain (dotted : IsDottedPlain chars) (stops : Stops rest) :
    dottedWords charsets (chars ++ rest) = some (chars, rest) := by
  have inside : ∀ c ∈ chars, (c = .char '.' || !endsWord c) = true := by
    intro c member
    rcases dotted.plain c member with rfl | plain
    · rfl
    · simp [plain.word]
  have behind : ∀ c ∈ rest.head?, (c = .char '.' || !endsWord c) = false := by
    intro c next
    rcases stops c next with rfl | rfl <;> decide
  have uncoded : EncodedWord.read charsets (chars ++ rest) = none := by
    obtain ⟨c, others, rfl, -⟩ := dotted.head
    exact read_plain charsets (fun d member => dotted.plain d (List.mem_cons_of_mem c member)) stops
  rw [dottedWords, uncoded, span_append inside behind]
  simp only [dotted.dotted, if_true]

/-- What stands behind the rest of a word. -/
def behindWord (chars : List CodePoint) : List CodePoint := chars.dropWhile fun c => !endsWord c

theorem behindWord_append (chars rest : List CodePoint) :
    behindWord (chars ++ .char '@' :: rest) = behindWord chars ++ .char '@' :: rest := by
  have last : (.char '@' :: rest).dropWhile (fun c => !endsWord c) = .char '@' :: rest := rfl
  rw [behindWord, List.dropWhile_append, last]
  split
  · rename_i none
    rw [behindWord, List.isEmpty_iff.1 none, List.nil_append]
  · rfl

theorem skipBlanks_behindWord (others : ∀ c ∈ chars, c = '.' ∨ IsPlain c) :
    skipBlanks (behindWord chars ++ .char '@' :: rest) =
      (false, behindWord chars ++ .char '@' :: rest) := by
  refine skipBlanks_of_head fun c next => ?_
  have ends := Text.head?_dropWhile (fun d => !endsWord d) chars
  cases left : behindWord chars with
  | nil =>
      rw [left] at next
      cases next
      decide
  | cons d behind =>
      rw [left] at next
      cases next
      rw [behindWord] at left
      rw [left] at ends
      have member : c ∈ chars := (List.dropWhile_suffix _).subset (left ▸ List.mem_cons_self)
      rcases others c member with rfl | plain
      · decide
      · exact absurd (ends c rfl) (by simp [plain.word])

/-- A word of dotted words is read up to the next point. -/
theorem word_plain (isLead : IsLead lead) (plain : IsPlain c)
    (others : ∀ d ∈ chars, d = '.' ∨ IsPlain d) (rest : List CodePoint) : ∃ w,
    word charsets (lead ++ c :: (chars ++ .char '@' :: rest)) =
      some (w, behindWord chars ++ .char '@' :: rest) := by
  have uncoded : EncodedWord.read charsets (c :: (chars ++ .char '@' :: rest)) = none :=
    read_plain charsets others (by simp [Stops])
  have notQuote : c ≠ .char '"' := plain.ne_special (by decide)
  have behind : (c :: (chars ++ .char '@' :: rest)).dropWhile (fun d => !endsWord d) =
      behindWord chars ++ .char '@' :: rest := by
    rw [List.dropWhile_cons_of_pos (by simp [plain.word]), ← behindWord, behindWord_append]
  rw [word, skipBlanks_lead isLead plain]
  simp only [plain.not_special, if_false, uncoded, List.span_eq_takeWhile_dropWhile, behind,
    skipBlanks_behindWord others]
  exact ⟨_, rfl⟩

/-! ## Names that are none -/

theorem pieces_word {bound : Nat} {line behind : List CodePoint} {w : Word}
    (startsWord : endsName c = false ∧ c ≠ .char '.' ∧ c ≠ .char '\\')
    (taken : word charsets (c :: line) = some (w, behind)) :
    pieces charsets endsName (bound + 1) (c :: line) =
      (.word w :: (pieces charsets endsName bound behind).1,
        (pieces charsets endsName bound behind).2) := by
  obtain ⟨inName, notPoint, notBackslash⟩ := startsWord
  simp only [pieces, inName, notPoint, notBackslash, taken, if_false, Bool.false_eq_true]

theorem IsPlain.startsWord (plain : IsPlain c) : endsName c = false ∧ c ≠ .char '.' ∧ c ≠ .char '\\' :=
  ⟨plain.not_endsName, plain.ne_special (by decide), plain.ne_special (by decide)⟩

/-- Words and points are taken for pieces of a name. -/
theorem pieces_plain {bound : Nat} (plain : ∀ c ∈ chars, c = '.' ∨ IsPlain c)
    (enough : chars.length ≤ bound) :
    (pieces charsets endsName bound (chars ++ .char '@' :: rest)).2 = .char '@' :: rest := by
  induction bound generalizing chars with
  | zero =>
      rw [List.length_eq_zero_iff.1 (Nat.le_zero.1 enough)]
      rfl
  | succ bound ih =>
      cases chars with
      | nil => rfl
      | cons c others =>
          have plainOthers := fun d member => plain d (List.mem_cons_of_mem c member)
          have shorter : others.length ≤ bound := Nat.le_of_succ_le_succ enough
          rcases plain c List.mem_cons_self with rfl | one
          · exact ih plainOthers shorter
          · obtain ⟨w, taken⟩ := word_plain charsets (.inl rfl) one plainOthers rest
            rw [List.cons_append, pieces_word charsets one.startsWord taken]
            exact ih (fun d member => plainOthers d ((List.dropWhile_suffix _).subset member))
              ((List.dropWhile_suffix _).length_le.trans shorter)

/-- A mailbox is taken for a name, which begins with a word. -/
theorem name_plain (isLead : IsLead lead) (dotted : IsDottedPlain chars) (rest : List CodePoint) :
    ∃ w others, name charsets (lead ++ (chars ++ .char '@' :: rest)) =
      (.word w :: others, .char '@' :: rest) := by
  obtain ⟨c, others, rfl, plain⟩ := dotted.head
  have plainOthers := fun d member => dotted.plain d (List.mem_cons_of_mem c member)
  obtain ⟨w, taken⟩ := word_plain charsets isLead plain plainOthers rest
  have behind (bound : Nat) (enough : others.length ≤ bound) :
      (pieces charsets endsName bound (behindWord others ++ .char '@' :: rest)).2 =
        .char '@' :: rest :=
    pieces_plain charsets (fun d member => plainOthers d ((List.dropWhile_suffix _).subset member))
      ((List.dropWhile_suffix _).length_le.trans enough)
  refine ⟨w, ?_⟩
  rcases isLead with rfl | rfl
  · rw [name]
    exact ⟨_, (pieces_word charsets plain.startsWord taken).trans (by rw [behind _ (by simp)])⟩
  · exact ⟨_, (pieces_word charsets (by decide) taken).trans (by rw [behind _ (by simp; omega)])⟩

theorem ofGroup_plain (isLead : IsLead lead) (dotted : IsDottedPlain chars) :
    Entry.ofGroup charsets (lead ++ (chars ++ .char '@' :: rest)) = .error .misfit := by
  obtain ⟨w, others, read⟩ := name_plain charsets isLead dotted rest
  simp [Entry.ofGroup, read]

theorem named_plain (isLead : IsLead lead) (dotted : IsDottedPlain chars) :
    named charsets (lead ++ (chars ++ .char '@' :: rest)) = .error .misfit := by
  obtain ⟨w, others, read⟩ := name_plain charsets (.inl rfl) dotted rest
  obtain ⟨c, behind, rfl, plain⟩ := dotted.head
  have notBracket : c ≠ .char '<' := plain.ne_special (by decide)
  rw [List.nil_append, List.cons_append] at read
  rw [named, List.cons_append, skipBlanks_lead isLead plain]
  simp [plain.not_endsName, read, bracketed]

/-! ## Mailboxes and domains -/

/-- An ordinary word says what it is. -/
theorem spaced_plain (plain : ∀ c ∈ chars, c = '.' ∨ IsPlain c) : spaced false chars = chars := by
  induction chars with
  | nil => rfl
  | cons c chars ih =>
      have noSpace : isSpace c = false := by
        rcases plain c List.mem_cons_self with rfl | one
        · decide
        · exact one.not_space
      rw [spaced, noSpace, ih fun d member => plain d (List.mem_cons_of_mem c member)]
      rfl

theorem mailbox_plain (isLead : IsLead lead) (dotted : IsDottedPlain chars) :
    Mailbox.ofLine charsets (lead ++ (chars ++ .char '@' :: rest)) =
      .ok (.plain (some chars), .char '@' :: rest) := by
  have stops : Stops (.char '@' :: rest) := by simp [Stops]
  have read := dottedWords_plain charsets dotted stops
  have ends : startsWith (fun d => !endsMailbox d) (.char '@' :: rest) = false := rfl
  have said := spaced_plain dotted.plain
  obtain ⟨c, behind, rfl, plain⟩ := dotted.head
  have notQuote : c ≠ .char '"' := plain.ne_special (by decide)
  rw [List.cons_append] at read
  rw [Mailbox.ofLine, List.cons_append, skipBlanks_lead isLead plain]
  simp only [read, ends, skipBlanks_of_stops stops, said, List.isEmpty_cons, Bool.false_eq_true,
    if_false]

/-- Behind an address the line ends, or a comma follows. -/
def Ends (line : List CodePoint) : Prop := line = [] ∨ ∃ behind, line = .char ',' :: behind

theorem Ends.stops (ends : Ends rest) : Stops rest := by
  rcases ends with rfl | ⟨behind, rfl⟩ <;> simp [Stops]

theorem domain_plain (dotted : IsDottedPlain chars) (ends : Ends rest) :
    domain charsets (chars ++ rest) = .ok (some chars, rest) := by
  have read := dottedWords_plain charsets dotted ends.stops
  have visible : chars.filter (fun c => !c.isBlank) = chars := by
    refine List.filter_eq_self.2 fun c member => ?_
    rcases dotted.plain c member with rfl | plain
    · rfl
    · simp [plain.visible]
  have behind : startsWith (· = .char '@') rest = false ∧
      furtherWords charsets rest.length rest = .ok ([], rest) := by
    rcases ends with rfl | ⟨behind, rfl⟩ <;> exact ⟨rfl, rfl⟩
  obtain ⟨c, others, rfl, plain⟩ := dotted.head
  have start := skipBlanks_lead (.inl rfl) plain (others ++ rest)
  have notBracket : c ≠ .char '[' := plain.ne_special (by decide)
  have noBracket : startsWith (· = .char '[') (c :: (others ++ rest)) = false := by
    simp [startsWith, notBracket]
  rw [List.nil_append] at start
  rw [List.cons_append] at read ⊢
  simp only [domain, start, List.isEmpty_cons, noBracket, read, Option.some_or,
    skipBlanks_of_stops ends.stops, behind.1, behind.2, ok_bind, List.append_nil, visible,
    Bool.false_eq_true, if_false]
  rfl

theorem direct_plain {mailbox domain : List CodePoint} (isLead : IsLead lead)
    (mailboxPlain : IsDottedPlain mailbox) (domainPlain : IsDottedPlain domain)
    (ends : Ends rest) :
    direct charsets (lead ++ (mailbox ++ .char '@' :: (domain ++ rest))) =
      .ok (⟨.plain (some mailbox), domain⟩, rest) := by
  rw [direct, mailbox_plain charsets isLead mailboxPlain, ok_bind]
  simp only [domain_plain charsets domainPlain ends, ok_bind]
  rfl

end AddressLine

/-! ## Lines of addresses -/

namespace Address

open AddressLine

variable {address : Address} {lead rest : List CodePoint}

/-- An ordinary address: mailbox and domain are ordinary words, and nobody is named. -/
structure IsOrdinary (address : Address) : Prop where
  nameless : address.name = []
  mailbox : IsDottedPlain address.mailbox
  domain : IsDottedPlain address.domain

instance (address : Address) : Decidable (IsOrdinary address) :=
  decidable_of_iff (address.name = [] ∧ IsDottedPlain address.mailbox ∧
      IsDottedPlain address.domain)
    ⟨fun all => ⟨all.1, all.2.1, all.2.2⟩,
      fun ordinary => ⟨ordinary.nameless, ordinary.mailbox, ordinary.domain⟩⟩

/-- Characters that mean something else elsewhere do not occur. -/
theorem quotedFor_plain {others text : List CodePoint} (dotted : IsDottedPlain text)
    (point : .char '.' ∉ others) (special : others.all endsWord = true) :
    quotedFor others text = text := by
  refine if_neg fun occurs => ?_
  obtain ⟨c, member, listed⟩ := List.any_eq_true.1 occurs
  rw [decide_eq_true_eq] at listed
  rcases dotted.plain c member with rfl | plain
  · exact point listed
  · exact Bool.false_ne_true (plain.word.symm.trans (List.all_eq_true.1 special c listed))

namespace IsOrdinary

theorem text (ordinary : IsOrdinary address) :
    address.text = address.mailbox ++ .char '@' :: address.domain := by
  have bare : quotedFor (CodePoint.ofText " \t<>@,:;\\[])(\"") address.mailbox = address.mailbox :=
    quotedFor_plain ordinary.mailbox (by decide) (by decide)
  have some : address.domain ≠ [] := by
    obtain ⟨c, others, chars, -⟩ := ordinary.domain.head
    rw [chars]
    exact List.cons_ne_nil c others
  rw [Address.text, if_pos ordinary.nameless, directText, bare, if_pos some]

theorem text_ne_nil (ordinary : IsOrdinary address) : address.text ≠ [] := by
  simp [ordinary.text]

theorem isChar (ordinary : IsOrdinary address) : ∀ c ∈ address.text, c.char?.isSome = true := by
  intro c member
  rw [ordinary.text, List.mem_append, List.mem_cons] at member
  rcases member with inMailbox | rfl | inDomain
  · exact ordinary.mailbox.isChar c inMailbox
  · rfl
  · exact ordinary.domain.isChar c inDomain

theorem oneLine (ordinary : IsOrdinary address) :
    ∀ c : Char, ↑c ∈ address.text → c ∉ Text.lineEnds := by
  intro c member
  rw [ordinary.text, List.mem_append, List.mem_cons] at member
  rcases member with inMailbox | isAt | inDomain
  · exact ordinary.mailbox.not_lineEnd c inMailbox
  · cases isAt
    decide
  · exact ordinary.domain.not_lineEnd c inDomain

end IsOrdinary

/-- What an ordinary address is read as. -/
def entry (address : Address) : Entry :=
  .one (some ⟨none, some ⟨.plain (some address.mailbox), address.domain⟩⟩)

theorem IsOrdinary.ofLine (charsets : Charsets) (ordinary : IsOrdinary address)
    (isLead : IsLead lead) (ends : Ends rest) :
    Entry.ofLine charsets (lead ++ (address.text ++ rest)) = .ok (address.entry, rest) := by
  rw [ordinary.text, List.append_assoc, List.cons_append, Entry.ofLine,
    ofGroup_plain charsets isLead ordinary.mailbox]
  simp only [Reading.orElse, single, named_plain charsets isLead ordinary.mailbox,
    direct_plain charsets isLead ordinary.mailbox ordinary.domain ends, ok_bind]
  rfl

theorem IsOrdinary.meant (ordinary : IsOrdinary address) :
    address.entry.meant = .ok (.one address) := by
  have noBreak : (address.mailbox ++ address.domain).any
      (fun c => c = .char '\r' || c = .char '\n') = false := by
    have noEnd : ∀ c : Char, ↑c ∈ address.mailbox ++ address.domain → c ∉ Text.lineEnds := by
      intro c member
      rcases List.mem_append.1 member with inMailbox | inDomain
      · exact ordinary.mailbox.not_lineEnd c inMailbox
      · exact ordinary.domain.not_lineEnd c inDomain
    refine List.any_eq_false.2 fun c member => ?_
    have none : c ≠ .char '\r' ∧ c ≠ .char '\n' := by
      constructor <;> rintro rfl <;> exact noEnd _ member (by decide)
    simp [none]
  have read : AddressLine.meant (some ⟨none, some ⟨.plain (some address.mailbox),
      address.domain⟩⟩) = .ok address := by
    simp only [AddressLine.meant, nameOf, Mailbox.meant, Option.getD_none, List.isEmpty_nil, if_true,
      ok_bind, pure_bind, List.nil_append, noBreak]
    rw [if_neg Bool.false_ne_true]
    cases address
    cases ordinary.nameless
    rfl
  rw [entry, Entry.meant, read]
  rfl

end Address

namespace AddressLine

variable {lead rest : List CodePoint} (charsets : Charsets)

/-- An entry with nothing but a comma behind it is listed, and reading goes on behind the comma. -/
theorem listed_entry {bound : Nat} {line : List CodePoint} {entry : Entry}
    (found : Entry.ofLine charsets line = .ok (entry, rest)) (some : line ≠ []) (ends : Ends rest) :
    listed charsets (Entry.ofLine charsets) (.one none) Entry.spoiled [] (bound + 1) line = do
      let (others, behind) ←
        listed charsets (Entry.ofLine charsets) (.one none) Entry.spoiled [] bound rest.tail
      return (entry :: others, behind) := by
  obtain ⟨c, line, rfl⟩ := List.exists_cons_of_ne_nil some
  rcases ends with rfl | ⟨behind, rfl⟩
  · simp only [listed, found]
    rfl
  · simp only [listed, found]
    rfl

/-- Ordinary addresses in one line. -/
def charsOf (addresses : List Address) : List CodePoint := withCommas (addresses.map Address.text)

theorem charsOf_singleton (address : Address) : charsOf [address] = address.text := by
  rw [charsOf, withCommas, List.map_singleton, List.intercalate_singleton]

theorem charsOf_cons (address next : Address) (others : List Address) :
    charsOf (address :: next :: others) =
      address.text ++ .char ',' :: .char ' ' :: charsOf (next :: others) := by
  have between : CodePoint.ofText ", " = [.char ',', .char ' '] := by decide
  simp [charsOf, withCommas, between, List.intercalate_cons_cons]

theorem length_le_charsOf {addresses : List Address} (ordinary : ∀ a ∈ addresses, a.IsOrdinary) :
    addresses.length ≤ (charsOf addresses).length := by
  induction addresses with
  | nil => exact Nat.zero_le _
  | cons address others ih =>
      have some := List.length_pos_iff.2 (ordinary address List.mem_cons_self).text_ne_nil
      have shorter := ih fun a member => ordinary a (List.mem_cons_of_mem _ member)
      cases others with
      | nil => rwa [charsOf_singleton]
      | cons next others =>
          simp only [charsOf_cons, List.length_append, List.length_cons] at shorter ⊢
          omega

/-- What holds of the code points of each address, of the comma and of the blank, holds of those of a
line. -/
theorem forall_mem_charsOf {holds : CodePoint → Prop} {addresses : List Address}
    (comma : holds (.char ',')) (blank : holds (.char ' '))
    (inside : ∀ a ∈ addresses, ∀ c ∈ a.text, holds c) : ∀ c ∈ charsOf addresses, holds c := by
  induction addresses with
  | nil => exact nofun
  | cons address others ih =>
      have inAddress := inside address List.mem_cons_self
      have inOthers := ih fun a member => inside a (List.mem_cons_of_mem _ member)
      cases others with
      | nil => rwa [charsOf_singleton]
      | cons next others =>
          intro c member
          rw [charsOf_cons, List.mem_append, List.mem_cons, List.mem_cons] at member
          rcases member with inText | rfl | rfl | behind
          · exact inAddress c inText
          · exact comma
          · exact blank
          · exact inOthers c behind

theorem listed_ordinary {bound : Nat} {address : Address} {others : List Address}
    (ordinary : ∀ a ∈ address :: others, a.IsOrdinary) (isLead : IsLead lead)
    (enough : others.length < bound) :
    listed charsets (Entry.ofLine charsets) (.one none) Entry.spoiled [] bound
        (lead ++ charsOf (address :: others)) =
      .ok ((address :: others).map Address.entry, []) := by
  induction others generalizing address lead bound with
  | nil =>
      obtain ⟨bound, rfl⟩ := Nat.exists_eq_add_one_of_ne_zero (Nat.ne_of_gt enough)
      have found := (ordinary address List.mem_cons_self).ofLine charsets isLead (.inl rfl)
      have some := (ordinary address List.mem_cons_self).text_ne_nil
      rw [List.append_nil] at found
      rw [charsOf_singleton, listed_entry charsets found (by simp [some]) (.inl rfl)]
      cases bound <;> rfl
  | cons next others ih =>
      obtain ⟨bound, rfl⟩ := Nat.exists_eq_add_one_of_ne_zero (Nat.ne_zero_of_lt enough)
      have found := (ordinary address List.mem_cons_self).ofLine charsets isLead
        (.inr ⟨.char ' ' :: charsOf (next :: others), rfl⟩)
      have behind := ih (fun a member => ordinary a (List.mem_cons_of_mem _ member)) (.inr rfl)
        (Nat.lt_of_succ_lt_succ enough)
      rw [charsOf_cons, listed_entry charsets found (by simp) (.inr ⟨_, rfl⟩), List.tail_cons]
      rw [List.cons_append, List.nil_append] at behind
      rw [behind]
      rfl

/-- Ordinary addresses are read as they are written. -/
theorem read_ordinary {addresses : List Address} (ordinary : ∀ a ∈ addresses, a.IsOrdinary) :
    read charsets (charsOf addresses) = .ok (addresses.map .one) := by
  have meant : (addresses.map Address.entry).mapM Entry.meant = .ok (addresses.map .one) := by
    rw [mapM_eq_ok, List.forall₂_map_left_iff, List.forall₂_map_right_iff, List.forall₂_same]
    exact fun a member => (ordinary a member).meant
  rw [read, entries]
  cases addresses with
  | nil => rfl
  | cons address others =>
      have noLead : IsLead [] := .inl rfl
      have listed := listed_ordinary charsets ordinary noLead (length_le_charsOf ordinary)
      rw [List.nil_append] at listed
      simp only [listed, ok_bind]
      exact meant

end AddressLine

namespace Address

open AddressLine

/-- The text of an ordinary address. -/
def shown (address : Address) : String := CodePoint.toText address.text

/-- Ordinary addresses in one text. -/
theorem ofText_joined {addresses : List Address} (ordinary : ∀ a ∈ addresses, a.IsOrdinary) :
    CodePoint.ofText (Value.joined ", " (addresses.map shown)) = charsOf addresses := by
  have texts : (addresses.map shown).map CodePoint.ofText = addresses.map Address.text := by
    rw [List.map_map]
    exact List.map_congr_left fun a member => CodePoint.ofText_toText (ordinary a member).isChar
  rw [CodePoint.ofText_joined, texts]
  rfl

end Address

/-- **A line of ordinary addresses stands in the head of a message as it is.** -/
theorem addressLine_ordinary (charsets : Charsets) {addresses : List Address}
    (ordinary : ∀ a ∈ addresses, a.IsOrdinary) :
    addressLine charsets (Value.joined ", " (addresses.map Address.shown)) =
      .ok (Value.joined ", " (addresses.map Address.shown)) := by
  have points := Address.ofText_joined ordinary
  have chars : ∀ c ∈ AddressLine.charsOf addresses, c.char?.isSome = true :=
    AddressLine.forall_mem_charsOf rfl rfl fun a member => (ordinary a member).isChar
  have oneLine : Text.spansLines (Value.joined ", " (addresses.map Address.shown)) = false := by
    have inside : ∀ c ∈ AddressLine.charsOf addresses, ∀ d : Char, c = ↑d → d ∉ Text.lineEnds :=
      AddressLine.forall_mem_charsOf (by rintro d ⟨⟩; decide) (by rintro d ⟨⟩; decide)
        fun a member c inText d same => (ordinary a member).oneLine d (same ▸ inText)
    have noEnd : ∀ d ∈ (Value.joined ", " (addresses.map Address.shown)).toList,
        d ∉ Text.lineEnds := fun d member =>
      inside (.char d) (points ▸ List.mem_map_of_mem member) d rfl
    have behind := Text.behindLine_append noEnd []
    rw [List.append_nil] at behind
    rw [Text.spansLines, behind]
    rfl
  have line : Addressee.line (addresses.map .one) = AddressLine.charsOf addresses := by
    rw [Addressee.line, AddressLine.charsOf, List.map_map]
    rfl
  rw [addressLine, headText, oneLine, if_neg Bool.false_ne_true, ok_bind, points,
    AddressLine.read_ordinary charsets ordinary, ok_bind, line, CodePoint.written_of_chars chars,
    ← points, CodePoint.toText_ofText]

end Delivery

end LogAlert
