import Doenerstag.Api.ResetRequests
import Doenerstag.Lib.Rfc5322

/-!
# The address of an account (`internal/api/users.go`, `internal/mail/mail.go`)

An account may have an e-mail address. It is stored as it was typed if it can be read as an address, and a
reset mail goes to what is stored.

* `AddressParser` — what is relied on of `net/mail`.
* `Writable` — an address that the mail client can name as the recipient.
* `accepted_writable_iff` — **what is accepted is one, unless it is an address with a name, a comment or
  blanks, or a group.**
-/

namespace Doenerstag

open Rfc5322

/-! ## The check -/

/-- `mail.ParseAddress`, as far as it accepts a text: addresses only, and a name may be before one. -/
structure AddressParser where
  accepts : Text → Bool
  rfc5322 : ∀ {s : Text}, accepts s = true → Address s
  named : ∀ {name l d : Text}, name ≠ [] → (∀ c ∈ name, c.isAlpha = true) → DotAtomText l → DotAtomText d →
    accepts (name ++ ' ' :: '<' :: (l ++ '@' :: (d ++ ['>']))) = true

def maxEmailLength : Nat := 254

def validateEmail (P : AddressParser) (address : String) : Except ApiError Unit :=
  if address = "" then .ok ()
  else if address.utf8ByteSize > maxEmailLength then
    .error { code := codeInvalidField, field := "email", detail := "the e-mail address is too long" }
  else if P.accepts address.toList = false then
    .error { code := codeInvalidField, field := "email", detail := "this does not look like an e-mail address" }
  else .ok ()

/-! ## The mail client -/

/-- A line break -/
def isLineBreak (c : Char) : Bool := c == '\r' || c == '\n'

def validateHeaderValue (what value : String) : Except String Unit :=
  if value.toList.any isLineBreak then
    .error s!"the {what} contains a line break, which would inject a mail header"
  else if value = "" ∧ what = "recipient" then .error "no recipient address"
  else .ok ()

/-- `Client.Rcpt` -/
def rcpt (recipient : String) : Except String String :=
  if recipient.toList.any isLineBreak then .error "smtp: A line must not contain CR or LF"
  else .ok ("RCPT TO:<" ++ recipient ++ ">\r\n")

/-- `SMTP.Send`, up to the recipient, with a server that does not refuse -/
def rcptOf (m : Mail) : Except String String := do
  validateHeaderValue "recipient" m.recipient
  validateHeaderValue "subject" m.subject
  rcpt m.recipient

/-- A single command that names a recipient, as a mail server reads it -/
def IsRcpt (line : String) (recipient : Text) : Prop :=
  line.toList = "RCPT TO:<".toList ++ (recipient ++ ">\r\n".toList) ∧ BareAddrSpec recipient ∧
    recipient.any isLineBreak = false

/-- The address is nothing else, and the client can name it, and no other, as the recipient. -/
structure Writable (address : String) : Prop where
  bare : BareAddrSpec address.toList
  oneLine : address.toList.any isLineBreak = false
  sent : ∀ subject body : String, subject.toList.any isLineBreak = false → ∃ line,
    rcptOf ⟨address, subject, body⟩ = .ok line ∧ ∀ recipient, IsRcpt line recipient ↔ recipient = address.toList

/-! ## What is accepted -/

theorem validateEmail_eq_ok {P : AddressParser} {address : String} (h : validateEmail P address = .ok ())
    (hsome : address ≠ "") : Address address.toList := by
  unfold validateEmail at h
  rw [if_neg hsome] at h
  split_ifs at h with hlong haccepts
  exact P.rfc5322 (by simpa using haccepts)

theorem bareAddrSpec_ne_empty {address : String} (h : BareAddrSpec address.toList) : address ≠ "" := by
  rintro rfl
  obtain ⟨l, d, -, -, heq⟩ := h
  simp at heq

/-- A bare address on one line is written as it is. -/
theorem writable_of_bare {address : String} (hbare : BareAddrSpec address.toList)
    (hline : address.toList.any isLineBreak = false) : Writable address := by
  refine ⟨hbare, hline, fun subject body hsubject => ⟨"RCPT TO:<" ++ address ++ ">\r\n", ?_, fun recipient => ?_⟩⟩
  · have hsome := bareAddrSpec_ne_empty hbare
    have hrecipient : validateHeaderValue "recipient" address = .ok () := by
      simp [validateHeaderValue, hline, hsome]
    have hheader : validateHeaderValue "subject" subject = .ok () := by
      simp [validateHeaderValue, hsubject]
    simp only [rcptOf, hrecipient, hheader, rcpt, hline]
    rfl
  · have hparts : ("RCPT TO:<" ++ address ++ ">\r\n").toList =
        "RCPT TO:<".toList ++ (address.toList ++ ">\r\n".toList) := by
      simp only [String.toList_append, List.append_assoc]
    unfold IsRcpt
    rw [hparts]
    constructor
    · rintro ⟨heq, -, -⟩
      exact (List.append_cancel_right (List.append_cancel_left heq)).symm
    · rintro rfl
      exact ⟨rfl, hbare, hline⟩

/-- **What is accepted can be written to** if it ends as neither a name-addr nor a group does, no white space
and no comment is in it outside quotes, and it is on one line. -/
theorem accepted_writable_iff (P : AddressParser) (address : String) :
    (validateEmail P address = .ok () → ∀ stored, nullIfEmpty address = some stored → Writable stored) ↔
      (validateEmail P address = .ok () → address ≠ "" →
        Unadorned address.toList ∧ address.toList.any isLineBreak = false) := by
  refine forall_congr' fun haccepted => ?_
  constructor
  · intro h hsome
    have hwritable := h address (if_neg hsome)
    exact ⟨hwritable.bare.unadorned, hwritable.oneLine⟩
  · intro h stored hstored
    unfold nullIfEmpty at hstored
    split_ifs at hstored with hsome
    obtain rfl := Option.some.inj hstored
    obtain ⟨hplain, hline⟩ := h hsome
    exact writable_of_bare ((validateEmail_eq_ok haccepted hsome).bare_iff.mpr hplain) hline

/-- A reset mail goes to the address, if it can be written to. -/
theorem resetMail_sent (h : ResetRequests) {u : AppUserRow} (hu : Writable u.address) (now : Time) : ∃ line,
    rcptOf (h.mail u now) = .ok line ∧ ∀ recipient, IsRcpt line recipient ↔ recipient = u.address.toList :=
  hu.sent _ _ (by decide +kernel)

theorem dotAtomText_of_word {word : Text} (hne : word ≠ []) (hword : word.all isAtext = true) : DotAtomText word :=
  .atom hne (List.all_eq_true.mp hword)

/-- An address with a name before it is accepted, whatever parser it is, and cannot be written to. -/
theorem accepted_not_writable : ¬ ∃ P : AddressParser, ∀ address : String, validateEmail P address = .ok () →
    ∀ stored, nullIfEmpty address = some stored → Writable stored := by
  rintro ⟨P, h⟩
  have haccepts : P.accepts "Jo <jo@localhost>".toList = true := by
    have hname : ∀ c ∈ "Jo".toList, c.isAlpha = true := by decide
    have hjo : DotAtomText "jo".toList := dotAtomText_of_word (by decide) (by decide +kernel)
    have hhost : DotAtomText "localhost".toList := dotAtomText_of_word (by decide) (by decide +kernel)
    exact P.named (by decide) hname hjo hhost
  have hok : validateEmail P "Jo <jo@localhost>" = .ok () := by
    unfold validateEmail
    rw [haccepts]
    rfl
  have hbare := (h _ hok _ rfl).bare.unadorned
  have hend := hbare.ends '>' (by decide)
  exact hend.1 rfl

/-- There are such parsers. -/
theorem nonempty_addressParser : Nonempty AddressParser := by
  classical
  refine ⟨⟨fun s => decide (Address s), fun h => of_decide_eq_true h, fun {name l d} _ _ hl hd => ?_⟩⟩
  apply decide_eq_true
  have hspec : AddrSpec (l ++ '@' :: d) :=
    ⟨[], l, [], [], d, [], .nil, .inl hl, .nil, .nil, .inl hd, .nil, by simp⟩
  have haddress := Address.nameAddr (name ++ [' ']) hspec .nil
  simpa using haddress

end Doenerstag
