import Doenerstag.Go.Strings
import Doenerstag.Lib.Base64
import Doenerstag.Lib.CrLf
import Doenerstag.Lib.Prog
import Doenerstag.Lib.Utf8

/-!
# Mails (`internal/mail/mail.go`)

A mail is put together from texts that users have typed. They are bytes here, as they are in the source.

* `SMTP.compose` — the message. `SMTP.prepare` — the checks of `Send`, and the message it then sends.
* `SMTP.headers` — the headers that the message is to have.
* `ComposedMail` — a message with these headers and this body, and no others.
* `prepare_mail` — **what the checks let through is such a message.**
-/

namespace Doenerstag

open CrLf Prog
open Utf8 (literal literal_append)

def crByte : UInt8 := 13
def lfByte : UInt8 := 10

/-- `Message` -/
structure Message where
  /-- `To` -/
  recipient : List UInt8
  subject : List UInt8
  body : List UInt8
  deriving DecidableEq, Repr

/-- `SMTP`: the address that it sends as -/
structure SMTP where
  rt : Runtime
  sender : List UInt8

/-! ## The subject -/

/-- `isASCII` -/
def isASCII (s : List UInt8) : Bool := (Utf8.characters s).all fun r => r.toNat ≤ 127

/-- `mime.needsEncoding` -/
def needsEncoding (s : List UInt8) : Bool :=
  (Utf8.characters s).any fun r => (r.toNat < 32 || 126 < r.toNat) && r != '\t'

/-- `base64.StdEncoding`, which pads -/
def stdEncoding (s : List UInt8) : List UInt8 :=
  let text := Base64.encodeStandard (s.map UInt8.toNat)
  Utf8.encode (text ++ List.replicate ((4 - text.length % 4) % 4) '=')

/-- The length that `base64.StdEncoding` has -/
def encodedLen (n : Nat) : Nat := (n + 2) / 3 * 4

def maxContentLen : Nat := 63
def maxBase64Len : Nat := 45

/-- The loop of `bEncode`: what each encoded word holds, `current` being in the one that is written -/
def encodedWords (current : List UInt8) : Nat → List UInt8 → List (List UInt8)
  | 0, _ => [current]
  | _ + 1, [] => [current]
  | fuel + 1, b :: rest =>
    let runeLen := ((Utf8.first (b :: rest)).map Char.utf8Size).getD 1
    let rune := (b :: rest).take runeLen
    let left := (b :: rest).drop runeLen
    if current.length + runeLen ≤ maxBase64Len then encodedWords (current ++ rune) fuel left
    else current :: encodedWords rune fuel left

/-- `mime.BEncoding.Encode("UTF-8", s)` -/
def mimeEncode (s : List UInt8) : List UInt8 :=
  if needsEncoding s then
    let words := if encodedLen s.length ≤ maxContentLen then [s] else encodedWords [] s.length s
    (literal " ").intercalate (words.map fun word => literal "=?UTF-8?b?" ++ stdEncoding word ++ literal "?=")
  else s

def encodeSubject (subject : List UInt8) : List UInt8 := if isASCII subject then subject else mimeEncode subject

/-! ## The date -/

def weekdayName (weekday : Int) : String :=
  ["Sun", "Mon", "Tue", "Wed", "Thu", "Fri", "Sat"].getD weekday.toNat ""

def monthName (month : Int) : String :=
  ["Jan", "Feb", "Mar", "Apr", "May", "Jun", "Jul", "Aug", "Sep", "Oct", "Nov", "Dec"].getD (month - 1).toNat ""

/-- `t.Format(time.RFC1123Z)`, in the server's zone -/
def Time.rfc1123Z (rt : Runtime) (t : Time) : String :=
  let offset := rt.zoneOffset t
  let c := t.civil offset
  -- the epoch was a Thursday
  let weekday := ((t / Time.second + offset) / 86400 + 4) % 7
  let zone := (offset.tdiv 60).natAbs
  weekdayName weekday ++ ", " ++ padded 2 c.day ++ " " ++ monthName c.month ++ " " ++ padded 4 c.year ++ " " ++
    padded 2 c.hour ++ ":" ++ padded 2 c.minute ++ ":" ++ padded 2 c.second ++ " " ++
    (if offset.tdiv 60 < 0 then "-" else "+") ++ padded 2 (zone / 60 : Nat) ++ padded 2 (zone % 60 : Nat)

/-! ## The message -/

def normaliseNewlines (s : List UInt8) : List UInt8 :=
  replaceAll (replaceAll s [crByte, lfByte] [lfByte]) [crByte] [lfByte]

/-- `compose` -/
def SMTP.compose (s : SMTP) (msg : Message) (now : Time) : List UInt8 :=
  literal "From: " ++ s.sender ++ literal "\r\n" ++
  literal "To: " ++ msg.recipient ++ literal "\r\n" ++
  literal "Subject: " ++ encodeSubject msg.subject ++ literal "\r\n" ++
  literal "Date: " ++ literal (now.rfc1123Z s.rt) ++ literal "\r\n" ++
  literal "MIME-Version: 1.0\r\n" ++
  literal "Content-Type: text/plain; charset=UTF-8\r\n" ++
  literal "Content-Transfer-Encoding: 8bit\r\n" ++
  literal "Auto-Submitted: auto-generated\r\n" ++
  literal "\r\n" ++
  replaceAll (normaliseNewlines msg.body) [lfByte] [crByte, lfByte]

def SMTP.validateHeaderValue (what : String) (value : List UInt8) : Except String Unit :=
  if value.contains crByte || value.contains lfByte then
    .error ("the " ++ what ++ " contains a line break, which would inject a mail header")
  else if value = [] ∧ what = "recipient" then .error "no recipient address"
  else .ok ()

/-- `Send`, up to the message that it hands to the server -/
def SMTP.prepare (s : SMTP) (msg : Message) (now : Time) : Except String (List UInt8) := do
  SMTP.validateHeaderValue "recipient" msg.recipient
  SMTP.validateHeaderValue "subject" msg.subject
  pure (s.compose msg now)

/-! ## What is to be sent -/

/-- The headers of a message, by name and value -/
def SMTP.headers (s : SMTP) (msg : Message) (now : Time) : List (String × List UInt8) :=
  [("From", s.sender), ("To", msg.recipient), ("Subject", encodeSubject msg.subject),
    ("Date", literal (now.rfc1123Z s.rt)), ("MIME-Version", literal "1.0"),
    ("Content-Type", literal "text/plain; charset=UTF-8"), ("Content-Transfer-Encoding", literal "8bit"),
    ("Auto-Submitted", literal "auto-generated")]

def headerLine (h : String × List UInt8) : List UInt8 := literal h.1 ++ literal ": " ++ h.2

/-- What is before the colon of a line -/
def headerName (line : List UInt8) : List UInt8 := line.takeWhile (· != 58)

/-- A message with these headers, and with the lines of this body -/
structure ComposedMail (headers : List (String × List UInt8)) (body mail : List UInt8) : Prop where
  read : ∃ content, readMessage crByte lfByte [] mail = some (headers.map headerLine, content) ∧
    textLines crByte lfByte content = textLines crByte lfByte body
  names : headers.map (fun h => headerName (headerLine h)) = headers.map fun h => literal h.1
  beforeLF : ∀ before after, mail = before ++ lfByte :: after → ∃ start, before = start ++ [crByte]

/-- Bytes that break no line -/
structure Unbroken (s : List UInt8) : Prop where
  noCR : crByte ∉ s
  noLF : lfByte ∉ s

theorem Unbroken.append {s t : List UInt8} (hs : Unbroken s) (ht : Unbroken t) : Unbroken (s ++ t) where
  noCR := fun h => (List.mem_append.mp h).elim hs.noCR ht.noCR
  noLF := fun h => (List.mem_append.mp h).elim hs.noLF ht.noLF

theorem Unbroken.paired {s : List UInt8} (hs : Unbroken s) : Paired crByte lfByte s := .of_plain hs.noCR hs.noLF

/-! ## Printable text -/

/-- Printable characters of ASCII, which are a byte each -/
def Printable (s : List Char) : Prop := ∀ c ∈ s, 32 ≤ c.toNat ∧ c.toNat < 127

instance (s : List Char) : Decidable (Printable s) := inferInstanceAs (Decidable (∀ c ∈ s, _))

theorem printable_append {s t : List Char} : Printable (s ++ t) ↔ Printable s ∧ Printable t := List.forall_mem_append

theorem Printable.mem_encode {s : List Char} (hs : Printable s) {b : UInt8} (hb : b ∈ Utf8.encode s) :
    32 ≤ b.toNat := by
  obtain ⟨c, hc, hbyte⟩ := List.mem_flatMap.mp hb
  obtain ⟨hlow, hhigh⟩ := hs c hc
  have hsize : c.utf8Size = 1 := Char.utf8Size_eq_one_iff.mpr (UInt32.le_iff_toNat_le.mpr (by
    show c.toNat ≤ 127
    omega))
  rw [String.utf8EncodeChar_eq_singleton hsize, List.mem_singleton] at hbyte
  rw [hbyte]
  show 32 ≤ c.toNat % 256
  omega

theorem Printable.unbroken {s : List Char} (hs : Printable s) : Unbroken (Utf8.encode s) where
  noCR := fun h => absurd (hs.mem_encode h) (by decide)
  noLF := fun h => absurd (hs.mem_encode h) (by decide)

theorem printable_of_isDigit {c : Char} (h : c.isDigit = true) : 32 ≤ c.toNat ∧ c.toNat < 127 := by
  have hrange := isDigit_range h
  omega

theorem padded_printable (width : Nat) (n : Int) : Printable (padded width n).toList := by
  unfold padded
  simp only [String.toList_append, String.toList_ofList, printable_append]
  refine ⟨⟨?_, fun c hc => ?_⟩, fun c hc => ?_⟩
  · split_ifs
    · decide
    · decide
  · rw [(List.mem_replicate.mp hc).2]
    decide
  · exact printable_of_isDigit (mem_toDigits (Nat.toList_repr (n := n.natAbs) ▸ hc))

theorem getD_printable {names : List String} (h : ∀ name ∈ names, Printable name.toList) (n : Nat) :
    Printable (names.getD n "").toList := by
  rw [List.getD_eq_getElem?_getD]
  cases hn : names[n]? with
  | none => exact fun c hc => nomatch hc
  | some name => exact h name (List.mem_of_getElem? hn)

theorem rfc1123Z_printable (rt : Runtime) (t : Time) : Printable (t.rfc1123Z rt).toList := by
  have hweekday (n : Int) : Printable (weekdayName n).toList := getD_printable (by decide) _
  have hmonth (n : Int) : Printable (monthName n).toList := getD_printable (by decide) _
  have hsign : Printable (if (rt.zoneOffset t).tdiv 60 < 0 then "-" else "+").toList := by
    split_ifs
    · decide
    · decide
  unfold Time.rfc1123Z
  simp +decide only [String.toList_append, printable_append, hweekday, hmonth, hsign, padded_printable, and_self]

/-! ## The subject is one line -/

theorem stdEncoding_unbroken (s : List UInt8) : Unbroken (stdEncoding s) := by
  refine Printable.unbroken (printable_append.mpr ⟨fun c hc => ?_, fun c hc => ?_⟩)
  · have halphabet : Printable Base64.standardAlphabet := by decide
    refine halphabet c (Base64.mem_encodeStandard (fun b hb => ?_) c hc)
    obtain ⟨byte, -, rfl⟩ := List.mem_map.mp hb
    exact byte.toNat_lt
  · rw [(List.mem_replicate.mp hc).2]
    decide

theorem Unbroken.intercalate {sep : List UInt8} {parts : List (List UInt8)} (hsep : Unbroken sep)
    (hparts : ∀ part ∈ parts, Unbroken part) : Unbroken (sep.intercalate parts) := by
  induction parts with
  | nil => exact ⟨List.not_mem_nil, List.not_mem_nil⟩
  | cons part rest ih =>
    cases rest with
    | nil => simpa using hparts part List.mem_cons_self
    | cons next rest =>
      rw [List.intercalate_cons_cons]
      exact ((hparts part List.mem_cons_self).append hsep).append
        (ih fun part' hpart' => hparts part' (List.mem_cons_of_mem _ hpart'))

/-- However it is divided into words, what is encoded is printable. -/
theorem mimeEncode_unbroken {s : List UInt8} (hs : Unbroken s) : Unbroken (mimeEncode s) := by
  unfold mimeEncode
  by_cases hneeds : needsEncoding s = true
  · rw [if_pos hneeds]
    refine Unbroken.intercalate (Printable.unbroken (by decide)) fun part hpart => ?_
    obtain ⟨word, -, rfl⟩ := List.mem_map.mp hpart
    exact ((Printable.unbroken (by decide)).append (stdEncoding_unbroken word)).append
      (Printable.unbroken (by decide))
  · rw [if_neg hneeds]
    exact hs

theorem encodeSubject_unbroken {subject : List UInt8} (h : Unbroken subject) : Unbroken (encodeSubject subject) := by
  unfold encodeSubject
  split_ifs
  · exact h
  · exact mimeEncode_unbroken h

/-! ## The body -/

theorem cr_ne_lf : crByte ≠ lfByte := by decide

theorem normaliseNewlines_eq_unix (s : List UInt8) : normaliseNewlines s = unix crByte lfByte s := by
  unfold normaliseNewlines
  fun_induction unix crByte lfByte s with
  | case1 => rfl
  | case2 => rfl
  | case3 a hcr => simp [replaceAll, replaceFrom, List.isPrefixOf, Ne.symm hcr]
  | case4 a b rest hbreak ih =>
    rw [replaceAll_pair, if_pos hbreak, replaceAll_singleton, List.singleton_append, List.flatMap_cons,
      if_neg (Ne.symm cr_ne_lf), ← replaceAll_singleton, ih]
    rfl
  | case5 a b rest hbreak ih =>
    rw [replaceAll_pair, if_neg hbreak, replaceAll_singleton, List.flatMap_cons, ← replaceAll_singleton, ih]
    split_ifs
    · rfl
    · rfl

/-- The body, its lines ending with CR LF -/
theorem body_eq_crlf (s : List UInt8) : replaceAll (normaliseNewlines s) [lfByte] [crByte, lfByte] =
    crlf crByte lfByte (unix crByte lfByte s) := by
  rw [replaceAll_singleton, normaliseNewlines_eq_unix]
  rfl

/-! ## What is sent -/

section Sent

variable {s : SMTP} {msg : Message} {now : Time} {mail : List UInt8}

theorem validateHeaderValue_unbroken {what : String} {value : List UInt8}
    (h : SMTP.validateHeaderValue what value = .ok ()) : Unbroken value := by
  unfold SMTP.validateHeaderValue at h
  split_ifs at h with hbreak
  rw [Bool.or_eq_true, not_or, List.contains_iff_mem, List.contains_iff_mem] at hbreak
  exact ⟨hbreak.1, hbreak.2⟩

/-- The message is the lines of its headers, an empty one, and its body. -/
theorem compose_eq : s.compose msg now =
    (((s.headers msg now).map headerLine).flatMap fun l => l ++ [crByte, lfByte]) ++
      crByte :: lfByte :: crlf crByte lfByte (unix crByte lfByte msg.body) := by
  have hbreak : literal "\r\n" = [crByte, lfByte] := by decide
  have hname (name : String) : literal (name ++ ": ") = literal name ++ literal ": " := literal_append name ": "
  have hline (name value : String) :
      literal (name ++ ": " ++ value ++ "\r\n") =
        literal name ++ literal ": " ++ literal value ++ [crByte, lfByte] := by
    rw [literal_append, literal_append, literal_append, hbreak]
  unfold SMTP.compose
  rw [body_eq_crlf, hbreak, show "From: " = "From" ++ ": " from rfl, show "To: " = "To" ++ ": " from rfl,
    show "Subject: " = "Subject" ++ ": " from rfl, show "Date: " = "Date" ++ ": " from rfl, hname, hname, hname,
    hname, show "MIME-Version: 1.0\r\n" = "MIME-Version" ++ ": " ++ "1.0" ++ "\r\n" from rfl,
    show "Content-Type: text/plain; charset=UTF-8\r\n" =
      "Content-Type" ++ ": " ++ "text/plain; charset=UTF-8" ++ "\r\n" from rfl,
    show "Content-Transfer-Encoding: 8bit\r\n" = "Content-Transfer-Encoding" ++ ": " ++ "8bit" ++ "\r\n" from rfl,
    show "Auto-Submitted: auto-generated\r\n" = "Auto-Submitted" ++ ": " ++ "auto-generated" ++ "\r\n" from rfl,
    hline, hline, hline, hline]
  simp only [SMTP.headers, headerLine, List.map_cons, List.map_nil, List.flatMap_cons, List.flatMap_nil,
    List.append_assoc, List.cons_append, List.nil_append]

theorem headerName_line {name : String} (hname : 58 ∉ literal name) (value : List UInt8) :
    headerName (headerLine (name, value)) = literal name := by
  have hall : ∀ b ∈ literal name, (b != 58) = true := fun b hb => bne_iff_ne.mpr fun h => hname (h ▸ hb)
  have hcolon : literal ": " = [58, 32] := by decide
  unfold headerName headerLine
  rw [hcolon, List.append_assoc, List.takeWhile_append_of_pos hall]
  simp

/-- The names that are written have no colon, and their lines are none that are empty. -/
theorem mem_headers {h : String × List UInt8} (hh : h ∈ s.headers msg now) :
    h.1 ∈ ["From", "To", "Subject", "Date", "MIME-Version", "Content-Type", "Content-Transfer-Encoding",
      "Auto-Submitted"] :=
  List.mem_map_of_mem (f := Prod.fst) hh

theorem headers_named {h : String × List UInt8} (hh : h ∈ s.headers msg now) :
    58 ∉ literal h.1 ∧ Printable h.1.toList := by
  have hall : ∀ name ∈ ["From", "To", "Subject", "Date", "MIME-Version", "Content-Type",
      "Content-Transfer-Encoding", "Auto-Submitted"], 58 ∉ literal name ∧ Printable name.toList := by decide
  exact hall h.1 (mem_headers hh)

theorem headers_unbroken (hsender : Unbroken s.sender) (hrecipient : Unbroken msg.recipient)
    (hsubject : Unbroken msg.subject) {h : String × List UInt8} (hh : h ∈ s.headers msg now) : Unbroken h.2 := by
  have hfixed (text : String) (htext : Printable text.toList) : Unbroken (literal text) := htext.unbroken
  simp only [SMTP.headers, List.mem_cons, List.not_mem_nil, or_false] at hh
  rcases hh with rfl | rfl | rfl | rfl | rfl | rfl | rfl | rfl <;> dsimp only
  · exact hsender
  · exact hrecipient
  · exact encodeSubject_unbroken hsubject
  · exact hfixed (now.rfc1123Z s.rt) (rfc1123Z_printable s.rt now)
  · exact hfixed "1.0" (by decide)
  · exact hfixed "text/plain; charset=UTF-8" (by decide)
  · exact hfixed "8bit" (by decide)
  · exact hfixed "auto-generated" (by decide)

/-- **What the checks let through is sent with the headers that are written, and no others.** -/
theorem prepare_mail (hsender : Unbroken s.sender) (hmail : s.prepare msg now = .ok mail) :
    ComposedMail (s.headers msg now) msg.body mail := by
  unfold SMTP.prepare at hmail
  obtain ⟨_, hrecipient, hmail⟩ := exceptBind_eq_ok hmail
  obtain ⟨_, hsubject, hmail⟩ := exceptBind_eq_ok hmail
  cases hmail
  have hvalues : ∀ h ∈ s.headers msg now, Unbroken h.2 := fun h hh =>
    headers_unbroken hsender (validateHeaderValue_unbroken hrecipient) (validateHeaderValue_unbroken hsubject) hh
  have hlines : ∀ l ∈ (s.headers msg now).map headerLine, Unbroken l ∧ l ≠ [] := by
    intro l hl
    obtain ⟨h, hh, rfl⟩ := List.mem_map.mp hl
    refine ⟨((headers_named hh).2.unbroken.append (Printable.unbroken (by decide))).append (hvalues h hh), ?_⟩
    have hcolon : literal ": " = [58, 32] := by decide
    simp [headerLine, hcolon]
  rw [compose_eq]
  refine ⟨⟨_, readMessage_lines (fun l hl => (hlines l hl).1.noCR) (fun l hl => (hlines l hl).2) _,
    textLines_crlf cr_ne_lf msg.body⟩, ?_, ?_⟩
  · exact List.map_congr_left fun h hh => headerName_line (headers_named hh).1 h.2
  · intro before after hsplit
    have hpaired : Paired crByte lfByte
        ((((s.headers msg now).map headerLine).flatMap fun l => l ++ [crByte, lfByte]) ++
          crByte :: lfByte :: crlf crByte lfByte (unix crByte lfByte msg.body)) :=
      (Paired.flatMap fun l hl => (hlines l hl).1.paired.append (.pair .nil)).append
        (.pair (paired_crlf (not_mem_unix cr_ne_lf msg.body)))
    exact hpaired.before_lf cr_ne_lf hsplit

/-- A mail to Anna, with an umlaut in its subject and all kinds of line breaks in its body. -/
def annasMail : Message :=
  { recipient := literal "anna@example.org", subject := literal "Grüße", body := literal "Hello\r\nAnna\rand\n\nbye" }

theorem prepare_mail_anna : ∃ mail,
    SMTP.prepare { rt := .ascii, sender := literal "doenerstag@localhost" } annasMail 0 = .ok mail ∧
      ComposedMail (SMTP.headers { rt := .ascii, sender := literal "doenerstag@localhost" } annasMail 0)
        annasMail.body mail := by
  have hrecipient : SMTP.validateHeaderValue "recipient" annasMail.recipient = .ok () := by rfl
  have hsubject : SMTP.validateHeaderValue "subject" annasMail.subject = .ok () := by rfl
  have hprepare : SMTP.prepare { rt := .ascii, sender := literal "doenerstag@localhost" } annasMail 0 =
      .ok (SMTP.compose { rt := .ascii, sender := literal "doenerstag@localhost" } annasMail 0) := by
    rw [SMTP.prepare, hrecipient, hsubject]
    rfl
  exact ⟨_, hprepare, prepare_mail ⟨by decide, by decide⟩ hprepare⟩

end Sent

end Doenerstag
