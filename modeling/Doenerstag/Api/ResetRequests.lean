import Doenerstag.Api.ResetTokens
import Doenerstag.Lib.Paths

/-!
# Asking for a password reset (`internal/api/passwordreset.go`)

Whoever asks is told the same, whether there is such an account or not, and whatever becomes of the
mail. The link goes to the address that the account has stored.

* `request_path` — what a request goes through, and the mails it sends.
* `AccountsFound` — the accounts that a name stands for, as the lookups answer.
* `reset_requests_discreet` — **the answers do not depend on the accounts, and each account found
  that has an address gets one mail, with a token of its own, and nobody else does.**
-/

namespace Doenerstag

open ReadCommitted Prog

/-! ## The message -/

/-- `mail.Message` -/
structure Mail where
  recipient : String
  subject : String
  body : String
  deriving DecidableEq, Repr

/-- `User.Label`: the name to show. -/
def AppUserRow.label (u : AppUserRow) : String :=
  if u.displayName.getD "" ≠ "" then u.displayName.getD "" else u.name

/-- `User.Email`; an account without one has the empty address. -/
def AppUserRow.address (u : AppUserRow) : String := u.email.getD ""

def resetMailSubject : String := "Reset your doenerstag password"

/-- `strings.TrimRight` of one character. -/
def trimRight (s : String) (c : Char) : String :=
  String.ofList (s.toList.reverse.dropWhile (· == c)).reverse

def resetLink (baseURL token : String) : String :=
  trimRight baseURL '/' ++ "/reset-password/" ++ token

def resetMailBody (user : AppUserRow) (link : String) : String :=
  "Hello " ++ user.label ++ ",\n\n" ++
    "somebody asked to reset the password of your doenerstag account \"" ++ user.name ++ "\".\n\n" ++
    "Open this link to choose a new one:\n\n" ++ "  " ++ link ++ "\n\n" ++
    "The link stops working after 1h0m0s.\n\n" ++
    "If you did not ask for this, you can ignore this message.\n" ++
    "Your password has not changed.\n"

/-! ## The handler -/

/-- `ResetHandlers`, as far as `request` uses it. -/
structure ResetRequests where
  signer : ResetSigner
  baseURL : String

inductive ResetRequestStmt where
  /-- `UserByName` -/
  | byName
  /-- `UsersByEmail` -/
  | byEmail
  /-- `h.now()` in `issue` -/
  | now
  /-- `Sender.Send` -/
  | send (m : Mail)
  deriving DecidableEq, Repr

/-- The body of the answer to a request that was accepted. -/
structure Accepted where
  status : String
  deriving DecidableEq, Repr

namespace ResetRequests

variable (h : ResetRequests)

/-- `lookupAccounts`: the account with that name, or else every one with that address. -/
def lookupAccounts (name : String) : Handler ResetRequestStmt (List AppUserRow) :=
  (userByName .byName h.signer.rt name >>= fun user => pure [user]).handle fun e =>
    if e = .notFound then (usersByEmail .byEmail h.signer.rt name).handle fun _ => pure []
    else pure []

/-- The message to an account, with a token that was issued at an instant. -/
def mail (user : AppUserRow) (now : Time) : Mail :=
  { recipient := user.address
    subject := resetMailSubject
    body := resetMailBody user (resetLink h.baseURL (h.signer.issueReset user.id now)) }

/-- `issue`: whether the mail is sent is logged, and that is all. -/
def issue (user : AppUserRow) : Handler ResetRequestStmt Unit :=
  if user.address = "" then pure ()
  else do
    let now ← clock .now
    Prog.mark (.send (h.mail user now))

def issueAll : List AppUserRow → Handler ResetRequestStmt Unit
  | [] => pure ()
  | user :: rest => do
    h.issue user
    issueAll rest

/-- `request`, by the name of the decoded body. -/
def request (body : Except ApiError String) : Handler ResetRequestStmt Accepted := do
  let text ← .ofExcept body
  let name := trimSpace text
  if name = "" then
    throw { code := codeMissingField, field := "name"
            detail := "give the user name or the e-mail address of the account" }
  else do
    let users ← h.lookupAccounts name
    h.issueAll users
    pure { status := "accepted" }

end ResetRequests

/-! ## What a request goes through -/

abbrev ResetSteps := List (Taken ResetRequestStmt Outcome (World Db Time))

/-- The mails that are handed to the sender, in their order. -/
def mailsSent (steps : ResetSteps) : List Mail :=
  steps.filterMap fun t =>
    match t.label with
    | .send m => some m
    | _ => none

/-- The accounts that a name stands for, as the lookups answer: the one of that name, or else every
one with that address. A lookup that fails finds none. -/
inductive AccountsFound (rt : Runtime) (name : String) (steps : ResetSteps) :
    List AppUserRow → Prop where
  | byName {e : Outcome} {w : World Db Time} {user : AppUserRow} (mem : ⟨.byName, e, w⟩ ∈ steps)
      (found : e.row (φ := PgError) (w.db.userByName rt name) = .ok user) :
      AccountsFound rt name steps [user]
  | byEmail {e e' : Outcome} {w w' : World Db Time} {users : List AppUserRow}
      (mem : ⟨.byName, e, w⟩ ∈ steps)
      (none : e.row (φ := PgError) (w.db.userByName rt name) = .error .noRows)
      (mem' : ⟨.byEmail, e', w'⟩ ∈ steps)
      (found : e'.rows (φ := PgError) (w'.db.usersByEmail rt name) = .ok users) :
      AccountsFound rt name steps users
  | failed {l : ResetRequestStmt} {w : World Db Time} (mem : ⟨l, .failure, w⟩ ∈ steps)
      (lookup : l = .byName ∨ l = .byEmail) : AccountsFound rt name steps []

/-- The message goes to the address of the account, and its token names the account. -/
def MailTo (h : ResetRequests) (user : AppUserRow) (m : Mail) : Prop :=
  m.recipient = user.address ∧ ∃ token expires,
    m.body = resetMailBody user (resetLink h.baseURL token) ∧
      h.signer.readReset token = some (user.id, expires)

/-- What a request is answered with. -/
def resetAnswer (body : Except ApiError String) : Except ApiError Accepted :=
  match body with
  | .error x => .error x
  | .ok text =>
    if trimSpace text = "" then
      .error { code := codeMissingField, field := "name"
               detail := "give the user name or the e-mail address of the account" }
    else .ok { status := "accepted" }

/-- The name that a request asks for. -/
def resetName (body : Except ApiError String) : Option String :=
  match body with
  | .error _ => none
  | .ok text => if trimSpace text = "" then none else some (trimSpace text)

section Ways

variable {h : ResetRequests} {steps : ResetSteps}

theorem mailsSent_append (steps steps' : ResetSteps) :
    mailsSent (steps ++ steps') = mailsSent steps ++ mailsSent steps' :=
  List.filterMap_append

/-- The accounts stay found when more steps are taken. -/
theorem AccountsFound.append {rt : Runtime} {name : String} {users : List AppUserRow}
    (hfound : AccountsFound rt name steps users) (steps' : ResetSteps) :
    AccountsFound rt name (steps ++ steps') users := by
  cases hfound with
  | byName mem found => exact .byName (List.mem_append_left _ mem) found
  | byEmail mem none mem' found =>
    exact .byEmail (List.mem_append_left _ mem) none (List.mem_append_left _ mem') found
  | failed mem lookup => exact .failed (List.mem_append_left _ mem) lookup

/-- They are accounts of the table. -/
theorem AccountsFound.rows {rt : Runtime} {name : String} {users : List AppUserRow}
    (hfound : AccountsFound rt name steps users) :
    ∀ u ∈ users, ∃ t ∈ steps, u ∈ t.found.db.appUsers := by
  intro u hu
  cases hfound with
  | @byName e w user mem found =>
    rw [List.mem_singleton.mp hu]
    refine ⟨_, mem, ?_⟩
    cases e with
    | failure => cases found
    | noRow => cases found
    | ok =>
      cases hrow : w.db.userByName rt name with
      | none =>
        rw [hrow] at found
        cases found
      | some v =>
        rw [hrow] at found
        cases found
        exact List.mem_of_find?_eq_some hrow
  | @byEmail e e' w w' users mem none mem' found =>
    refine ⟨_, mem', ?_⟩
    have hrows : w'.db.usersByEmail rt name = users := by
      cases e' with
      | failure => cases found
      | noRow | ok => exact Except.ok.inj found
    rw [← hrows] at hu
    exact List.mem_of_mem_filter ((sliceStable_perm _ _).subset hu)
  | failed => cases hu

/-- The lookups end with the accounts they find, whatever becomes of them. -/
theorem lookupAccounts_path {name : String} {r : Except ApiError (List AppUserRow)}
    (hpath : (h.lookupAccounts name).Path steps r) :
    ∃ users, r = .ok users ∧ AccountsFound h.signer.rt name steps users ∧ mailsSent steps = [] := by
  unfold ResetRequests.lookupAccounts at hpath
  rw [userByName, queryRow, read_mapError] at hpath
  rcases path_handle.mp hpath with ⟨users, hfound, rfl⟩ | ⟨first, x, second, rfl, hfailed, hrest⟩
  · obtain ⟨e, w, rest, rfl, hanswer⟩ := path_read_bind.mp hfound
    rcases path_ofExcept_bind.mp hanswer with ⟨y, -, -, hy⟩ | ⟨user, huser, hdone⟩
    · cases hy
    · obtain ⟨rfl, husers⟩ := path_done.mp hdone
      cases husers
      exact ⟨_, rfl, .byName List.mem_cons_self (exceptMapError_eq_ok huser), rfl⟩
  · obtain ⟨e, w, rest, rfl, hanswer⟩ := path_read_bind.mp hfailed
    rcases path_ofExcept_bind.mp hanswer with ⟨y, hy, rfl, hxy⟩ | ⟨user, -, hdone⟩
    · cases hxy
      have hrow := exceptMapError_eq_error hy
      obtain ⟨x', hrow, rfl⟩ := hrow
      rcases Outcome.row_eq_error hrow with ⟨rfl, -⟩ | ⟨rfl, rfl⟩
      · -- nobody has the name, so it may be an address
        rw [show scanError (.noRows : StmtError PgError) = .notFound from rfl, if_pos rfl,
          usersByEmail, query, read_mapError] at hrest
        rcases path_handle.mp hrest with ⟨users, hfound, rfl⟩ | ⟨_, _, _, rfl, hfailed, hdone⟩
        · obtain ⟨e', w', rfl, hanswer⟩ := path_read.mp hfound
          refine ⟨users, rfl, .byEmail List.mem_cons_self hrow
            (List.mem_cons_of_mem _ List.mem_cons_self) (exceptMapError_eq_ok hanswer.symm), rfl⟩
        · obtain ⟨e', w', rfl, hanswer⟩ := path_read.mp hfailed
          obtain ⟨rfl, rfl⟩ := path_done.mp hdone
          obtain ⟨y, hy, -⟩ := exceptMapError_eq_error hanswer.symm
          cases e' with
          | failure =>
            exact ⟨[], rfl, .failed (List.mem_cons_of_mem _ List.mem_cons_self) (.inr rfl), rfl⟩
          | ok | noRow => cases hy
      · rw [if_neg (by decide)] at hrest
        obtain ⟨rfl, rfl⟩ := path_done.mp hrest
        exact ⟨[], rfl, .failed List.mem_cons_self (.inl rfl), rfl⟩
    · cases (path_done.mp hdone).2

/-- An account with an address is sent one mail, another none. -/
theorem issue_path {user : AppUserRow} {r : Except ApiError Unit}
    (hpath : (h.issue user).Path steps r) :
    r = .ok () ∧ (user.address = "" ∧ mailsSent steps = [] ∨
      user.address ≠ "" ∧ ∃ now, mailsSent steps = [h.mail user now]) := by
  unfold ResetRequests.issue at hpath
  split_ifs at hpath with haddress
  · obtain ⟨rfl, rfl⟩ := path_done.mp hpath
    exact ⟨rfl, .inl ⟨haddress, rfl⟩⟩
  · obtain ⟨e, w, rest, rfl, hsend⟩ := path_clock_bind.mp hpath
    obtain ⟨e', w', rest, rfl, hdone⟩ := path_step.mp hsend
    obtain ⟨rfl, rfl⟩ := path_done.mp hdone
    exact ⟨rfl, .inr ⟨haddress, w.now, rfl⟩⟩

/-- **Each account that has an address is sent one mail.** -/
theorem issueAll_path {users : List AppUserRow} {r : Except ApiError Unit}
    (hpath : (h.issueAll users).Path steps r) :
    r = .ok () ∧ List.Forall₂ (fun user m => ∃ now, m = h.mail user now)
      (users.filter fun u => u.address ≠ "") (mailsSent steps) := by
  induction users generalizing steps with
  | nil =>
    obtain ⟨rfl, rfl⟩ := path_done.mp hpath
    exact ⟨rfl, .nil⟩
  | cons user rest ih =>
    rcases path_bind.mp hpath with ⟨x, hissue, -⟩ | ⟨first, u, second, rfl, hissue, hrest⟩
    · cases (issue_path hissue).1
    · obtain ⟨-, hmail⟩ := issue_path hissue
      obtain ⟨rfl, hmails⟩ := ih hrest
      refine ⟨rfl, ?_⟩
      rw [mailsSent_append]
      rcases hmail with ⟨haddress, hnone⟩ | ⟨haddress, now, hone⟩
      · rw [hnone, List.filter_cons_of_neg (by simp [haddress])]
        exact hmails
      · rw [hone, List.filter_cons_of_pos (by simp [haddress])]
        exact .cons ⟨now, rfl⟩ hmails

/-- **What a request goes through**: it is answered by its body alone, and the mails are those to the
accounts that were found. -/
theorem request_path {body : Except ApiError String} {r : Except ApiError Accepted}
    (hpath : (h.request body).Path steps r) :
    r = resetAnswer body ∧ (resetName body = none ∧ mailsSent steps = [] ∨
      ∃ name users, resetName body = some name ∧ AccountsFound h.signer.rt name steps users ∧
        List.Forall₂ (fun user m => ∃ now, m = h.mail user now)
          (users.filter fun u => u.address ≠ "") (mailsSent steps)) := by
  unfold ResetRequests.request at hpath
  rcases path_ofExcept_bind.mp hpath with ⟨x, rfl, rfl, rfl⟩ | ⟨text, rfl, hname⟩
  · exact ⟨rfl, .inl ⟨rfl, rfl⟩⟩
  by_cases hempty : trimSpace text = ""
  · rw [if_pos hempty] at hname
    obtain ⟨rfl, rfl⟩ := path_fail.mp hname
    exact ⟨(if_pos hempty).symm, .inl ⟨if_pos hempty, rfl⟩⟩
  · rw [if_neg hempty] at hname
    rcases path_bind.mp hname with ⟨x, hlookup, -⟩ | ⟨first, users, rest, rfl, hlookup, hissue⟩
    · obtain ⟨users, hx, -⟩ := lookupAccounts_path hlookup
      cases hx
    obtain ⟨_, husers, hfound, hnone⟩ := lookupAccounts_path hlookup
    cases husers
    rcases path_bind.mp hissue with ⟨x, hmails, -⟩ | ⟨second, u, rest, rfl, hmails, hdone⟩
    · cases (issueAll_path hmails).1
    obtain ⟨rfl, rfl⟩ := path_done.mp hdone
    refine ⟨(if_neg hempty).symm, .inr ⟨_, users, if_neg hempty, hfound.append _, ?_⟩⟩
    rw [List.append_nil, mailsSent_append, hnone, List.nil_append]
    exact (issueAll_path hmails).2

end Ways

/-- Requests one after the other, whatever each of them goes through. -/
def Answered (h : ResetRequests) (bodies : List (Except ApiError String))
    (answers : List (Except ApiError Accepted)) : Prop :=
  List.Forall₂ (fun body r => ∃ steps, (h.request body).Path steps r) bodies answers

theorem Answered.eq_map {h : ResetRequests} {bodies : List (Except ApiError String)}
    {answers : List (Except ApiError Accepted)} (hanswered : Answered h bodies answers) :
    answers = bodies.map resetAnswer := by
  induction hanswered with
  | nil => rfl
  | cons hpath _ ih =>
    obtain ⟨steps, hpath⟩ := hpath
    rw [List.map_cons, (request_path hpath).1, ih]

/-- **Asking for a reset reveals nothing.** Two installations answer the same bodies alike, whatever
their accounts are and however their lookups and their mails go. In each, the mails of a request are
one to each account found that has an address, sent there, with a token that names the account. -/
theorem reset_requests_discreet (h₁ h₂ : ResetRequests) :
    (∀ bodies answers₁ answers₂, Answered h₁ bodies answers₁ → Answered h₂ bodies answers₂ →
      answers₁ = answers₂) ∧
    ∀ h ∈ [h₁, h₂], ∀ body steps r, (h.request body).Path steps r →
      (∀ t ∈ steps, ∀ u ∈ t.found.db.appUsers, h.signer.rt.parseUUID u.id.string = some u.id) →
      resetName body = none ∧ mailsSent steps = [] ∨
        ∃ name users, resetName body = some name ∧ AccountsFound h.signer.rt name steps users ∧
          List.Forall₂ (MailTo h) (users.filter fun u => u.address ≠ "") (mailsSent steps) := by
  refine ⟨fun bodies answers₁ answers₂ hanswers₁ hanswers₂ => ?_, fun h _ body steps r hpath hids => ?_⟩
  · rw [hanswers₁.eq_map, hanswers₂.eq_map]
  · refine (request_path hpath).2.imp_right fun ⟨name, users, hname, hfound, hmails⟩ => ?_
    refine ⟨name, users, hname, hfound, ?_⟩
    -- a token names its account, for the account is one of the table
    have hnames : ∀ u ∈ users.filter fun u => u.address ≠ "",
        h.signer.rt.parseUUID u.id.string = some u.id := by
      intro u hu
      obtain ⟨t, ht, hrow⟩ := hfound.rows u (List.mem_of_mem_filter hu)
      exact hids t ht u hrow
    refine ((List.forall₂_and_left _ _).mpr ⟨hnames, hmails⟩).imp ?_
    rintro u m ⟨hu, now, rfl⟩
    exact ⟨rfl, _, _, rfl, h.signer.readReset_issueReset hu now⟩

/-! ## Anna has forgotten her password -/

/-- The request of somebody who has an address, by name. -/
theorem request_byName {h : ResetRequests} {text : String} {w : World Db Time} {user : AppUserRow}
    (hname : trimSpace text ≠ "")
    (hfound : w.db.userByName h.signer.rt (trimSpace text) = some user) (haddress : user.address ≠ "") :
    (h.request (.ok text)).Path
      [⟨.byName, .ok, w⟩, ⟨.now, .ok, w⟩, ⟨.send (h.mail user w.now), .ok, w⟩]
      (.ok { status := "accepted" }) := by
  have hlookup : (h.lookupAccounts (trimSpace text)).Path [⟨.byName, .ok, w⟩] (.ok [user]) := by
    refine path_handle.mpr (.inl ⟨[user], ?_, rfl⟩)
    rw [userByName, queryRow, read_mapError]
    refine path_read_bind.mpr ⟨.ok, w, [], rfl, path_ofExcept_bind.mpr (.inr ⟨user, ?_, .done _⟩)⟩
    rw [hfound]
    rfl
  have hissue : (h.issueAll [user]).Path
      [⟨.now, .ok, w⟩, ⟨.send (h.mail user w.now), .ok, w⟩] (.ok ()) := by
    refine path_bind.mpr (.inr ⟨_, (), [], (List.append_nil _).symm, ?_, .done ()⟩)
    unfold ResetRequests.issue
    rw [if_neg haddress]
    exact path_clock_bind.mpr ⟨.ok, w, _, rfl, path_step.mpr ⟨.ok, w, [], rfl, .done ()⟩⟩
  unfold ResetRequests.request
  refine path_ofExcept_bind.mpr (.inr ⟨text, rfl, ?_⟩)
  rw [if_neg hname]
  refine path_bind.mpr (.inr ⟨_, [user], _, rfl, hlookup, ?_⟩)
  exact path_bind.mpr (.inr ⟨_, (), [], (List.append_nil _).symm, hissue, .done _⟩)

def plainRequests : ResetRequests := { signer := plainResetSigner, baseURL := "https://doener/" }

def annasAccount : AppUserRow :=
  { id := ⟨1⟩, name := "anna", displayName := none, passwordHash := ""
    email := some "anna@example.com", isAdmin := false, lastLoginAt := none }

def annasMailbox : World Db Time :=
  { db := { Db.empty with appUsers := [annasAccount] }, now := Time.second }

/-- She is sent a link, and the answer is that of an installation without accounts. -/
theorem reset_requests_discreet_anna :
    (∃ steps, (plainRequests.request (.ok "anna")).Path steps (.ok { status := "accepted" }) ∧
      ∃ users, AccountsFound .ascii "anna" steps users ∧
        List.Forall₂ (MailTo plainRequests) (users.filter fun u => u.address ≠ "")
          [plainRequests.mail annasAccount Time.second]) ∧
      ∀ answers₁ answers₂, Answered plainRequests [.ok "anna"] answers₁ →
        Answered plainRequests [.ok "anna"] answers₂ → answers₁ = answers₂ := by
  have hname : trimSpace "anna" = "anna" := by decide +kernel
  have hfound : annasMailbox.db.userByName plainRequests.signer.rt (trimSpace "anna") =
      some annasAccount := by
    rw [hname]
    decide +kernel
  have hpath : (plainRequests.request (.ok "anna")).Path _ _ :=
    request_byName (by rw [hname]; decide) hfound (by decide +kernel)
  have hids : ∀ u ∈ annasMailbox.db.appUsers, Runtime.ascii.parseUUID u.id.string = some u.id := by
    decide +kernel
  have hasked : resetName (.ok "anna") = some "anna" := by decide +kernel
  obtain ⟨halike, hmails⟩ := reset_requests_discreet plainRequests plainRequests
  refine ⟨⟨_, hpath, ?_⟩, halike _⟩
  have hread := hmails _ List.mem_cons_self _ _ _ hpath fun t ht => by
    simp only [List.mem_cons, List.not_mem_nil, or_false] at ht
    rcases ht with rfl | rfl | rfl
    · exact hids
    · exact hids
    · exact hids
  rcases hread with ⟨hnone, -⟩ | ⟨name, users, hsome, hrest⟩
  · rw [hasked] at hnone
    cases hnone
  · rw [hasked] at hsome
    cases hsome
    exact ⟨users, hrest⟩

end Doenerstag
