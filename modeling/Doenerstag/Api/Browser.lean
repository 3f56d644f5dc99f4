import Doenerstag.Api.Envelope
import Doenerstag.Api.Login
import Doenerstag.Api.Middleware
import Doenerstag.Go.Strings
import Doenerstag.Lib.Overlap

/-!
# One browser (`internal/api/cookies.go`, `authenticate.go`, `csrf.go`, `auth.go`)

A browser sends any number of requests. Each carries the cookies as they are when it is sent, the server
answers it at some later moment, statement by statement, and the browser applies the cookies of the answer
when that arrives. Cookies do not run out by themselves here.

* `Jar.apply` — `Set-Cookie` headers, in their order.
* `Backend.serve` — a request, from the middleware to the cookies of its answer.
* `Backend.serve_made` — **what the cookies of an answer are**, by what the middleware has made of the session
  cookie and what the handler has done.
* `exchange` — the request, with its way to the server and its answer's way back.
-/

namespace Doenerstag

open ReadCommitted Prog

/-! ## Cookies -/

/-- `setSessionCookies` -/
def setSessionCookies (token csrf : String) (lifetime : Duration) (secure : Bool) : List Cookie :=
  let maxAge := Int.tdiv lifetime Time.second
  [{ name := sessionCookieName, value := token, path := "/", maxAge, httpOnly := true, secure },
    { name := csrfCookieName, value := csrf, path := "/", maxAge, httpOnly := false, secure }]

def clearSessionEndedCookie (secure : Bool) : Cookie :=
  { name := sessionEndedCookieName, value := "", path := "/", maxAge := -1, httpOnly := true, secure }

/-- `sessionEndedFromCookie`, of the value of the cookie -/
def sessionEndedFromCookie (raw : String) : Option Code :=
  if raw = "" then none
  else (parseInt64 raw.toList).bind fun n => if (registry n.toNat).isSome ∧ 0 ≤ n then some n.toNat else none

/-- The cookies that a browser has, by their names. -/
abbrev Jar : Type := String → Option String

namespace Jar

/-- `cookieValue` -/
def value (jar : Jar) (name : String) : String := (jar name).getD ""

def set (jar : Jar) (c : Cookie) : Jar :=
  Function.update jar c.name (if c.maxAge < 0 then none else some c.value)

/-- The `Set-Cookie` headers of an answer, in their order -/
def apply (jar : Jar) (cookies : List Cookie) : Jar := cookies.foldl set jar

end Jar

/-! ## Requests -/

/-- What a page asks for; `create` is what comes before `startSession` in `register`. -/
inductive Asked where
  | login (r : LoginCall) (csrf : String)
  | register (r : LoginCall) (csrf : String) (create : Option Caller → AuthHandler String AppUserRow)
  | logout
  | session
  /-- any other request: its answer sets no cookies, or expires those of the session (`deleteUser`) -/
  | other (safe : Bool) (serve : Option Caller → Prog String Outcome AuthServer Empty Bool)

/-- `isSafeMethod` -/
def Asked.safe : Asked → Bool
  | session => true
  | other safe _ => safe
  | _ => false

/-- `GET /auth/session` -/
def Asked.isNews : Asked → Bool
  | session => true
  | _ => false

/-- The session that a request starts. -/
def Asked.sessionID : Asked → Option UUID
  | login r _ => some r.sessionID
  | register r _ _ => some r.sessionID
  | _ => none

structure PageRequest where
  authorization : String
  /-- `X-CSRF-Token` -/
  csrfToken : String
  asked : Asked

/-- What an answer does to the session of the browser. -/
inductive SessionEffect where
  | kept
  | signedIn (token csrf : String)
  | signedOut
  deriving DecidableEq, Repr

/-- What a handler answers, of the cookies and of a session that has ended. -/
structure Reply where
  cookies : List Cookie
  session : SessionEffect
  reports : Option Code

def Reply.plain : Reply := { cookies := [], session := .kept, reports := none }

inductive ServerStmt where
  | middleware (s : MiddlewareStmt)
  | login (s : LoginStmt)
  | create (l : String)
  | delete
  /-- `SessionByID` -/
  | sessionByID
  | other (l : String)
  deriving DecidableEq, Repr

/-- An answer: the session cookie that its request bore, and the reason why that was refused. -/
structure Answer where
  bore : String
  ended : Option Code
  reply : Reply
  cookies : List Cookie

structure Backend where
  auth : AuthHandlers
  doorman : Doorman

namespace Backend

variable (h : Backend)

/-- The end of `login` and of `register` -/
def signIn (csrf : String) (p : AuthHandler ServerStmt String) : Prog ServerStmt Outcome AuthServer Empty Reply :=
  (p >>= fun token => Prog.done
    { cookies := setSessionCookies token csrf h.auth.absoluteTimeout h.doorman.secure
      session := .signedIn token csrf
      reports := none }).handle fun _ => Prog.done .plain

def login (r : LoginCall) : AuthHandler ServerStmt String := do
  let answer ← (h.auth.login r).within .login
  pure answer.token

def register (r : LoginCall) (create : AuthHandler String AppUserRow) : AuthHandler ServerStmt String := do
  let user ← create.within .create
  let (_, token) ← (h.auth.startSession r user).within .login
  pure token

/-- `clearSessionCookies`, by a handler -/
def signOut : Reply :=
  { cookies := clearSessionCookies h.doorman.secure, session := .signedOut, reports := none }

def logout (caller : Option Caller) : Prog ServerStmt Outcome AuthServer Empty Reply :=
  match caller with
  | none => Prog.done h.signOut
  | some c =>
    if c.sessionID = ⟨0⟩ then Prog.done h.signOut
    else (onDb (deleteSession .delete c.sessionID) >>= fun _ => Prog.done h.signOut).handle fun _ =>
      Prog.done .plain

/-- `session`, up to the account: the news of a session that has ended -/
def session (caller : Option Caller) (ended : Option Code) (notice : String) :
    Prog ServerStmt Outcome AuthServer Empty Reply :=
  match caller with
  | some _ => do
    Prog.mark .sessionByID
    Prog.done .plain
  | none =>
    match ended <|> sessionEndedFromCookie notice with
    | none => Prog.done .plain
    | some code => Prog.done
      { cookies := [clearSessionEndedCookie h.doorman.secure], session := .kept, reports := some code }

def handler (caller : Option Caller) (ended : Option Code) (notice : String) :
    Asked → Prog ServerStmt Outcome AuthServer Empty Reply
  | .login r csrf => h.signIn csrf (h.login r)
  | .register r csrf create => h.signIn csrf (h.register r (create caller))
  | .logout => h.logout caller
  | .session => h.session caller ended notice
  | .other _ serve => do
    let clears ← (serve caller).within .other
    Prog.done (if clears then h.signOut else .plain)

/-- `csrfRequired` -/
def csrfRequired (safe : Bool) (caller : Option Caller) : Bool := !safe && caller.any fun c => !c.viaToken

/-- `EqualCSRFToken` -/
def equalCSRFToken (cookie header : String) : Bool := cookie != "" && header != "" && cookie == header

/-- The middleware and the handler -/
def serve (jar : Jar) (r : PageRequest) : Prog ServerStmt Outcome AuthServer Empty Answer := do
  let bore := jar.value sessionCookieName
  let (cookies, admitted) ← (onDb (h.doorman.middleware { authorization := r.authorization, session := bore })).within
    .middleware
  match admitted with
  | .refused _ => Prog.done { bore, ended := none, reply := .plain, cookies }
  | .next caller ended =>
    let code := ended.map ApiError.code
    if csrfRequired r.asked.safe caller && !equalCSRFToken (jar.value csrfCookieName) r.csrfToken then
      Prog.done { bore, ended := code, reply := .plain, cookies }
    else do
      let reply ← h.handler caller code (jar.value sessionEndedCookieName) r.asked
      Prog.done { bore, ended := code, reply, cookies := cookies ++ reply.cookies }

end Backend

/-! ## What the cookies of an answer are -/

section Made

variable (h : Backend)

/-- What the middleware does to the cookies -/
def Backend.refusalCookies (ended : Option Code) : List Cookie :=
  match ended with
  | none => []
  | some code => clearSessionCookies h.doorman.secure ++ [setSessionEndedCookie code h.doorman.secure]

/-- A handler leaves the cookies alone, signs in, signs out, or reports the end of a session. -/
inductive Reply.Made : Reply → Prop where
  | plain : Made .plain
  | signIn (token csrf : String) : Made
      { cookies := setSessionCookies token csrf h.auth.absoluteTimeout h.doorman.secure
        session := .signedIn token csrf
        reports := none }
  | signOut : Made h.signOut
  | news (code : Code) : Made
      { cookies := [clearSessionEndedCookie h.doorman.secure], session := .kept, reports := some code }

/-- A token was issued for the session that the request starts. -/
def Backend.Signs (asked : Asked) (token : String) : Prop :=
  ∃ claims, h.auth.signer.issue claims = .ok token ∧ asked.sessionID = some claims.sessionID

/-- An answer to a request that was sent with the cookies of the jar. -/
structure Answer.Made (jar : Jar) (r : PageRequest) (a : Answer) : Prop where
  bore : a.bore = jar.value sessionCookieName
  ended_bore : a.ended.isSome → a.bore ≠ ""
  cookies : a.cookies = h.refusalCookies a.ended ++ a.reply.cookies
  reply : a.reply.Made h
  signs : ∀ token csrf, a.reply.session = .signedIn token csrf → h.Signs r.asked token
  asks : a.reply.reports.isSome → r.asked.isNews = true
  reports : ∀ code, a.reply.reports = some code → a.ended = some code ∨
    a.ended = none ∧ r.authorization = "" ∧ a.bore = "" ∧
      sessionEndedFromCookie (jar.value sessionEndedCookieName) = some code

/-- What the middleware makes of the credentials. -/
structure Admission (r : Credentials) (answer : List Cookie × Admitted) : Prop where
  refused : ∀ err, answer.2 = .refused err → answer.1 = []
  next : ∀ caller ended, answer.2 = .next caller ended → answer.1 = h.refusalCookies (ended.map ApiError.code)
  ended : ∀ caller ended, answer.2 = .next caller ended → ended.isSome → r.session ≠ ""
  anonymous : ∀ ended, answer.2 = .next none ended → ended = none → r.authorization = "" ∧ r.session = ""

variable {h}

theorem middleware_admission (r : Credentials) :
    (h.doorman.middleware r).Returns (fun _ => True) (Admission h r) := by
  have haway : ∀ err, r.authorization ≠ "" ∨ r.session ≠ "" → Admission h r (h.doorman.turnedAway r err) := by
    intro err hr
    unfold Doorman.turnedAway
    split_ifs with hheader
    · exact ⟨fun _ _ => rfl, fun _ _ heq => (by cases heq), fun _ _ heq => (by cases heq), fun _ heq => by cases heq⟩
    · refine ⟨fun _ heq => (by cases heq), fun _ _ heq => ?_, fun _ _ _ _ => hr.resolve_left hheader, fun _ heq hnone => ?_⟩
      · cases heq
        rfl
      · subst hnone
        cases heq
  have hnamed : ∀ {β : Type} (p : Handler MiddlewareStmt β) (f : β → Caller), r.authorization ≠ "" ∨ r.session ≠ "" →
      (((p >>= fun b => pure (some (f b))) >>= fun caller => Prog.done ([], Admitted.next caller none)).handle
        fun err => Prog.done (h.doorman.turnedAway r err) :
          Prog MiddlewareStmt Outcome (World Db Time) Empty (List Cookie × Admitted)).Returns
        (fun _ => True) (Admission h r) := by
    intro β p f hr
    have hsome : (p >>= fun b => pure (some (f b))).Returns (fun _ => True) fun caller => caller.isSome = true :=
      .bind (.trivially p) fun b _ => returns_done.mpr rfl
    refine .handle (.bind hsome fun caller hcaller => returns_done.mpr ?_) fun err => returns_done.mpr (haway err hr)
    obtain ⟨c, rfl⟩ := Option.isSome_iff_exists.mp hcaller
    refine ⟨fun _ heq => (by cases heq), fun _ _ heq => ?_, fun _ _ heq hended => ?_, fun _ heq => by cases heq⟩
    · cases heq
      rfl
    · cases heq
      cases hended
  unfold Doorman.middleware Doorman.authenticate
  split_ifs with hheader hsession
  · exact hnamed _ (fun caller => caller) (.inl hheader)
  · exact hnamed _ _ (.inr hsession)
  · refine returns_done.mpr ⟨fun _ heq => (by cases heq), fun _ _ heq => ?_, fun _ _ heq hended => ?_, fun _ _ _ => ?_⟩
    · cases heq
      rfl
    · cases heq
      cases hended
    · exact ⟨not_not.mp hheader, not_not.mp hsession⟩

theorem replaceSession_returns (id : UUID) (new : NewSession) :
    (Doenerstag.replaceSession id new).Returns (fun _ => True) fun session => session.id = id := by
  refine .bind (.trivially _) fun issued _ => .mapError (returning_returns fun w db session _ hupdate => ?_) _
  obtain ⟨-, -, hrow⟩ := Db.replaceSession_eq_ok hupdate
  cases hrow
  rfl

theorem startSession_signs (r : LoginCall) (user : AppUserRow) :
    (h.auth.startSession r user).Returns (fun _ => True) fun answer =>
      ∃ claims, h.auth.signer.issue claims = .ok answer.2 ∧ claims.sessionID = r.sessionID := by
  refine .bind (.trivially _) fun issued _ => .bind (.mapError (.onPart (.within (replaceSession_returns _ _) _)
    fun _ _ => trivial) _) fun session hsession => ?_
  refine .bind (.ofExcept fun token htoken => exceptMapError_eq_ok htoken) fun token htoken => ?_
  refine returns_step.mpr fun e _ _ => ?_
  split_ifs
  · exact returns_fail _
  · exact returns_done.mpr ⟨_, htoken, hsession⟩

theorem login_signs (r : LoginCall) : (h.auth.login r).Returns (fun _ => True) fun answer =>
    ∃ claims, h.auth.signer.issue claims = .ok answer.token ∧ claims.sessionID = r.sessionID := by
  have haccept : ∀ name password user, (h.auth.acceptLogin r name password user).Returns (fun _ => True) fun answer =>
      ∃ claims, h.auth.signer.issue claims = .ok answer.token ∧ claims.sessionID = r.sessionID := fun _ _ user =>
    .bind (.trivially _) fun _ _ => .bind (.trivially _) fun _ _ => .bind (startSession_signs r user) fun _ hstart =>
      .bind (.trivially _) fun _ _ => returns_done.mpr hstart
  refine .bind (.trivially _) fun body _ => .bind (.trivially _) fun _ _ => ?_
  split_ifs
  · exact .bind (.trivially _) fun _ _ => returns_fail _
  · exact .bind (.trivially _) fun user _ => .bind (.trivially _) fun _ _ => haccept _ _ user

/-- What a handler answers, to a caller or to nobody. -/
structure Reply.For (h : Backend) (caller : Option Caller) (ended : Option Code) (notice : String) (asked : Asked)
    (reply : Reply) : Prop where
  made : reply.Made h
  signs : ∀ token csrf, reply.session = .signedIn token csrf → h.Signs asked token
  reports : ∀ code, reply.reports = some code → asked.isNews = true ∧ caller = none ∧
    (ended = some code ∨ ended = none ∧ sessionEndedFromCookie notice = some code)

theorem handler_made (caller : Option Caller) (ended : Option Code) (notice : String) (asked : Asked) :
    (h.handler caller ended notice asked).Returns (fun _ => True) (Reply.For h caller ended notice asked) := by
  have hplain : ∀ asked, Reply.For h caller ended notice asked .plain := fun _ =>
    ⟨.plain, fun _ _ heq => (by cases heq), fun _ heq => by cases heq⟩
  have hsignOut : ∀ asked, Reply.For h caller ended notice asked h.signOut := fun _ =>
    ⟨.signOut, fun _ _ heq => (by cases heq), fun _ heq => by cases heq⟩
  have hsignIn : ∀ (asked : Asked) (csrf : String) (p : AuthHandler ServerStmt String),
      p.Returns (fun _ => True) (h.Signs asked) →
      (h.signIn csrf p).Returns (fun _ => True) (Reply.For h caller ended notice asked) := by
    intro asked csrf p hp
    refine .handle (.bind hp fun token hsigns => returns_done.mpr ?_) fun _ => returns_done.mpr (hplain asked)
    refine ⟨.signIn token csrf, fun token' csrf' heq => ?_, fun _ heq => by cases heq⟩
    cases heq
    exact hsigns
  cases asked with
  | login r csrf =>
    refine hsignIn _ csrf _ (.bind (.within (login_signs r) _) fun answer hanswer => returns_done.mpr ?_)
    obtain ⟨claims, hissue, hid⟩ := hanswer
    exact ⟨claims, hissue, congrArg some hid.symm⟩
  | register r csrf create =>
    refine hsignIn _ csrf _ (.bind (.trivially _) fun user _ => .bind (.within (startSession_signs r user) _)
      fun answer hanswer => returns_done.mpr ?_)
    obtain ⟨claims, hissue, hid⟩ := hanswer
    exact ⟨claims, hissue, congrArg some hid.symm⟩
  | logout =>
    unfold Backend.handler Backend.logout
    dsimp only
    split
    · exact returns_done.mpr (hsignOut _)
    · split_ifs
      · exact returns_done.mpr (hsignOut _)
      · exact .handle (.bind (.trivially _) fun _ _ => returns_done.mpr (hsignOut _)) fun _ =>
          returns_done.mpr (hplain _)
  | session =>
    unfold Backend.handler Backend.session
    dsimp only
    cases caller with
    | some c => exact .bind (.trivially _) fun _ _ => returns_done.mpr (hplain _)
    | none =>
      dsimp only
      cases hcode : (ended <|> sessionEndedFromCookie notice) with
      | none => exact returns_done.mpr (hplain _)
      | some code =>
        refine returns_done.mpr ⟨.news code, fun _ _ heq => (by cases heq), fun code' heq => ⟨rfl, rfl, ?_⟩⟩
        cases heq
        cases ended with
        | none => exact .inr ⟨rfl, hcode⟩
        | some _ => exact .inl hcode
  | other safe serve =>
    refine .bind (.trivially _) fun clears _ => returns_done.mpr ?_
    split_ifs
    · exact hsignOut _
    · exact hplain _

/-- **What the cookies of an answer are.** -/
theorem Backend.serve_made (jar : Jar) (r : PageRequest) :
    (h.serve jar r).Returns (fun _ => True) (Answer.Made h jar r) := by
  have hplain : ∀ (ended : Option Code), (ended.isSome → jar.value sessionCookieName ≠ "") →
      Answer.Made h jar r { bore := jar.value sessionCookieName, ended, reply := .plain
                            cookies := h.refusalCookies ended } := fun ended hbore =>
    ⟨rfl, hbore, (List.append_nil _).symm, .plain, fun _ _ heq => (by cases heq), fun heq => (by cases heq),
      fun _ heq => by cases heq⟩
  unfold Backend.serve
  refine .bind (.within (.onPart (middleware_admission _) fun _ _ => trivial) _) fun answer hadmission => ?_
  obtain ⟨cookies, admitted⟩ := answer
  cases admitted with
  | refused err =>
    have hnone : cookies = [] := hadmission.refused err rfl
    subst hnone
    exact returns_done.mpr (hplain none fun hsome => by cases hsome)
  | next caller ended =>
    have hcookies : cookies = h.refusalCookies (ended.map ApiError.code) := hadmission.next caller ended rfl
    have hbore : (ended.map ApiError.code).isSome → jar.value sessionCookieName ≠ "" := by
      rw [Option.isSome_map]
      exact hadmission.ended caller ended rfl
    subst hcookies
    dsimp only
    split_ifs
    · exact returns_done.mpr (hplain _ hbore)
    · refine .bind (handler_made caller _ _ r.asked) fun reply hreply => returns_done.mpr ?_
      refine ⟨rfl, hbore, rfl, hreply.made, hreply.signs, fun hsome => ?_, fun code hcode => ?_⟩
      · obtain ⟨code, hcode⟩ := Option.isSome_iff_exists.mp hsome
        exact (hreply.reports code hcode).1
      · obtain ⟨-, rfl, hended | ⟨hended, hnotice⟩⟩ := hreply.reports code hcode
        · exact .inl hended
        · obtain ⟨hheader, hsession⟩ := hadmission.anonymous ended rfl (Option.map_eq_none_iff.mp hended)
          exact .inr ⟨hended, hheader, hsession, hnotice⟩

end Made

/-! ## Requests in flight -/

/-- The server, and the cookies of the browser. -/
structure Page where
  server : AuthServer
  jar : Jar

def Page.setServer (server : AuthServer) (p : Page) : Page := { p with server }

inductive PageStmt where
  /-- the request leaves with the cookies there are -/
  | send
  | server (s : ServerStmt)
  /-- the answer arrives -/
  | arrive (a : Answer)

/-- The answer on its way -/
def arrival (a : Answer) : Prog PageStmt Outcome Page Empty Unit :=
  .step (.arrive a) (fun _ p => { p with jar := p.jar.apply a.cookies }) fun _ _ => .done ()

/-- A request and its answer -/
def exchange (h : Backend) (r : PageRequest) : Prog PageStmt Outcome Page Empty Unit :=
  .step .send (fun _ p => p) fun _ p =>
    ((h.serve p.jar r).onPart Page.server Page.setServer).within .server >>= arrival

end Doenerstag
