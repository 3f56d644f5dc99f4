import Doenerstag.Api.Authenticate
import Doenerstag.Db.Tokens

/-!
# What becomes of a credential (`internal/api/authenticate.go`, `internal/api/cookies.go`)

`Middleware` identifies the caller. A Bearer token that does not work is an error; a session cookie
that does not work leaves the request anonymous, expires the cookies and notes the reason in one more.
-/

namespace Doenerstag

open ReadCommitted

def codeInvalidToken : Code := 2004

/-! ## Cookies -/

def sessionCookieName : String := "doener_session"
def csrfCookieName : String := "doener_csrf"
def sessionEndedCookieName : String := "doener_session_ended"

/-- `http.Cookie`; every one of them is `SameSite=Strict`. -/
structure Cookie where
  name : String
  value : String
  path : String
  maxAge : Int
  httpOnly : Bool
  secure : Bool
  deriving DecidableEq, Repr

def clearSessionCookies (secure : Bool) : List Cookie :=
  [sessionCookieName, csrfCookieName].map fun name =>
    { name, value := "", path := "/", maxAge := -1, httpOnly := name == sessionCookieName, secure }

/-- `SessionEndedLifetime` -/
def sessionEndedLifetime : Duration := 5 * 60 * Time.second

def setSessionEndedCookie (code : Code) (secure : Bool) : Cookie :=
  { name := sessionEndedCookieName, value := toString code, path := "/"
    maxAge := sessionEndedLifetime / Time.second, httpOnly := true, secure }

/-- A browser drops the cookie. -/
def Cookie.clears (c : Cookie) (name : String) : Bool := c.name == name && c.maxAge < 0

/-! ## Bearer tokens -/

/-- Letters, digits, `-` and `_`: the characters of `base64.RawURLEncoding`. -/
def isBase64URL (c : Char) : Bool :=
  c.isAlphanum || c == '-' || c == '_'

/-- `base64.RawURLEncoding.EncodedLen(APITokenBytes)` -/
def apiTokenLength : Nat := 43

/-- `ParseBearer`; the scheme is compared without regard to case. -/
def parseBearer (header : String) : Option String :=
  let scheme := "bearer ".toList
  if (header.toList.take scheme.length).map Char.toLower ≠ scheme then none
  else
    let value := trimSpace (String.ofList (header.toList.drop scheme.length))
    if value.toList.length ≠ apiTokenLength then none
    else if value.toList.all isBase64URL then some value
    else none

/-! ## The middleware -/

/-- `Principal`; a caller with a token has no session. -/
structure Caller where
  user : AppUserRow
  sessionID : UUID
  viaToken : Bool
  deriving DecidableEq, Repr

/-- The `Authorization` header and the session cookie of a request; one that is not there is
empty. -/
structure Credentials where
  authorization : String
  session : String

/-- What the rest of the server is asked to answer. -/
inductive Admitted where
  /-- `WriteError` -/
  | refused (err : ApiError)
  /-- `ServeHTTP`, with the caller and the reason why the cookie was refused -/
  | next (caller : Option Caller) (ended : Option ApiError)
  deriving DecidableEq, Repr

/-- `Authenticator`, with what a Bearer token takes. -/
structure Doorman extends Authenticator where
  secure : Bool
  /-- `HashAPIToken` -/
  hashAPIToken : String → String

inductive MiddlewareStmt where
  | fromSession (s : FromSessionStmt)
  /-- `APITokenByHash` -/
  | token
  /-- `a.now()`, for the token's expiry -/
  | tokenNow
  /-- `a.now()`, for the visit -/
  | touchNow
  | touch (s : StampedStmt)
  deriving DecidableEq, Repr

def bearerError (e : DbError) : ApiError :=
  if e = .notFound then .of codeInvalidToken else .of codeDatabaseUnavailable

namespace Doorman

variable (a : Doorman)

def fromBearer (header : String) : Handler MiddlewareStmt Caller :=
  match parseBearer header with
  | none => throw (.of codeInvalidToken)
  | some value => do
    let (token, user) ← (apiTokenByHash .token (a.hashAPIToken value)).mapError bearerError
    let now ← clock .tokenNow
    if token.expired now then throw (.of codeInvalidToken)
    else do
      let now ← clock .touchNow
      let _ ← ((touchAPIToken token.id now touchThrottle).within .touch).succeeds
      pure { user, sessionID := ⟨0⟩, viaToken := true }

/-- `authenticate`: the header wins over the cookie. -/
def authenticate (r : Credentials) : Handler MiddlewareStmt (Option Caller) :=
  if r.authorization ≠ "" then do
    let caller ← a.fromBearer r.authorization
    pure (some caller)
  else if r.session ≠ "" then do
    let p ← (a.fromSession r.session).within .fromSession
    pure (some { user := p.user, sessionID := p.sessionID, viaToken := false })
  else pure none

/-- What comes of a request whose credentials did not work. -/
def turnedAway (r : Credentials) (err : ApiError) : List Cookie × Admitted :=
  if r.authorization ≠ "" then ([], .refused err)
  else (clearSessionCookies a.secure ++ [setSessionEndedCookie err.code a.secure], .next none (some err))

/-- `Middleware`: the cookies it sets, and how the request goes on. -/
def middleware (r : Credentials) : Prog MiddlewareStmt Outcome (World Db Time) Empty
    (List Cookie × Admitted) :=
  (a.authenticate r >>= fun caller => Prog.done ([], Admitted.next caller none)).handle fun err =>
    Prog.done (a.turnedAway r err)

end Doorman

end Doenerstag
