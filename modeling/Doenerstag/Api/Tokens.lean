import Doenerstag.Api.Login
import Doenerstag.Api.Middleware
import Doenerstag.Api.Users
import Doenerstag.Lib.Base64

/-!
# Issuing and revoking API tokens (`internal/api/users.go`, `internal/auth/apitoken.go`)

* `generateAPIToken` — `GenerateAPIToken`; `parseBearer_generated` — **what it generates is a token** for the
  middleware.
* `createToken`, `revokeToken` — the two handlers.
-/

namespace Doenerstag

open ReadCommitted

/-! ## Values -/

def apiTokenBytes : Nat := 32

def apiTokenPrefixLength : Nat := 8

structure GeneratedAPIToken where
  value : String
  hash : String
  tokenPrefix : String
  deriving DecidableEq, Repr

/-- `GenerateAPIToken`, of the bytes that are drawn -/
def generateAPIToken (hashAPIToken : String → String) (raw : List Nat) : GeneratedAPIToken :=
  let value := Base64.encode raw
  { value := String.ofList value
    hash := hashAPIToken (String.ofList value)
    tokenPrefix := String.ofList (value.take apiTokenPrefixLength) }

theorem alphabet_base64URL : ∀ c ∈ Base64.alphabet, isBase64URL c = true ∧ isSpace c = false := by
  decide +kernel

/-- **What is generated is a token**: the middleware reads it back from the header it is sent in. -/
theorem parseBearer_generated {hashAPIToken : String → String} {raw : List Nat}
    (hlength : raw.length = apiTokenBytes) (hbytes : ∀ b ∈ raw, b < 256) :
    parseBearer ("Bearer " ++ (generateAPIToken hashAPIToken raw).value) =
      some (generateAPIToken hashAPIToken raw).value := by
  have hchars : ∀ c ∈ Base64.encode raw, isBase64URL c = true ∧ isSpace c = false :=
    fun c hc => alphabet_base64URL c (Base64.mem_encode hbytes c hc)
  have hvalue : (generateAPIToken hashAPIToken raw).value.toList = Base64.encode raw := String.toList_ofList
  have htrim : trimSpace (String.ofList (Base64.encode raw)) = String.ofList (Base64.encode raw) := by
    apply trimSpace_eq_self
    rw [String.toList_ofList]
    exact fun c hc => (hchars c hc).2
  -- the scheme, and what follows it
  have hscheme : (("Bearer " ++ (generateAPIToken hashAPIToken raw).value).toList.take "bearer ".toList.length).map
      Char.toLower = "bearer ".toList := by
    rw [String.toList_append, hvalue]
    rfl
  have hrest : ("Bearer " ++ (generateAPIToken hashAPIToken raw).value).toList.drop "bearer ".toList.length =
      Base64.encode raw := by
    rw [String.toList_append, hvalue]
    rfl
  have hlen : (Base64.encode raw).length = apiTokenLength := by
    rw [Base64.length_encode, hlength]
    rfl
  unfold parseBearer
  dsimp only
  rw [if_neg (not_not.mpr hscheme), hrest, htrim, String.toList_ofList, if_neg (not_not.mpr hlen),
    if_pos (List.all_eq_true.mpr fun c hc => (hchars c hc).1)]
  rfl

/-! ## The handlers -/

def maxTokenNameLength : Nat := 64

structure CreateTokenRequest where
  name : String
  expiresAt : String

/-- `createTokenResponse`: the value, and the metadata -/
structure CreateTokenResponse where
  token : APIToken
  value : String
  deriving DecidableEq, Repr

inductive TokenStmt where
  | user
  /-- `h.now()` -/
  | now
  | insert
  /-- `APITokenByID` -/
  | token
  | delete
  deriving DecidableEq, Repr

/-- What is called with a call: the id and the bytes that it draws; there are none when the source of
randomness fails. -/
structure CreateTokenCall where
  id : UUID
  raw : Option (List Nat)
  request : Request CreateTokenRequest

def tokenNameTooLong : ApiError :=
  { code := codeInvalidField, field := "name", detail := "the token name may be at most 64 characters" }

def expiryInThePast : ApiError :=
  { code := codeInvalidField, field := "expires_at", detail := "the expiry is in the past" }

def tokenNameTaken : ApiError :=
  { code := codeNameExistsHere, field := "name", detail := "this account already has a token with that name" }

def createTokenError (e : DbError) : ApiError :=
  if e = .nameTaken then tokenNameTaken else .of codeDatabaseUnavailable

/-- `UserHandlers`, with what a token takes. -/
structure TokenHandlers where
  rt : Runtime
  hashAPIToken : String → String

namespace TokenHandlers

variable (h : TokenHandlers)

def parseExpiry (value : String) : Handler TokenStmt (Option Time) := do
  match ← Prog.ofExcept (optionalTime h.rt value "expires_at") with
  | none => pure none
  | some expiry => do
    let now ← clock .now
    if expiry ≤ now then throw expiryInThePast
    else pure (some expiry)

/-- `createToken` once it is known whose it is to be -/
def issueToken (user : UUID) (call : CreateTokenCall) : Handler TokenStmt CreateTokenResponse := do
  let body ← Prog.ofExcept call.request.body
  let name := trimSpace body.name
  Prog.require (name != "") (.on codeMissingField "name")
  Prog.require (!longerThan name maxTokenNameLength) tokenNameTooLong
  let expiresAt ← h.parseExpiry body.expiresAt
  match call.raw with
  | none => throw (.of codeInternal)
  | some raw => do
    let generated := generateAPIToken h.hashAPIToken raw
    let created ← (createAPIToken .insert call.id
      { userID := user, name, hash := generated.hash, tokenPrefix := generated.tokenPrefix
        expiresAt }).mapError createTokenError
    pure { token := created, value := generated.value }

def createToken (call : CreateTokenCall) : Handler TokenStmt CreateTokenResponse := do
  let user ← lookupUser .user h.rt call.request
  let _ ← Prog.ofExcept (requireOwner call.request.principal user.id)
  Prog.ofExcept (requireNotPlaceholder user.id)
  h.issueToken user.id call

/-- `revokeToken` once it is known whose token it is to be -/
def revokeTokenOf (user : UUID) (r : Request Unit) : Handler TokenStmt Unit :=
  match h.rt.parseUUID r.iid with
  | none => throw (.of codeNotFound)
  | some tokenID => do
    let token ← (apiTokenByID .token tokenID).mapError dbError
    Prog.require (token.userID == user) (.of codeNotFound)
    (deleteAPIToken .delete tokenID).mapError databaseUnavailable

def revokeToken (r : Request Unit) : Handler TokenStmt Unit := do
  let user ← lookupUser .user h.rt r
  let _ ← Prog.ofExcept (requireOwner r.principal user.id)
  h.revokeTokenOf user.id r

end TokenHandlers

end Doenerstag
