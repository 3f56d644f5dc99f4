import Doenerstag.Db.Orders

/-!
# Requests, answers and the checks of their fields

What every handler shares: the error it answers with (`internal/api/errors.go`), the caller and the
authorization helpers (`authorize.go`), the validators of a field (`fields.go`), and the translation
of an error of the db package (`dberrors.go`).
-/

namespace Doenerstag

open ReadCommitted

/-! ## Errors -/

abbrev Code := Nat

def codeMissingField : Code := 1001
def codeInvalidField : Code := 1002
def codeDeadlineAfterFulfil : Code := 1003
def codeQuantityTooSmall : Code := 1004
def codeItemWrongRestaurant : Code := 1005
def codeModificationWrongItem : Code := 1006
def codeDeadlineInThePast : Code := 1014
def codeNotAuthenticated : Code := 2000
def codeAdminRequired : Code := 3000
def codeNotOrderCreator : Code := 3001
def codeNotItemOwner : Code := 3002
def codePlaceholderReadOnly : Code := 3003
def codeNotOwner : Code := 3005
def codeNotJobHolder : Code := 3006
def codeNotFound : Code := 4000
def codeOrderClosed : Code := 4001
def codeRestaurantLocked : Code := 4002
def codeRestaurantInUse : Code := 4003
def codeItemUnavailable : Code := 4004
def codeNameExistsHere : Code := 4005
def codeJobTaken : Code := 4007
def codeItemNotServedThen : Code := 4008
def codeDatabaseUnavailable : Code := 9001

/-- `api.Error`, as the caller sees it. -/
structure ApiError where
  code : Code
  field : String
  detail : String
  deriving DecidableEq, Repr

def ApiError.of (code : Code) : ApiError := { code := code, field := "", detail := "" }

def ApiError.on (code : Code) (field : String) : ApiError :=
  { code := code, field := field, detail := "" }

/-- A handler, from the request to the answer. -/
abbrev Handler (ℓ : Type) : Type → Type := Program ℓ Db Time ApiError

/-- The standard translation of a failure from the db package. -/
def dbError (e : DbError) : ApiError :=
  match e with
  | .notFound => .of codeNotFound
  | .unknownReference =>
    { code := codeInvalidField, field := "", detail := "a referenced record does not exist" }
  | .restaurantLocked => .of codeRestaurantLocked
  | _ => .of codeDatabaseUnavailable

/-- Any failure is the database's. -/
def databaseUnavailable (_ : DbError) : ApiError := .of codeDatabaseUnavailable

/-! ## The caller -/

structure Principal where
  userID : UUID
  isAdmin : Bool
  deriving DecidableEq, Repr

/-- What a handler reads of a request: the path parameters, who is calling, and the decoded body or
the error of decoding it. -/
structure Request (β : Type) where
  id : String
  iid : String
  principal : Option Principal
  body : Except ApiError β

def Principal.is (p : Principal) (id : UUID) : Bool := p.userID == id

def requireAuthenticated (principal : Option Principal) : Except ApiError Principal :=
  match principal with
  | some p => .ok p
  | none => .error (.of codeNotAuthenticated)

def requireAdmin (principal : Option Principal) : Except ApiError Principal := do
  let p ← requireAuthenticated principal
  if !p.isAdmin then
    throw (.of codeAdminRequired)
  pure p

/-- The creator of an order, or the administrator. -/
def requireCreator (principal : Option Principal) (creatorID : UUID) :
    Except ApiError Principal := do
  let p ← requireAuthenticated principal
  if !p.is creatorID && !p.isAdmin then
    throw (.of codeNotOrderCreator)
  pure p

/-- The account's owner, or the administrator. -/
def requireOwner (principal : Option Principal) (ownerID : UUID) : Except ApiError Principal := do
  let p ← requireAuthenticated principal
  if !p.is ownerID && !p.isAdmin then
    throw (.of codeNotOwner)
  pure p

def requireNotPlaceholder (id : UUID) : Except ApiError Unit :=
  if id = deletedUserID then .error (.of codePlaceholderReadOnly) else .ok ()

/-- `loadParam`: an id that does not parse and an id nothing has are the same answer. -/
def loadParam {ℓ α : Type} (rt : Runtime) (param : String) (load : UUID → DbProgram ℓ α) :
    Handler ℓ α :=
  match rt.parseUUID param with
  | none => throw (.of codeNotFound)
  | some id => (load id).mapError dbError

theorem loadParam_reads {ℓ α : Type} {L : ℓ → Prop} {rt : Runtime} {param : String}
    {load : UUID → DbProgram ℓ α} (h : ∀ id, (load id).Reads L) :
    (loadParam rt param load).Reads L := by
  unfold loadParam
  cases rt.parseUUID param with
  | none => exact .fail _
  | some id => exact (h id).mapError _

/-! ## Fields -/

def invalidID (field : String) : ApiError :=
  { code := codeInvalidField, field := field, detail := "this is not a valid identifier" }

def longerThan (value : String) (limit : Nat) : Bool := limit < value.length

def requiredUUID (rt : Runtime) (value field : String) : Except ApiError UUID :=
  let trimmed := trimSpace value
  if trimmed = "" then .error (.on codeMissingField field)
  else match rt.parseUUID trimmed with
    | none => .error (invalidID field)
    | some id => .ok id

def parseIDList (rt : Runtime) (values : List String) (field : String) :
    Except ApiError (List UUID) :=
  values.mapM fun raw =>
    match rt.parseUUID (trimSpace raw) with
    | none => .error (invalidID field)
    | some id => .ok id

/-- An RFC 3339 timestamp that may be absent. -/
def optionalTime (rt : Runtime) (value field : String) : Except ApiError (Option Time) :=
  let trimmed := trimSpace value
  if trimmed = "" then .ok none
  else match rt.parseTime trimmed with
    | none => .error { code := codeInvalidField, field := field,
                       detail := "the time must be an RFC 3339 timestamp" }
    | some t => .ok (some t)

/-- An RFC 3339 timestamp that must be present. -/
def requiredTime (rt : Runtime) (value field : String) : Except ApiError Time := do
  match ← optionalTime rt value field with
  | none => throw (.on codeMissingField field)
  | some t => pure t

def validateFreeText (value field : String) (limit : Nat) : Except ApiError Unit :=
  if longerThan (trimSpace value) limit then
    .error { code := codeInvalidField, field := field, detail := "this value is too long" }
  else .ok ()

/-- A check of a field that is left out when the field is. -/
def whenPresent {α β ℓ : Type} (field : Option α) (check : α → Handler ℓ β) :
    Handler ℓ (Option β) :=
  match field with
  | some v => do
    let b ← check v
    pure (some b)
  | none => pure none

theorem whenPresent_reads {α β ℓ : Type} {L : ℓ → Prop} {field : Option α}
    {check : α → Handler ℓ β} (hcheck : ∀ v, (check v).Reads L) :
    (whenPresent field check).Reads L := by
  cases field with
  | none => exact .done _
  | some v => exact .bind (hcheck v) fun _ => .done _

end Doenerstag
