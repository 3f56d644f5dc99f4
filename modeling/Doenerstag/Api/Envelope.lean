import Doenerstag.Api.Login

/-!
# How an error is sent (`internal/api/errors.go`)

A code has a status and an English text, from one table. What a caller is sent of an error is the
status, the code, a text and the field it names; the request id is left out.
-/

namespace Doenerstag

/-- `definition` -/
structure Definition where
  status : Nat
  message : String
  deriving DecidableEq, Repr

def registry : Code → Option Definition
  -- request validation
  | 1000 => some ⟨400, "malformed JSON body"⟩
  | 1001 => some ⟨400, "required field missing"⟩
  | 1002 => some ⟨400, "field value out of range or wrongly formatted"⟩
  | 1003 => some ⟨400, "deadline must be before the fulfilment time"⟩
  | 1004 => some ⟨400, "quantity must be at least 1"⟩
  | 1005 => some ⟨400, "menu item does not belong to the order's restaurant"⟩
  | 1006 => some ⟨400, "modification does not belong to the selected menu item"⟩
  | 1007 => some ⟨400, "restaurant needs at least one contact entry"⟩
  | 1008 => some ⟨400, "opening hours entry has equal start and end time"⟩
  | 1009 => some ⟨400, "user name already taken"⟩
  | 1010 => some ⟨400, "password does not meet the minimum requirements"⟩
  | 1011 => some ⟨413, "uploaded image exceeds the configured maximum size"⟩
  | 1012 => some ⟨415, "unsupported image media type"⟩
  | 1013 => some ⟨400, "unknown currency code"⟩
  | 1014 => some ⟨400, "the deadline is already in the past"⟩
  | 1015 => some ⟨400, "this password reset link is not valid"⟩
  | 1016 => some ⟨400, "this password reset link has expired"⟩
  -- authentication
  | 2000 => some ⟨401, "not authenticated"⟩
  | 2001 => some ⟨401, "invalid user name or password"⟩
  | 2002 => some ⟨401, "session expired"⟩
  | 2003 => some ⟨401, "session superseded by a newer login"⟩
  | 2004 => some ⟨401, "invalid or revoked API token"⟩
  | 2005 => some ⟨403, "missing or invalid CSRF token"⟩
  | 2006 => some ⟨403, "already logged in; log out before registering another account"⟩
  -- authorization
  | 3000 => some ⟨403, "administrator privileges required"⟩
  | 3001 => some ⟨403, "only the order creator may change this order"⟩
  | 3002 => some ⟨403, "only the owner may change this order item"⟩
  | 3003 => some ⟨403, "the deleted-user placeholder cannot be modified"⟩
  | 3004 => some ⟨403, "only participants of this order may see its summary or its chat"⟩
  | 3005 => some ⟨403, "only the owner of this resource may act on it"⟩
  | 3006 => some ⟨403, "only the person doing this job, the order's creator or the administrator may do that"⟩
  -- resource state
  | 4000 => some ⟨404, "resource not found"⟩
  | 4001 => some ⟨409, "order deadline has passed; the order is read-only"⟩
  | 4002 => some ⟨409, "the restaurant cannot be changed once the order has items"⟩
  | 4003 => some ⟨409, "the restaurant is still referenced by an order"⟩
  | 4004 => some ⟨409, "menu item is marked unavailable"⟩
  | 4005 => some ⟨409, "name already exists within this restaurant"⟩
  | 4006 => some ⟨405, "the HTTP method is not allowed on this path"⟩
  | 4007 => some ⟨409, "somebody is already doing this"⟩
  | 4008 => some ⟨409, "the kitchen does not make this at the order's time"⟩
  -- rate limiting
  | 5000 => some ⟨429, "too many login attempts"⟩
  -- server and database
  | 9000 => some ⟨500, "unexpected server error"⟩
  | 9001 => some ⟨503, "database unavailable"⟩
  | _ => none

/-- `Code.Status`: a code that is not registered is a programming error. -/
def Code.status (c : Code) : Nat := ((registry c).map Definition.status).getD 500

/-- `Code.Message` -/
def Code.message (c : Code) : String :=
  ((registry c).map Definition.message).getD "unexpected server error"

/-- No failure is reported as a success. -/
theorem error_status (c : Code) : 400 ≤ Code.status c := by
  unfold Code.status registry
  split <;> decide

/-- `Error.Error` -/
def ApiError.message (e : ApiError) : String :=
  if e.detail ≠ "" then e.detail else Code.message e.code

/-- `envelopeBody` -/
structure EnvelopeBody where
  code : Code
  message : String
  field : String
  deriving DecidableEq, Repr

/-- The body that `WriteError` writes. -/
def ApiError.body (e : ApiError) : EnvelopeBody :=
  { code := e.code, message := e.message, field := e.field }

end Doenerstag
