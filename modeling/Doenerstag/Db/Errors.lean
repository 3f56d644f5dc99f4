/-!
# Errors of the database and of the db package

`PgError` is what PostgreSQL answers a statement with, by SQLSTATE; `DbError` is what a function of
the db package returns (`internal/db/errors.go`), with `failure` for every error it does not name.
-/

namespace Doenerstag

inductive PgError where
  /-- 23505 -/
  | uniqueViolation
  /-- 23503 -/
  | foreignKeyViolation
  /-- a row that refers to the one to be deleted, with `ON DELETE RESTRICT` -/
  | restrictViolation
  /-- 23514 -/
  | checkViolation
  /-- 23502 -/
  | notNullViolation
  /-- 22003 -/
  | outOfRange
  /-- 22007 -/
  | invalidDatetime
  /-- 42P02 -/
  | undefinedParameter
  /-- 42804 -/
  | datatypeMismatch
  deriving DecidableEq, Repr

inductive DbError where
  | notFound
  | unknownReference
  | nameTaken
  | stillReferenced
  | lastContact
  | restaurantLocked
  | wrongRestaurant
  | itemUnavailable
  | itemNotServedThen
  | modificationWrongItem
  | failure
  deriving DecidableEq, Repr

end Doenerstag
