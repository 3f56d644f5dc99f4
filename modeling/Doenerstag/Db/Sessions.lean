import Doenerstag.Db.OrderItems

/-!
# Sessions (`internal/db/sessions.go`)

The time that a caller may leave open, and the statements on the `session` table. A login re-keys the
account's row; everything else goes by the row's id, except for the end of all sessions of an account.
-/

namespace Doenerstag

open ReadCommitted

/-- Go's zero `time.Time`, the first of January of the year 1. -/
def zeroTime : Time := daysFromCivil 1 1 1 * 86400 * Time.second

/-- `at`: the zero time stands for now. -/
def stampAt {ℓ : Type} (l : ℓ) (t : Time) : DbProgram ℓ Time :=
  if t = zeroTime then clock l else pure t

theorem stampAt_reads {ℓ : Type} {L : ℓ → Prop} {l : ℓ} (hl : L l) (t : Time) :
    (stampAt l t).Reads L := by
  unfold stampAt
  split_ifs
  · exact clock_reads hl
  · exact .done t

/-- The moment the caller's time stands for. -/
def stampOf (clock t : Time) : Time := if t = zeroTime then clock else t

theorem stampAt_run {ℓ : Type} {ω : ℓ → Outcome} {w : World Db Time} (l : ℓ) (t : Time) :
    (stampAt l t).run ω w = (.ok (stampOf w.now t), w) := by
  unfold stampAt stampOf
  split_ifs
  · exact run_read ω l _ w
  · rfl

/-! ## The rows -/

@[simps] def Db.setSessions (db : Db) (rows : List SessionRow) : Db := { db with sessions := rows }

/-- `sessionColumns` -/
structure Session where
  id : UUID
  userID : UUID
  issuedAt : Time
  lastSeenAt : Time
  absoluteExpires : Time
  remoteAddr : String
  userAgent : String
  deriving DecidableEq, Repr

def SessionRow.scan (s : SessionRow) : Session :=
  { id := s.id
    userID := s.userID
    issuedAt := s.issuedAt
    lastSeenAt := s.lastSeenAt
    absoluteExpires := s.absoluteExpires
    remoteAddr := s.remoteAddr.getD ""
    userAgent := s.userAgent.getD "" }

namespace Session

variable (s : Session)

/-- `Expired` (`internal/model/session.go`) -/
def expired (now : Time) : Bool := s.absoluteExpires ≤ now

def idle (now : Time) (timeout : Duration) : Bool := timeout < now - s.lastSeenAt

end Session

/-- What a successful login supplies. -/
structure NewSession where
  userID : UUID
  lifetime : Duration
  remoteAddr : String
  userAgent : String
  issuedAt : Time

/-- A duration as an `interval` holds it, in whole microseconds. -/
def pgInterval (d : Duration) : Duration := (d + 500) / 1000 * 1000

def NewSession.row (new : NewSession) (id : UUID) (issued : Time) : SessionRow :=
  { id := id
    userID := new.userID
    issuedAt := pgTime issued
    lastSeenAt := pgTime issued
    absoluteExpires := pgTime issued + pgInterval new.lifetime
    remoteAddr := if new.remoteAddr = "" then none else some new.remoteAddr
    userAgent := if new.userAgent = "" then none else some new.userAgent }

/-! ## The statements -/

namespace Db

/-- `INSERT … ON CONFLICT (user_id) DO UPDATE`: the account's row, or a new one. -/
def upsertSession (row : SessionRow) (sessions : List SessionRow) : List SessionRow :=
  if sessions.any fun s => s.userID == row.userID then
    sessions.map fun s => if s.userID == row.userID then row else s
  else sessions ++ [row]

/-- `INSERT INTO session … ON CONFLICT (user_id) DO UPDATE SET … RETURNING` -/
def replaceSession (row : SessionRow) (db : Db) : Except PgError (Db × Option Session) :=
  if row.absoluteExpires ≤ row.issuedAt then .error .checkViolation
  else if (db.userByID row.userID).isNone then .error .foreignKeyViolation
  else if db.sessions.any fun s => s.id == row.id && s.userID != row.userID then
    .error .uniqueViolation
  else .ok (db.setSessions (upsertSession row db.sessions), some row.scan)

def session (db : Db) (id : UUID) : Option SessionRow := db.sessions.find? fun s => s.id == id

/-- `SELECT … FROM session s JOIN app_user u ON u.id = s.user_id WHERE s.id = …` -/
def sessionWithUser (db : Db) (id : UUID) : Option (Session × AppUserRow) := do
  let s ← db.session id
  let u ← db.userByID s.userID
  pure (s.scan, u)

/-- `UPDATE session SET last_seen_at = … WHERE id = … AND last_seen_at < …` -/
def touchSession (id : UUID) (stamp : Time) (throttle : Duration) (db : Db) :
    Except PgError (Db × Nat) :=
  let stale (s : SessionRow) : Bool :=
    s.id == id && s.lastSeenAt < pgTime stamp - pgInterval throttle
  .ok (db.setSessions
    (db.sessions.map fun s => if stale s then { s with lastSeenAt := pgTime stamp } else s),
    db.sessions.countP stale)

/-- `DELETE FROM session WHERE id = …` -/
def deleteSession (id : UUID) (db : Db) : Except PgError (Db × Nat) :=
  .ok (db.setSessions (db.sessions.filter fun s => s.id != id), db.sessions.countP fun s => s.id == id)

/-- `DELETE FROM session WHERE user_id = …` -/
def deleteSessionsForUser (user : UUID) (db : Db) : Except PgError (Db × Nat) :=
  .ok (db.setSessions (db.sessions.filter fun s => s.userID != user),
    db.sessions.countP fun s => s.userID == user)

end Db

namespace Db

/-- The account's row is the new one, and the others are as they were. -/
theorem mem_upsertSession {row s : SessionRow} {sessions : List SessionRow} :
    s ∈ upsertSession row sessions ↔ s = row ∨ (s ∈ sessions ∧ s.userID ≠ row.userID) := by
  unfold upsertSession
  split_ifs with hmine
  · obtain ⟨old, hold, hsame⟩ := List.any_eq_true.mp hmine
    constructor
    · intro hs
      obtain ⟨p, hp, rfl⟩ := List.mem_map.mp hs
      split_ifs with hp'
      · exact .inl rfl
      · exact .inr ⟨hp, by simpa using hp'⟩
    · rintro (rfl | ⟨hs, hother⟩)
      · exact List.mem_map.mpr ⟨old, hold, if_pos hsame⟩
      · exact List.mem_map.mpr ⟨s, hs, if_neg (by simpa using hother)⟩
  · rw [List.mem_append, List.mem_singleton]
    constructor
    · rintro (hs | rfl)
      · exact .inr ⟨hs, fun hsame => hmine (List.any_eq_true.mpr ⟨s, hs, beq_iff_eq.mpr hsame⟩)⟩
      · exact .inl rfl
    · rintro (rfl | ⟨hs, -⟩)
      · exact .inr rfl
      · exact .inl hs

/-- What a login finds, and what it leaves. -/
theorem replaceSession_eq_ok {row : SessionRow} {db : Db} {r : Db × Option Session}
    (h : db.replaceSession row = .ok r) :
    (db.userByID row.userID).isSome ∧ (∀ s ∈ db.sessions, s.id = row.id → s.userID = row.userID) ∧
      r = (db.setSessions (upsertSession row db.sessions), some row.scan) := by
  unfold replaceSession at h
  split_ifs at h with hcheck huser hunique
  cases h
  refine ⟨Option.isSome_iff_ne_none.mpr (by simpa using huser), fun s hs hid => ?_, rfl⟩
  by_contra hother
  exact hunique (List.any_eq_true.mpr ⟨s, hs, by simp [hid, hother]⟩)

end Db

/-- The two steps of `ReplaceSession` and of `TouchSession`. -/
inductive StampedStmt where
  /-- `at` -/
  | now
  | write
  deriving DecidableEq, Repr

/-- `ReplaceSession`; the id is freshly generated. -/
def replaceSession (id : UUID) (new : NewSession) : DbProgram StampedStmt Session := do
  let issued ← stampAt .now new.issuedAt
  (returning .write fun _ => Db.replaceSession (new.row id issued)).mapError scanError

def sessionWithUser {ℓ : Type} (l : ℓ) (id : UUID) : DbProgram ℓ (Session × AppUserRow) :=
  (queryRow l fun db => db.sessionWithUser id).mapError scanError

def touchSession (id : UUID) (now : Time) (throttle : Duration) : DbProgram StampedStmt Unit := do
  let stamp ← stampAt .now now
  let _ ← (exec .write fun _ => Db.touchSession id stamp throttle).mapError otherError

def deleteSession {ℓ : Type} (l : ℓ) (id : UUID) : DbProgram ℓ Unit := do
  let _ ← (exec l fun _ => Db.deleteSession id).mapError otherError

def deleteSessionsForUser {ℓ : Type} (l : ℓ) (user : UUID) : DbProgram ℓ Unit := do
  let _ ← (exec l fun _ => Db.deleteSessionsForUser user).mapError otherError

end Doenerstag
