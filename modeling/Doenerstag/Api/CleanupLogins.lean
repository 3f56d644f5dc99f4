import Doenerstag.Api.IdleTimeout
import Doenerstag.Api.Middleware
import Doenerstag.Db.CleanupWanted

/-!
# The cleanup and those who are logged in (`internal/db/cleanup.go`, `internal/api/authenticate.go`)

The authenticator judges a session by the idle timeout it is configured with, the cleanup by a window of
30 days.

* `Authenticated` — a request with these credentials is that caller's.
* `authenticated_session_iff`, `authenticated_bearer_iff` — when that is so, on the rows.
* `cleanup_keepsLogins_iff` — **a run of the cleanup logs nobody out, whatever the database and the time,
  if and only if the idle timeout does not exceed the window.**
-/

namespace Doenerstag

open ReadCommitted Prog Tables

/-- A request with these credentials is that caller's, its statements all going through. -/
def Authenticated (a : Doorman) (now : Time) (db : Db) (r : Credentials) (caller : Caller) : Prop :=
  ((a.authenticate r).run (fun _ => .ok) ⟨db, now⟩).1 = .ok (some caller)

/-- **Nobody is logged out**: what a request was authenticated by is still there, and the request is
authenticated again. -/
structure KeepsLogins (a : Doorman) (now : Time) (db db' : Db) : Prop where
  sessions : ∀ r caller, Authenticated a now db r caller → caller.viaToken = false →
    ∃ s, db.session caller.sessionID = some s ∧ s ∈ db'.sessions
  tokens : ∀ r caller, Authenticated a now db r caller → caller.viaToken = true →
    ∃ value t, parseBearer r.authorization = some value ∧
      db.apiTokens.find? (fun t => t.tokenHash == a.hashAPIToken value) = some t ∧ t ∈ db'.apiTokens
  again : ∀ r caller, Authenticated a now db r caller → Authenticated a now db' r caller

/-! ## Who is authenticated -/

section Rows

variable {a : Doorman} {now : Time} {db : Db}

/-- The session of a token that verifies, where its time is not up. -/
def LiveSession (a : Doorman) (now : Time) (db : Db) (raw : String) (s : SessionRow) (u : AppUserRow) :
    Prop :=
  ∃ claims, a.signer.parse raw now = .ok claims ∧ db.session claims.sessionID = some s ∧
    db.userByID s.userID = some u ∧ now < s.absoluteExpires ∧ now - s.lastSeenAt ≤ a.idleTimeout

/-- The API token of a header, where it has not expired. -/
def LiveToken (a : Doorman) (now : Time) (db : Db) (header : String) (t : APITokenRow)
    (u : AppUserRow) : Prop :=
  ∃ value, parseBearer header = some value ∧
    db.apiTokens.find? (fun t => t.tokenHash == a.hashAPIToken value) = some t ∧
    db.userByID t.userID = some u ∧ ∀ expires ∈ t.expiresAt, now < expires

theorem run_visitSession {session : Session} {user : AppUserRow} {p : SessionPrincipal} :
    ((a.visitSession session user).run (fun _ => .ok) ⟨db, now⟩).1 = .ok p ↔
      now < session.absoluteExpires ∧ now - session.lastSeenAt ≤ a.idleTimeout ∧
        p = { user, sessionID := session.id } := by
  unfold Authenticator.visitSession
  rw [run_bind]
  unfold clock
  rw [run_read]
  dsimp only
  split_ifs with hexpired hidle
  · -- the discard, and then the refusal
    rw [run_bind]
    have hle : session.absoluteExpires ≤ now := of_decide_eq_true hexpired
    refine iff_of_false ?_ fun h => absurd h.1 (not_lt.mpr hle)
    split <;> exact fun h => nomatch h
  · rw [run_bind]
    have hlate : a.idleTimeout < now - session.lastSeenAt := of_decide_eq_true hidle
    refine iff_of_false ?_ fun h => absurd h.2.1 (not_le.mpr hlate)
    split <;> exact fun h => nomatch h
  · have hlive : now < session.absoluteExpires := not_le.mp fun h => hexpired (decide_eq_true h)
    have hseen : now - session.lastSeenAt ≤ a.idleTimeout := not_lt.mp fun h => hidle (decide_eq_true h)
    rw [run_bind, run_succeeds]
    constructor
    · intro h
      exact ⟨hlive, hseen, (Except.ok.inj h).symm⟩
    · rintro ⟨-, -, rfl⟩
      rfl

theorem sessionWithUser_eq_some {id : UUID} {session : Session} {u : AppUserRow} :
    db.sessionWithUser id = some (session, u) ↔
      ∃ s, db.session id = some s ∧ db.userByID s.userID = some u ∧ session = s.scan := by
  unfold Db.sessionWithUser
  simp only [Option.bind_eq_bind, Option.bind_eq_some_iff, Option.pure_def, Option.some.injEq,
    Prod.mk.injEq]
  constructor
  · rintro ⟨s, hs, u', hu, rfl, rfl⟩
    exact ⟨s, hs, hu, rfl⟩
  · rintro ⟨s, hs, hu, rfl⟩
    exact ⟨s, hs, u, hu, rfl, rfl⟩

theorem run_sessionWithUser {ℓ : Type} (l : ℓ) (id : UUID) (w : World Db Time) :
    ((sessionWithUser l id).mapError sessionError).run (fun _ => .ok) w =
      (((w.db.sessionWithUser id).map Except.ok).getD (.error (.of codeSessionSuperseded)), w) := by
  unfold sessionWithUser queryRow
  rw [run_mapError, run_mapError, run_read]
  dsimp only
  cases w.db.sessionWithUser id <;> rfl

theorem run_fromSession {raw : String} {p : SessionPrincipal} :
    ((a.fromSession raw).run (fun _ => .ok) ⟨db, now⟩).1 = .ok p ↔
      ∃ s u, LiveSession a now db raw s u ∧ p = { user := u, sessionID := s.id } := by
  unfold Authenticator.fromSession
  rw [run_bind]
  unfold clock
  rw [run_read]
  dsimp only
  rw [run_bind, run_ofExcept]
  cases hparse : a.signer.parse raw now with
  | error e =>
    refine iff_of_false (fun h => by cases h) ?_
    rintro ⟨s, u, ⟨claims, hclaims, -⟩, -⟩
    rw [hparse] at hclaims
    cases hclaims
  | ok claims =>
    rw [exceptMapError_ok]
    dsimp only
    rw [run_bind, run_sessionWithUser]
    cases hrow : db.sessionWithUser claims.sessionID with
    | none =>
      refine iff_of_false (fun h => by cases h) ?_
      rintro ⟨s, u, ⟨claims', hclaims, hs, hu, -⟩, -⟩
      rw [hparse] at hclaims
      rw [sessionWithUser_eq_some.mpr ⟨s, Except.ok.inj hclaims ▸ hs, hu, rfl⟩] at hrow
      cases hrow
    | some found =>
      obtain ⟨session, u⟩ := found
      obtain ⟨s, hs, hu, rfl⟩ := sessionWithUser_eq_some.mp hrow
      show ((a.visitSession s.scan u).run _ _).1 = _ ↔ _
      rw [run_visitSession]
      constructor
      · rintro ⟨hlive, hseen, rfl⟩
        exact ⟨s, u, ⟨claims, hparse, hs, hu, hlive, hseen⟩, rfl⟩
      · rintro ⟨s', u', ⟨claims', hclaims, hs', hu', hlive, hseen⟩, rfl⟩
        rw [hparse] at hclaims
        rw [← Except.ok.inj hclaims, hs] at hs'
        obtain rfl := Option.some.inj hs'
        rw [hu] at hu'
        obtain rfl := Option.some.inj hu'
        exact ⟨hlive, hseen, rfl⟩

theorem apiTokenByHash_eq_some {hash : String} {token : APIToken} {u : AppUserRow} :
    db.apiTokenByHash hash = some (token, u) ↔
      ∃ t, db.apiTokens.find? (fun t => t.tokenHash == hash) = some t ∧
        db.userByID t.userID = some u ∧ token = t.scan := by
  unfold Db.apiTokenByHash
  simp only [Option.bind_eq_bind, Option.bind_eq_some_iff, Option.pure_def, Option.some.injEq,
    Prod.mk.injEq]
  constructor
  · rintro ⟨t, ht, u', hu, rfl, rfl⟩
    exact ⟨t, ht, hu, rfl⟩
  · rintro ⟨t, ht, hu, rfl⟩
    exact ⟨t, ht, u, hu, rfl, rfl⟩

theorem run_apiTokenByHash {ℓ : Type} (l : ℓ) (hash : String) (w : World Db Time) :
    ((apiTokenByHash l hash).mapError bearerError).run (fun _ => .ok) w =
      (((w.db.apiTokenByHash hash).map Except.ok).getD (.error (.of codeInvalidToken)), w) := by
  unfold apiTokenByHash queryRow
  rw [run_mapError, run_mapError, run_read]
  dsimp only
  cases w.db.apiTokenByHash hash <;> rfl

theorem expired_eq_true_iff {token : APIToken} :
    token.expired now = true ↔ ∃ expires ∈ token.expiresAt, expires ≤ now := by
  unfold APIToken.expired
  cases token.expiresAt with
  | none => exact iff_of_false (fun h => by cases h) fun ⟨_, h, _⟩ => by cases h
  | some expires =>
    rw [Option.any_some, decide_eq_true_iff]
    exact ⟨fun h => ⟨expires, rfl, h⟩, fun ⟨_, h, hle⟩ => by cases h; exact hle⟩

theorem run_fromBearer {header : String} {caller : Caller} :
    ((a.fromBearer header).run (fun _ => .ok) ⟨db, now⟩).1 = .ok caller ↔
      ∃ t u, LiveToken a now db header t u ∧
        caller = { user := u, sessionID := ⟨0⟩, viaToken := true } := by
  unfold Doorman.fromBearer
  cases hparse : parseBearer header with
  | none =>
    refine iff_of_false (fun h => by cases h) ?_
    rintro ⟨t, u, ⟨value, hvalue, -⟩, -⟩
    rw [hparse] at hvalue
    cases hvalue
  | some value =>
    dsimp only
    rw [run_bind, run_apiTokenByHash]
    cases hrow : db.apiTokenByHash (a.hashAPIToken value) with
    | none =>
      refine iff_of_false (fun h => by cases h) ?_
      rintro ⟨t, u, ⟨value', hvalue, ht, hu, -⟩, -⟩
      rw [hparse] at hvalue
      rw [apiTokenByHash_eq_some.mpr ⟨t, Option.some.inj hvalue ▸ ht, hu, rfl⟩] at hrow
      cases hrow
    | some found =>
      obtain ⟨token, u⟩ := found
      obtain ⟨t, ht, hu, rfl⟩ := apiTokenByHash_eq_some.mp hrow
      show (((clock MiddlewareStmt.tokenNow >>= fun now => _).run _ _).1 = _) ↔ _
      unfold clock
      rw [run_bind, run_read]
      dsimp only
      split_ifs with hexpired
      · refine iff_of_false (fun h => by cases h) ?_
        rintro ⟨t', u', ⟨value', hvalue, ht', -, hlive⟩, -⟩
        rw [hparse] at hvalue
        rw [← Option.some.inj hvalue, ht] at ht'
        obtain ⟨expires, hmem, hle⟩ := expired_eq_true_iff.mp hexpired
        exact absurd (hlive expires (Option.some.inj ht' ▸ hmem)) (not_lt.mpr hle)
      · rw [run_bind, run_read]
        dsimp only
        rw [run_bind, run_succeeds]
        constructor
        · intro h
          refine ⟨t, u, ⟨value, hparse, ht, hu, fun expires hmem => ?_⟩, (Except.ok.inj h).symm⟩
          exact not_le.mp fun hle => hexpired (expired_eq_true_iff.mpr ⟨expires, hmem, hle⟩)
        · rintro ⟨t', u', ⟨value', hvalue, ht', hu', -⟩, rfl⟩
          rw [hparse] at hvalue
          rw [← Option.some.inj hvalue, ht] at ht'
          rw [← Option.some.inj ht', hu] at hu'
          obtain rfl := Option.some.inj hu'
          rfl

/-- A program whose value is only looked at in the end -/
theorem run_bind_pure {ℓ ε σ χ α β : Type} {ω : ℓ → ε} {p : Prog ℓ ε σ χ α} {f : α → β} {s : σ} {b : β} :
    ((p >>= fun a => pure (f a)).run ω s).1 = .ok b ↔ ∃ a, (p.run ω s).1 = .ok a ∧ b = f a := by
  rw [run_bind]
  rcases p.run ω s with ⟨_ | a, s'⟩
  · exact iff_of_false (fun h => by cases h) fun ⟨_, h, _⟩ => by cases h
  · constructor
    · intro h
      exact ⟨a, rfl, (Except.ok.inj h).symm⟩
    · rintro ⟨a', ha, rfl⟩
      cases ha
      rfl

/-- **Who a request is taken for**, on the rows. -/
theorem authenticated_iff {r : Credentials} {caller : Caller} : Authenticated a now db r caller ↔
    (r.authorization ≠ "" ∧ ∃ t u, LiveToken a now db r.authorization t u ∧
      caller = { user := u, sessionID := ⟨0⟩, viaToken := true }) ∨
    (r.authorization = "" ∧ r.session ≠ "" ∧ ∃ s u, LiveSession a now db r.session s u ∧
      caller = { user := u, sessionID := s.id, viaToken := false }) := by
  unfold Authenticated Doorman.authenticate
  by_cases hheader : r.authorization = ""
  · rw [if_neg (not_not.mpr hheader)]
    by_cases hcookie : r.session = ""
    · rw [if_neg (not_not.mpr hcookie)]
      exact iff_of_false (fun h => by cases h) fun h =>
        h.elim (fun h => h.1 hheader) fun h => h.2.1 hcookie
    · rw [if_pos hcookie, run_bind_pure, run_within]
      constructor
      · rintro ⟨p, hp, hcaller⟩
        obtain ⟨s, u, hlive, rfl⟩ := run_fromSession.mp hp
        exact .inr ⟨hheader, hcookie, s, u, hlive, Option.some.inj hcaller⟩
      · rintro (h | ⟨-, -, s, u, hlive, rfl⟩)
        · exact absurd hheader h.1
        · exact ⟨_, run_fromSession.mpr ⟨s, u, hlive, rfl⟩, rfl⟩
  · rw [if_pos hheader, run_bind_pure]
    constructor
    · rintro ⟨caller', hcaller', hcaller⟩
      obtain ⟨t, u, hlive, rfl⟩ := run_fromBearer.mp hcaller'
      exact .inl ⟨hheader, t, u, hlive, Option.some.inj hcaller⟩
    · rintro (⟨-, t, u, hlive, rfl⟩ | h)
      · exact ⟨_, run_fromBearer.mpr ⟨t, u, hlive, rfl⟩, rfl⟩
      · exact absurd h.1 hheader

end Rows

/-! ## After a run -/

section Cleanup

variable {a : Doorman} {now retention : Time} {clock : String → Time} {db : Db}

theorem find?_filter_of_find? {α : Type*} {p q : α → Bool} {l : List α} {x : α} (h : l.find? p = some x)
    (hx : q x = true) : (l.filter q).find? p = some x := by
  induction l with
  | nil => cases h
  | cons y l ih =>
    rw [List.find?_cons] at h
    cases hy : p y with
    | true =>
      rw [hy] at h
      obtain rfl := Option.some.inj h
      rw [List.filter_cons_of_pos hx, List.find?_cons, hy]
    | false =>
      rw [hy] at h
      rw [List.filter_cons]
      split_ifs
      · rw [List.find?_cons, hy]
        exact ih h
      · exact ih h

theorem cleanup_db : (cleanup clock retention now false db).db =
    db.afterAPITokens (pgTime (now - retention)) clock (pgTime (now - imageGrace)) now := by
  rw [cleanup_real]

theorem pgTime_le_of_lt {t x : Time} (h : t < x) : pgTime t < x := lt_of_le_of_lt (pgTime_le t) h

/-- A stamp within the timeout is not before the window begins. -/
theorem window_covers {now seen timeout window : Int} (hexact : seen - seen % 1000 = seen)
    (hseen : now - seen ≤ timeout) (hwindow : timeout < window + 1000) :
    ¬ seen < (now - window) - (now - window) % 1000 := by omega

theorem session_stays {raw : String} {s : SessionRow} {u : AppUserRow}
    (hexact : ∀ s ∈ db.sessions, pgTime s.lastSeenAt = s.lastSeenAt)
    (hwindow : a.idleTimeout < idleCleanupWindow + 1000) (hlive : LiveSession a now db raw s u) :
    LiveSession a now (cleanup clock retention now false db).db raw s u ∧
      s ∈ (cleanup clock retention now false db).db.sessions := by
  obtain ⟨claims, hparse, hs, hu, hlive, hseen⟩ := hlive
  have hmem : s ∈ db.sessions := List.mem_of_find?_eq_some hs
  have hstays : Db.staleSession (pgTime now) (pgTime (now - idleCleanupWindow)) s = false := by
    unfold Db.staleSession
    rw [Bool.or_eq_false_iff, decide_eq_false_iff_not, decide_eq_false_iff_not]
    exact ⟨not_le.mpr (pgTime_le_of_lt hlive), window_covers (hexact s hmem) hseen hwindow⟩
  rw [cleanup_db]
  refine ⟨⟨claims, hparse, ?_, ?_, hlive, hseen⟩, ?_⟩
  · unfold Db.session
    rw [Db.final_sessions]
    exact find?_filter_of_find? hs (by rw [hstays]; rfl)
  · unfold Db.userByID
    rw [Db.final_appUsers]
    exact hu
  · rw [Db.final_sessions]
    exact mem_keep.mpr ⟨hmem, hstays⟩

theorem token_stays {header : String} {t : APITokenRow} {u : AppUserRow}
    (hlive : LiveToken a now db header t u) :
    LiveToken a now (cleanup clock retention now false db).db header t u ∧
      t ∈ (cleanup clock retention now false db).db.apiTokens := by
  obtain ⟨value, hvalue, ht, hu, hlive⟩ := hlive
  have hstays : Db.expiredAPIToken (pgTime now) t = false := by
    unfold Db.expiredAPIToken
    cases hexpires : t.expiresAt with
    | none => rfl
    | some expires => exact decide_eq_false (not_le.mpr (pgTime_le_of_lt (hlive expires hexpires)))
  rw [cleanup_db]
  refine ⟨⟨value, hvalue, ?_, ?_, hlive⟩, ?_⟩
  · rw [Db.final_apiTokens]
    exact find?_filter_of_find? ht (by rw [hstays]; rfl)
  · unfold Db.userByID
    rw [Db.final_appUsers]
    exact hu
  · rw [Db.final_apiTokens]
    exact mem_keep.mpr ⟨List.mem_of_find?_eq_some ht, hstays⟩

theorem cleanup_keepsLogins (hexact : ∀ s ∈ db.sessions, pgTime s.lastSeenAt = s.lastSeenAt)
    (hwindow : a.idleTimeout < idleCleanupWindow + 1000) :
    KeepsLogins a now db (cleanup clock retention now false db).db where
  sessions := by
    intro r caller h hcookie
    rcases authenticated_iff.mp h with ⟨-, t, u, -, rfl⟩ | ⟨-, -, s, u, hlive, rfl⟩
    · cases hcookie
    · have hstays : s ∈ (cleanup clock retention now false db).db.sessions :=
        (session_stays hexact hwindow hlive).2
      obtain ⟨claims, -, hs, -⟩ := hlive
      have hid : s.id = claims.sessionID :=
        eq_of_beq (List.find?_some (p := fun s : SessionRow => s.id == claims.sessionID) hs)
      exact ⟨s, hid ▸ hs, hstays⟩
  tokens := by
    intro r caller h hbearer
    rcases authenticated_iff.mp h with ⟨-, t, u, hlive, rfl⟩ | ⟨-, -, s, u, -, rfl⟩
    · have hstays : t ∈ (cleanup clock retention now false db).db.apiTokens :=
        (token_stays hlive).2
      obtain ⟨value, hvalue, ht, -⟩ := hlive
      exact ⟨value, t, hvalue, ht, hstays⟩
    · cases hbearer
  again := by
    intro r caller h
    refine authenticated_iff.mpr ?_
    rcases authenticated_iff.mp h with ⟨hheader, t, u, hlive, rfl⟩ | ⟨hheader, hcookie, s, u, hlive, rfl⟩
    · exact .inl ⟨hheader, t, u, (token_stays hlive).1, rfl⟩
    · exact .inr ⟨hheader, hcookie, s, u, (session_stays hexact hwindow hlive).1, rfl⟩

end Cleanup

/-! ## Somebody who was away for longer -/

section Away

variable {a : Doorman} {raw : String} {claims : Claims}

/-- The last second of a token -/
def lastSecond (claims : Claims) : Time := unixTime claims.expiresAt - Time.second

/-- A session that has not been seen for the window and a microsecond. -/
def longAway (claims : Claims) : SessionRow :=
  { id := claims.sessionID, userID := ⟨1⟩, issuedAt := 0
    lastSeenAt := lastSecond claims - idleCleanupWindow - 1000
    absoluteExpires := lastSecond claims + 1000, remoteAddr := none, userAgent := none }

def awayDb (claims : Claims) : Db :=
  { Db.empty with
    appUsers := [{ id := ⟨1⟩, name := "anna", displayName := none, passwordHash := "*"
                   email := none, isAdmin := false, lastLoginAt := none }]
    sessions := [longAway claims] }

theorem exact_second (t : Int) : (t - t % 1000000000 - 1000000000) % 1000 = 0 := by omega

theorem exact_window {now window : Int} (hnow : now % 1000 = 0) (hwindow : window % 1000 = 0) :
    (now - window - 1000) - (now - window - 1000) % 1000 = now - window - 1000 ∧
      now - window - 1000 < (now - window) - (now - window) % 1000 := by omega

theorem lastSecond_exact (claims : Claims) : (lastSecond claims : Int) % 1000 = 0 :=
  exact_second claims.expiresAt

theorem exact_longAway : pgTime (longAway claims).lastSeenAt = (longAway claims).lastSeenAt :=
  (exact_window (lastSecond_exact claims) (by decide)).1

theorem away_seen {now window timeout : Int} (h : window + 1000 ≤ timeout) :
    now - (now - window - 1000) ≤ timeout := by omega

/-- **Whoever was away for longer than the window, and not than the timeout, is logged out.** -/
theorem cleanup_logsOut (hraw : raw ≠ "") (hsigned : a.signer.Signed raw claims)
    (hwindow : idleCleanupWindow + 1000 ≤ a.idleTimeout) (clock : String → Time) (retention : Duration) :
    ¬ KeepsLogins a (lastSecond claims) (awayDb claims)
      (cleanup clock retention (lastSecond claims) false (awayDb claims)).db := by
  intro hkeeps
  have hparse := hsigned (lastSecond claims)
  have hvalid : ¬ unixTime claims.expiresAt ≤ lastSecond claims :=
    not_le.mpr (Int.sub_lt_self _ (by decide))
  rw [if_neg hvalid] at hparse
  have hfound : (awayDb claims).session claims.sessionID = some (longAway claims) :=
    List.find?_cons_of_pos (beq_self_eq_true claims.sessionID)
  have hlive : LiveSession a (lastSecond claims) (awayDb claims) raw (longAway claims) _ :=
    ⟨_, hparse, hfound, rfl, Int.lt_add_of_pos_right _ (by decide), away_seen hwindow⟩
  have hauth := authenticated_iff.mpr (.inr ⟨rfl, hraw, _, _, hlive, rfl⟩ :
    _ ∨ ((⟨"", raw⟩ : Credentials).authorization = "" ∧ _))
  obtain ⟨s, hs, hstays⟩ := hkeeps.sessions _ _ hauth rfl
  have hsame : s = longAway claims := by
    have hid : (awayDb claims).session (longAway claims).id = some (longAway claims) := hfound
    rw [hid] at hs
    exact (Option.some.inj hs).symm
  rw [cleanup_db, Db.final_sessions, hsame] at hstays
  have hstale := (mem_keep.mp hstays).2
  unfold Db.staleSession at hstale
  rw [Bool.or_eq_false_iff, decide_eq_false_iff_not, decide_eq_false_iff_not] at hstale
  exact hstale.2 (exact_window (lastSecond_exact claims) (by decide)).2

/-- **A run of the cleanup logs nobody out, whatever the database and the time, if and only if the idle
timeout does not exceed the window** by a microsecond. -/
theorem cleanup_keepsLogins_iff (hraw : raw ≠ "") (hsigned : a.signer.Signed raw claims) :
    (∀ (clock : String → Time) (retention : Duration) (now : Time) (db : Db),
      (∀ s ∈ db.sessions, pgTime s.lastSeenAt = s.lastSeenAt) →
      KeepsLogins a now db (cleanup clock retention now false db).db) ↔
      a.idleTimeout < idleCleanupWindow + 1000 := by
  constructor
  · intro hall
    by_contra hwindow
    refine cleanup_logsOut hraw hsigned (not_lt.mp hwindow) (fun _ => 0) 0 (hall _ _ _ _ ?_)
    intro s hs
    rw [List.mem_singleton.mp hs]
    exact exact_longAway
  · exact fun hwindow clock retention now db hexact => cleanup_keepsLogins hexact hwindow

end Away

/-- A server that forgets its visitors after that time, and knows Anna's token. -/
def forgetsAfter (timeout : Duration) : Doorman where
  signer := .ofOne "token" annasClaims
  idleTimeout := timeout
  secure := true
  hashAPIToken := fun value => value

theorem cleanup_keepsLogins_hourly :
    (∀ (clock : String → Time) (retention : Duration) (now : Time) (db : Db),
      (∀ s ∈ db.sessions, pgTime s.lastSeenAt = s.lastSeenAt) →
      KeepsLogins (forgetsAfter Time.hour) now db (cleanup clock retention now false db).db) ↔
      (forgetsAfter Time.hour).idleTimeout < idleCleanupWindow + 1000 :=
  cleanup_keepsLogins_iff (by decide : "token" ≠ "") (Signer.ofOne_signed "token" annasClaims)

/-- With an idle timeout of 60 days, whoever was away for 30 days and a microsecond is logged out. -/
theorem cleanup_logsOut_sixtyDays :
    ¬ ∀ (a : Doorman) (clock : String → Time) (retention : Duration) (now : Time) (db : Db),
      (∀ s ∈ db.sessions, pgTime s.lastSeenAt = s.lastSeenAt) →
      KeepsLogins a now db (cleanup clock retention now false db).db := by
  intro hall
  refine cleanup_logsOut (a := forgetsAfter (60 * 24 * Time.hour))
    (by decide : "token" ≠ "") (Signer.ofOne_signed "token" annasClaims) (by decide)
    (fun _ => 0) 0
    (hall _ _ _ _ _ ?_)
  intro s hs
  rw [List.mem_singleton.mp hs]
  exact exact_longAway

end Doenerstag
