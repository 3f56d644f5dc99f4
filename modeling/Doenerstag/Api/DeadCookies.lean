import Doenerstag.Api.Login
import Doenerstag.Api.Middleware
import Doenerstag.Lib.Paths

/-!
# Which cookies are dead (`internal/api/authenticate.go`)

A session cookie that does not work goes, whatever the reason. Reasons that say nothing about the
session are among them.

* `SessionWay` — the ways through `fromSession`, one a line of the code.
* `Unusable` — what was found on the way rules the session out.
* `cookies_left_iff` — **a cookie of a session that may still be good is left alone exactly when the
  lookup of the session does not fail.**
* `cookies_gone` — the database is away for a moment, and Anna is logged out.
-/

namespace Doenerstag

open ReadCommitted Prog

/-- The steps that a session cookie takes. -/
abbrev SessionSteps := List (Taken FromSessionStmt Outcome (World Db Time))

/-- What the lookup of a session comes to. -/
def lookup (id : UUID) (e : Outcome) (w : World Db Time) :
    Except (StmtError PgError) (Session × AppUserRow) := e.row (w.db.sessionWithUser id)

/-! ## The ways of a session cookie -/

/-- What a request with a session cookie goes through. -/
inductive SessionWay (a : Authenticator) (raw : String) :
    SessionSteps → Except ApiError SessionPrincipal → Prop where
  | token {e : Outcome} {w : World Db Time} {x : TokenError}
      (refused : a.signer.parse raw w.now = .error x) :
      SessionWay a raw [⟨.verify, e, w⟩] (.error (tokenError x))
  | lookup {e e' : Outcome} {w w' : World Db Time} {claims : Claims} {x : StmtError PgError}
      (verified : a.signer.parse raw w.now = .ok claims)
      (failed : Doenerstag.lookup claims.sessionID e' w' = .error x) :
      SessionWay a raw [⟨.verify, e, w⟩, ⟨.session, e', w'⟩] (.error (sessionError (scanError x)))
  | past {e e' e'' : Outcome} {w w' w'' : World Db Time} {claims : Claims} {s : Session}
      {u : AppUserRow} {steps : SessionSteps} (verified : a.signer.parse raw w.now = .ok claims)
      (found : Doenerstag.lookup claims.sessionID e' w' = .ok (s, u))
      (ended : s.expired w''.now = true ∨ s.idle w''.now a.idleTimeout = true)
      (others : ∀ t ∈ steps, t.label ≠ .session) :
      SessionWay a raw (⟨.verify, e, w⟩ :: ⟨.session, e', w'⟩ :: ⟨.now, e'', w''⟩ :: steps)
        (.error (.of codeSessionExpired))
  | visit {e e' e'' : Outcome} {w w' w'' : World Db Time} {claims : Claims} {s : Session}
      {u : AppUserRow} {steps : SessionSteps} (verified : a.signer.parse raw w.now = .ok claims)
      (found : Doenerstag.lookup claims.sessionID e' w' = .ok (s, u))
      (others : ∀ t ∈ steps, t.label ≠ .session) :
      SessionWay a raw (⟨.verify, e, w⟩ :: ⟨.session, e', w'⟩ :: ⟨.now, e'', w''⟩ :: steps)
        (.ok { user := u, sessionID := s.id })

/-- The row is looked up once. -/
theorem visitSession_labels (a : Authenticator) (s : Session) (u : AppUserRow) :
    (a.visitSession s u).Steps fun l _ _ => l ≠ .session := by
  have hdiscard : (Authenticator.discard s.id).Steps fun l _ _ => l ≠ .session := by
    refine .bind (.succeeds ?_) fun _ => steps_done ()
    refine .bind (.mapError (write_steps fun _ _ => ?_) _) fun _ => steps_done ()
    exact FromSessionStmt.noConfusion
  refine .bind (read_steps fun _ => FromSessionStmt.noConfusion) fun now => ?_
  split_ifs
  · exact .bind hdiscard fun _ => steps_fail _
  · exact .bind hdiscard fun _ => steps_fail _
  · refine .bind (.succeeds (.within ?_)) fun _ => steps_done _
    exact (Steps.trivially _).mono fun l _ _ _ => FromSessionStmt.noConfusion

/-- The way through the checks of a row. -/
theorem visitSession_path {a : Authenticator} {s : Session} {u : AppUserRow} {steps : SessionSteps}
    {r : Except ApiError SessionPrincipal} (h : (a.visitSession s u).Path steps r) :
    ∃ e w rest, steps = ⟨.now, e, w⟩ :: rest ∧
      ((s.expired w.now = true ∨ s.idle w.now a.idleTimeout = true) ∧
          r = .error (.of codeSessionExpired) ∨
        r = .ok { user := u, sessionID := s.id }) := by
  -- a row whose time is up is discarded, and the request is refused either way
  have hdiscard : ∀ {rest : SessionSteps} {r : Except ApiError SessionPrincipal},
      (Authenticator.discard s.id >>= fun _ => throw (.of codeSessionExpired) :
        Handler FromSessionStmt SessionPrincipal).Path rest r →
        r = .error (.of codeSessionExpired) := by
    intro rest r hr
    rcases path_bind.mp hr with ⟨x, hx, rfl⟩ | ⟨_, _, _, rfl, -, hthrow⟩
    · rcases path_bind.mp hx with ⟨y, hy, -⟩ | ⟨_, _, _, -, -, hdone⟩
      · obtain ⟨r', -, hr'⟩ := path_succeeds.mp hy
        cases hr'
      · cases (path_done.mp hdone).2
    · exact (path_fail.mp hthrow).2
  unfold Authenticator.visitSession at h
  obtain ⟨e, w, rest, rfl, hrest⟩ := path_clock_bind.mp h
  refine ⟨e, w, rest, rfl, ?_⟩
  split_ifs at hrest with hexpired hidle
  · exact .inl ⟨.inl hexpired, hdiscard hrest⟩
  · exact .inl ⟨.inr hidle, hdiscard hrest⟩
  · rcases path_bind.mp hrest with ⟨x, hx, -⟩ | ⟨_, _, _, rfl, -, hdone⟩
    · obtain ⟨r', -, hr'⟩ := path_succeeds.mp hx
      cases hr'
    · exact .inr (path_done.mp hdone).2

/-- **Every way through `fromSession`.** -/
theorem fromSession_path {a : Authenticator} {raw : String} {steps : SessionSteps}
    {r : Except ApiError SessionPrincipal} (h : (a.fromSession raw).Path steps r) :
    SessionWay a raw steps r := by
  unfold Authenticator.fromSession at h
  obtain ⟨e, w, rest, rfl, hverify⟩ := path_clock_bind.mp h
  rcases path_ofExcept_bind.mp hverify with ⟨x, hx, rfl, rfl⟩ | ⟨claims, hclaims, hlookup⟩
  · cases hsigned : a.signer.parse raw w.now with
    | ok claims =>
      rw [hsigned] at hx
      cases hx
    | error y =>
      rw [hsigned] at hx
      cases hx
      exact .token hsigned
  have hsigned := exceptMapError_eq_ok hclaims
  rw [sessionWithUser, queryRow, read_mapError, read_mapError] at hlookup
  obtain ⟨e', w', rest, rfl, hfound⟩ := path_read_bind.mp hlookup
  rcases path_ofExcept_bind.mp hfound with ⟨x, hx, rfl, rfl⟩ | ⟨⟨s, u⟩, hok, hvisit⟩
  · cases hrow : Doenerstag.lookup claims.sessionID e' w' with
    | ok found =>
      rw [show e'.row (w'.db.sessionWithUser claims.sessionID) = .ok found from hrow] at hx
      cases hx
    | error y =>
      rw [show e'.row (w'.db.sessionWithUser claims.sessionID) = .error y from hrow] at hx
      cases hx
      exact .lookup hsigned hrow
  · have hrow : Doenerstag.lookup claims.sessionID e' w' = .ok (s, u) :=
      exceptMapError_eq_ok (exceptMapError_eq_ok hok)
    have hothers := hvisit.labels (visitSession_labels a s u)
    obtain ⟨e'', w'', rest, rfl, ⟨hover, rfl⟩ | rfl⟩ := visitSession_path hvisit
    · exact .past hsigned hrow hover fun t ht => hothers t (List.mem_cons_of_mem _ ht)
    · exact .visit hsigned hrow fun t ht => hothers t (List.mem_cons_of_mem _ ht)

/-! ## Sessions that are definitely unusable -/

/-- What was found on the way rules the session out. -/
inductive Unusable (a : Authenticator) (raw : String) (steps : SessionSteps) : Prop where
  /-- the token is none of ours, or has expired with its session -/
  | token {v : Taken FromSessionStmt Outcome (World Db Time)} {x : TokenError} (mem : v ∈ steps)
      (label : v.label = .verify) (refused : a.signer.parse raw v.found.now = .error x)
  /-- there is no row -/
  | absent {v t : Taken FromSessionStmt Outcome (World Db Time)} {claims : Claims}
      (verified : v ∈ steps ∧ v.label = .verify ∧ a.signer.parse raw v.found.now = .ok claims)
      (mem : t ∈ steps) (label : t.label = .session)
      (absent : lookup claims.sessionID t.outcome t.found = .error .noRows)
  /-- the row is past its absolute expiry, or idle -/
  | past {v t n : Taken FromSessionStmt Outcome (World Db Time)} {claims : Claims} {s : Session}
      {u : AppUserRow}
      (verified : v ∈ steps ∧ v.label = .verify ∧ a.signer.parse raw v.found.now = .ok claims)
      (found : t ∈ steps ∧ t.label = .session ∧
        lookup claims.sessionID t.outcome t.found = .ok (s, u))
      (mem : n ∈ steps) (label : n.label = .now)
      (ended : s.expired n.found.now = true ∨ s.idle n.found.now a.idleTimeout = true)

/-- The lookup of the session fails, and not for want of a row. -/
def LookupFails (steps : SessionSteps) : Prop :=
  ∃ t ∈ steps, t.label = .session ∧ t.outcome = .failure

theorem lookup_eq_ok {id : UUID} {e : Outcome} {w : World Db Time} {found : Session × AppUserRow}
    (h : lookup id e w = .ok found) : e ≠ .failure := by
  rintro rfl
  cases h

/-- **A session that is turned away is unusable, unless its lookup failed.** -/
theorem SessionWay.unusable_iff {a : Authenticator} {raw : String} {steps : SessionSteps}
    {err : ApiError} (h : SessionWay a raw steps (.error err)) :
    Unusable a raw steps ↔ ¬ LookupFails steps := by
  cases h with
  | @token e w x hrefused =>
    refine iff_of_true (.token List.mem_cons_self rfl hrefused) ?_
    rintro ⟨t, ht, hlabel, -⟩
    rw [List.mem_singleton.mp ht] at hlabel
    cases hlabel
  | @lookup e e' w w' claims x hverified hfailed =>
    -- each label stands at one step
    have hverify : ∀ v ∈ [(⟨.verify, e, w⟩ : Taken FromSessionStmt Outcome (World Db Time)),
        ⟨.session, e', w'⟩], v.label = .verify → v = ⟨.verify, e, w⟩ := by
      intro v hv hlabel
      rcases List.mem_pair.mp hv with rfl | rfl
      · rfl
      · cases hlabel
    have hsession : ∀ t ∈ [(⟨.verify, e, w⟩ : Taken FromSessionStmt Outcome (World Db Time)),
        ⟨.session, e', w'⟩], t.label = .session → t = ⟨.session, e', w'⟩ := by
      intro t ht hlabel
      rcases List.mem_pair.mp ht with rfl | rfl
      · cases hlabel
      · rfl
    rcases Outcome.row_eq_error hfailed with ⟨rfl, hgoes⟩ | ⟨rfl, rfl⟩
    · refine iff_of_true ?_ ?_
      · exact .absent ⟨List.mem_cons_self, rfl, hverified⟩ (List.mem_cons_of_mem _ List.mem_cons_self)
          rfl hfailed
      · rintro ⟨t, ht, hlabel, hfailure⟩
        rw [hsession t ht hlabel] at hfailure
        exact hgoes hfailure
    · refine iff_of_false ?_ (not_not.mpr ?_)
      · intro hunusable
        cases hunusable with
        | token hv hlabel hrefused =>
          rw [hverify _ hv hlabel, hverified] at hrefused
          cases hrefused
        | absent _ ht hlabel habsent =>
          rw [hsession _ ht hlabel] at habsent
          cases habsent
        | past _ hfound _ _ _ =>
          obtain ⟨ht, hlabel, hfound⟩ := hfound
          rw [hsession _ ht hlabel] at hfound
          cases hfound
      · exact ⟨_, List.mem_cons_of_mem _ List.mem_cons_self, rfl, rfl⟩
  | @past e e' e'' w w' w'' claims s u steps hverified hfound hover hothers =>
    refine iff_of_true ?_ ?_
    · exact .past ⟨List.mem_cons_self, rfl, hverified⟩
        ⟨List.mem_cons_of_mem _ List.mem_cons_self, rfl, hfound⟩
        (List.mem_cons_of_mem _ (List.mem_cons_of_mem _ List.mem_cons_self)) rfl hover
    · rintro ⟨t, ht, hlabel, hfailure⟩
      simp only [List.mem_cons] at ht
      rcases ht with rfl | rfl | rfl | ht
      · cases hlabel
      · exact lookup_eq_ok hfound hfailure
      · cases hlabel
      · exact hothers t ht hlabel

theorem SessionWay.lookup_goes {a : Authenticator} {raw : String} {steps : SessionSteps}
    {p : SessionPrincipal} (h : SessionWay a raw steps (.ok p)) : ¬ LookupFails steps := by
  cases h with
  | visit hverified hfound hothers =>
    rintro ⟨t, ht, hlabel, hfailure⟩
    simp only [List.mem_cons] at ht
    rcases ht with rfl | rfl | rfl | ht
    · cases hlabel
    · exact lookup_eq_ok hfound hfailure
    · cases hlabel
    · exact hothers t ht hlabel

/-! ## The cookies of an answer -/

/-- The steps of `fromSession` among those of the middleware. -/
def sessionSteps (steps : List (Taken MiddlewareStmt Outcome (World Db Time))) : SessionSteps :=
  steps.filterMap fun t =>
    match t.label with
    | .fromSession l => some { label := l, outcome := t.outcome, found := t.found }
    | _ => none

/-- A browser drops one of the cookies that a session takes. -/
def ClearsSession (cookies : List Cookie) : Prop :=
  ∃ c ∈ cookies, c.clears sessionCookieName ∨ c.clears csrfCookieName

theorem sessionSteps_within (steps : SessionSteps) :
    sessionSteps (steps.map (Taken.within .fromSession)) = steps := by
  unfold sessionSteps
  rw [List.filterMap_map]
  exact List.filterMap_some

/-- No step of a Bearer token is one of a session cookie. -/
theorem fromBearer_labels (a : Doorman) (header : String) :
    (a.fromBearer header).Steps fun l _ _ => ∀ s, l ≠ .fromSession s := by
  unfold Doorman.fromBearer
  cases parseBearer header with
  | none => exact steps_fail _
  | some value =>
    refine .bind (.mapError (.mapError (read_steps fun _ => ?_) _) _) fun found => ?_
    · exact fun s => MiddlewareStmt.noConfusion
    refine .bind (read_steps fun _ => fun s => MiddlewareStmt.noConfusion) fun now => ?_
    split_ifs
    · exact steps_fail _
    refine .bind (read_steps fun _ => fun s => MiddlewareStmt.noConfusion) fun now => ?_
    refine .bind (.succeeds (.within ?_)) fun _ => steps_done _
    exact (Steps.trivially _).mono fun l _ _ _ => fun s => MiddlewareStmt.noConfusion

theorem sessionSteps_none {steps : List (Taken MiddlewareStmt Outcome (World Db Time))}
    (h : ∀ t ∈ steps, ∀ s, t.label ≠ .fromSession s) : sessionSteps steps = [] := by
  refine List.filterMap_eq_nil_iff.mpr fun t ht => ?_
  cases hlabel : t.label with
  | fromSession s => exact absurd hlabel (h t ht s)
  | token | tokenNow | touchNow | touch => rfl

theorem clearsSession_turnedAway (a : Doorman) {r : Credentials} (hheader : r.authorization = "")
    (err : ApiError) : ClearsSession (a.turnedAway r err).1 := by
  unfold Doorman.turnedAway
  rw [if_neg (not_not.mpr hheader)]
  exact ⟨_, List.mem_append_left _ List.mem_cons_self, .inl rfl⟩

theorem not_clearsSession_nil : ¬ ClearsSession [] := by
  rintro ⟨c, hc, -⟩
  cases hc

/-- **Dead cookies.** On every way that a request takes through the middleware, the cookies of a
session that may still be good are left alone exactly when the lookup of the session does not fail. -/
theorem cookies_left_iff (a : Doorman) (r : Credentials)
    {steps : List (Taken MiddlewareStmt Outcome (World Db Time))} {answer : List Cookie × Admitted}
    (h : (a.middleware r).Path steps (.ok answer)) :
    (ClearsSession answer.1 → Unusable a.toAuthenticator r.session (sessionSteps steps)) ↔
      ¬ LookupFails (sessionSteps steps) := by
  have hquiet : ¬ LookupFails [] := fun ⟨t, ht, _⟩ => nomatch ht
  have hkept : ∀ {p : Prop}, ClearsSession [] → p := fun h => absurd h not_clearsSession_nil
  unfold Doorman.middleware at h
  by_cases hheader : r.authorization = ""
  · by_cases hcookie : r.session = ""
    · -- no credentials, no steps
      have hauth : a.authenticate r = Prog.done none := by
        unfold Doorman.authenticate
        rw [if_neg (not_not.mpr hheader), if_neg (not_not.mpr hcookie)]
        rfl
      rw [hauth] at h
      obtain ⟨rfl, hanswer⟩ := path_done.mp h
      cases hanswer
      exact iff_of_true hkept hquiet
    · have hauth : a.authenticate r = (do
          let p ← (a.fromSession r.session).within .fromSession
          pure (some { user := p.user, sessionID := p.sessionID, viaToken := false }) :
            Handler MiddlewareStmt (Option Caller)) := by
        unfold Doorman.authenticate
        rw [if_neg (not_not.mpr hheader), if_pos hcookie]
      rw [hauth] at h
      rcases path_handle.mp h with ⟨found, hfound, hanswer⟩ | ⟨first, x, second, rfl, hfailed, haway⟩
      · -- the session is good, and no cookie is set
        cases hanswer
        rcases path_bind.mp hfound with ⟨y, -, hy⟩ | ⟨first, caller, second, rfl, hcaller, hdone⟩
        · cases hy
        obtain ⟨rfl, hanswer⟩ := path_done.mp hdone
        cases hanswer
        rcases path_bind.mp hcaller with ⟨y, -, hy⟩ | ⟨inner, p, rest, rfl, hsession, hpure⟩
        · cases hy
        obtain ⟨rfl, -⟩ := path_done.mp hpure
        obtain ⟨way, rfl, hway⟩ := path_within.mp hsession
        rw [List.append_nil, List.append_nil, sessionSteps_within]
        exact iff_of_true hkept (fromSession_path hway).lookup_goes
      · obtain ⟨rfl, hanswer⟩ := path_done.mp haway
        cases hanswer
        rcases path_bind.mp hfailed with ⟨y, hcaller, hy⟩ | ⟨_, _, _, rfl, -, hdone⟩
        · cases hy
          rcases path_bind.mp hcaller with ⟨z, hsession, hz⟩ | ⟨_, _, _, rfl, -, hpure⟩
          · cases hz
            obtain ⟨way, rfl, hway⟩ := path_within.mp hsession
            rw [List.append_nil, sessionSteps_within]
            have hclears := clearsSession_turnedAway a hheader x
            exact (Iff.intro (fun hleft => hleft hclears) fun hleft _ => hleft).trans
              (fromSession_path hway).unusable_iff
          · cases (path_done.mp hpure).2
        · cases (path_done.mp hdone).2
  · -- a Bearer token: no cookie is looked at, and none is set
    have hauth : a.authenticate r = (do
        let caller ← a.fromBearer r.authorization
        pure (some caller) : Handler MiddlewareStmt (Option Caller)) := by
      unfold Doorman.authenticate
      rw [if_pos hheader]
    have hlabels : ∀ t ∈ steps, ∀ s, t.label ≠ .fromSession s := by
      refine h.labels (L := fun l => ∀ s, l ≠ .fromSession s) (.handle (.bind ?_ fun _ => steps_done _) fun _ => steps_done _)
      rw [hauth]
      exact .bind (fromBearer_labels a _) fun _ => steps_done _
    rw [sessionSteps_none hlabels]
    have hnone : answer.1 = [] := by
      rcases path_handle.mp h with ⟨found, hfound, hanswer⟩ | ⟨first, x, second, -, -, haway⟩
      · cases hanswer
        rcases path_bind.mp hfound with ⟨y, -, hy⟩ | ⟨_, _, _, -, -, hdone⟩
        · cases hy
        · cases (path_done.mp hdone).2
          rfl
      · cases (path_done.mp haway).2
        unfold Doorman.turnedAway
        rw [if_pos hheader]
    rw [hnone]
    exact iff_of_true hkept hquiet

/-! ## The database is away for a moment -/

/-- A server with plain tokens. -/
def plainDoorman : Doorman where
  signer := plainSigner
  idleTimeout := Time.hour
  secure := true
  hashAPIToken := fun value => value

/-- Anna has been logged in for a second. -/
def annasFreshSession : SessionRow where
  id := ⟨7⟩
  userID := ⟨1⟩
  issuedAt := 0
  lastSeenAt := 0
  absoluteExpires := 24 * Time.hour
  remoteAddr := none
  userAgent := none

def annaLoggedIn : World Db Time :=
  { annasServer.world with db := annasServer.world.db.setSessions [annasFreshSession] }

def annasCookie : Credentials := { authorization := "", session := (⟨7⟩ : UUID).string }

/-- The lookup of her session goes as it goes. -/
def annasSteps (e : Outcome) : List (Taken MiddlewareStmt Outcome (World Db Time)) :=
  [⟨.fromSession .verify, .ok, annaLoggedIn⟩, ⟨.fromSession .session, e, annaLoggedIn⟩]

theorem cookies_left_anna :
    (plainDoorman.middleware annasCookie).Path (annasSteps .noRow)
        (.ok (plainDoorman.turnedAway annasCookie (.of codeSessionSuperseded))) ∧
      ((ClearsSession (plainDoorman.turnedAway annasCookie (.of codeSessionSuperseded)).1 →
          Unusable plainDoorman.toAuthenticator annasCookie.session
            (sessionSteps (annasSteps .noRow))) ↔
        ¬ LookupFails (sessionSteps (annasSteps .noRow))) := by
  have hpath : (plainDoorman.middleware annasCookie).Path (annasSteps .noRow)
      (.ok (plainDoorman.turnedAway annasCookie (.of codeSessionSuperseded))) :=
    path_iff_ends.mpr (by decide +kernel)
  exact ⟨hpath, cookies_left_iff _ _ hpath⟩

/-- Her session is good, the lookup fails, and her cookies are gone. -/
theorem cookies_gone :
    ¬ ∀ (a : Doorman) (r : Credentials) (steps : List (Taken MiddlewareStmt Outcome (World Db Time)))
      (answer : List Cookie × Admitted), r.session ≠ "" → (a.middleware r).Path steps (.ok answer) →
      ClearsSession answer.1 → Unusable a.toAuthenticator r.session (sessionSteps steps) := by
  intro hall
  have hpath : (plainDoorman.middleware annasCookie).Path (annasSteps .failure)
      (.ok (plainDoorman.turnedAway annasCookie (.of codeDatabaseUnavailable))) :=
    path_iff_ends.mpr (by decide +kernel)
  have hclears := clearsSession_turnedAway plainDoorman (r := annasCookie) rfl
    (.of codeDatabaseUnavailable)
  have hunusable := hall _ _ _ _ (by decide) hpath hclears
  -- nothing on the way rules the session out
  have hway : SessionWay plainDoorman.toAuthenticator annasCookie.session
      (sessionSteps (annasSteps .failure)) (.error (.of codeDatabaseUnavailable)) :=
    fromSession_path (path_iff_ends.mpr (by decide +kernel))
  exact hway.unusable_iff.mp hunusable ⟨_, List.mem_cons_of_mem _ List.mem_cons_self, rfl, rfl⟩

end Doenerstag
