import Doenerstag.Api.Authenticate
import Doenerstag.Lib.Failure

/-!
# The idle timeout within the throttle (F1, `docs/05_auth_and_permissions.md`)

A visit is noted only when the stamp in the row is older than `touchThrottle`, so the stamp lags
behind the last visit. `Visits` is a login with any number of requests after it, each with the token
of that login, in a world where nothing fails and the clock shows whole microseconds.

* `visit_eq` — what one request comes to.
* `Lagging` — as long as nobody was refused, the stamp is at most the throttle behind.
* `idle_timeout` — **nobody is let in after more than the timeout, nobody is turned away as idle
  after less than the timeout less the throttle, and who was turned away once is turned away for good.**
-/

namespace Doenerstag

open ReadCommitted Prog

/-! ## One request -/

/-- The table after a visit at an instant was noted. -/
def Db.touched (db : Db) (id : UUID) (t : Time) : Db :=
  db.setSessions (db.sessions.map fun s =>
    if s.id == id && s.lastSeenAt < pgTime t - pgInterval touchThrottle then
      { s with lastSeenAt := pgTime t } else s)

/-- The table without that session. -/
def Db.discarded (db : Db) (id : UUID) : Db :=
  db.setSessions (db.sessions.filter fun s => s.id != id)

/-- A request with a session cookie at an instant, when nothing fails: its answer, and what is
committed afterwards. -/
def Authenticator.visit (a : Authenticator) (raw : String) (db : Db) (t : Time) :
    Except ApiError SessionPrincipal × Db :=
  let r := (a.fromSession raw).run (fun _ => .ok) { db, now := t }
  (r.1, r.2.db)

theorem stampOf_self (t : Time) : stampOf t t = t := ite_self t

theorem touchSession_run (id : UUID) (w : World Db Time) :
    (touchSession id w.now touchThrottle).run (fun _ => .ok) w =
      (.ok (), { w with db := w.db.touched id w.now }) := by
  unfold touchSession
  rw [run_bind, stampAt_run, stampOf_self]
  rfl

theorem visitSession_run (a : Authenticator) (s : Session) (u : AppUserRow) (w : World Db Time) :
    (a.visitSession s u).run (fun _ => .ok) w =
      if s.expired w.now || s.idle w.now a.idleTimeout then
        (.error (.of codeSessionExpired), { w with db := w.db.discarded s.id })
      else (.ok { user := u, sessionID := s.id }, { w with db := w.db.touched s.id w.now }) := by
  have htouch : (((touchSession s.id w.now touchThrottle).within FromSessionStmt.touch).run
      (fun _ => Outcome.ok) w) = (.ok (), { w with db := w.db.touched s.id w.now }) := by
    rw [run_within]
    exact touchSession_run s.id w
  unfold Authenticator.visitSession
  show (if s.expired w.now then _ else if s.idle w.now a.idleTimeout then _ else _ :
    Handler FromSessionStmt SessionPrincipal).run (fun _ => .ok) w = _
  cases s.expired w.now with
  | true => rfl
  | false =>
    cases s.idle w.now a.idleTimeout with
    | true => rfl
    | false =>
      show (Prog.succeeds _ >>= _ : Handler FromSessionStmt SessionPrincipal).run _ w = _
      rw [run_bind, run_succeeds, htouch]
      rfl

theorem sessionWithUser_run (id : UUID) (w : World Db Time) :
    ((sessionWithUser FromSessionStmt.session id).mapError sessionError).run (fun _ => .ok) w =
      (match w.db.sessionWithUser id with
        | none => .error (.of codeSessionSuperseded)
        | some found => .ok found, w) := by
  rw [run_mapError, sessionWithUser, run_mapError, queryRow, run_read]
  cases w.db.sessionWithUser id with
  | none => rfl
  | some found => rfl

/-- **One request**, by what it finds. -/
theorem visit_eq (a : Authenticator) (raw : String) (db : Db) (t : Time) :
    a.visit raw db t =
      match a.signer.parse raw t with
      | .error e => (.error (tokenError e), db)
      | .ok claims =>
        match db.sessionWithUser claims.sessionID with
        | none => (.error (.of codeSessionSuperseded), db)
        | some (s, u) =>
          if s.expired t || s.idle t a.idleTimeout then
            (.error (.of codeSessionExpired), db.discarded s.id)
          else (.ok { user := u, sessionID := s.id }, db.touched s.id t) := by
  have hverify : (a.fromSession raw).run (fun _ => .ok) { db, now := t } =
      (Prog.ofExcept ((a.signer.parse raw t).mapError tokenError) >>= fun claims =>
        (sessionWithUser .session claims.sessionID).mapError sessionError >>= fun found =>
          a.visitSession found.1 found.2 : Handler FromSessionStmt SessionPrincipal).run
            (fun _ => .ok) { db, now := t } := rfl
  unfold Authenticator.visit
  rw [hverify, run_bind, run_ofExcept]
  cases a.signer.parse raw t with
  | error e => rfl
  | ok claims =>
    simp only [exceptMapError_ok, run_bind, sessionWithUser_run]
    cases db.sessionWithUser claims.sessionID with
    | none => rfl
    | some found =>
      simp only [visitSession_run]
      split_ifs <;> rfl

/-! ## A login, and the requests after it -/

/-- The answer to a request, with its instant. -/
abbrev Visit := Time × Except ApiError SessionPrincipal

/-- Others leave the session alone, and its account where it is. -/
structure SameSession (id : UUID) (db db' : Db) : Prop where
  row : db'.session id = db.session id
  user : ∀ s, db.session id = some s → (db.userByID s.userID).isSome → (db'.userByID s.userID).isSome

/-- The requests so far with the token of a session, the last one first, and what is committed. -/
inductive Visits (a : Authenticator) (raw : String) (s : Session) : List Visit → Db → Prop where
  | login {id : UUID} {new : NewSession} {w w' : World Db Time}
      (logged : (replaceSession id new).run (fun _ => .ok) w = (.ok s, w')) : Visits a raw s [] w'.db
  | request {visits : List Visit} {db : Db} (past : Visits a raw s visits db) (t : Time)
      (exact : pgTime t = t) (sinceLogin : s.issuedAt ≤ t) (sinceVisits : ∀ v ∈ visits, v.1 ≤ t) :
      Visits a raw s ((t, (a.visit raw db t).1) :: visits) (a.visit raw db t).2
  | others {visits : List Visit} {db db' : Db} (past : Visits a raw s visits db)
      (same : SameSession s.id db db') : Visits a raw s visits db'

/-- The last request that was let in, or the login. -/
def lastAccepted (login : Time) : List Visit → Time
  | [] => login
  | (t, r) :: rest => if r.isOk then t else lastAccepted login rest

/-- The request is turned away, though its token still verifies and the session is within its
absolute lifetime. -/
structure RefusedAsIdle (a : Authenticator) (raw : String) (s : Session) (v : Visit) : Prop where
  answer : v.2 = .error (.of codeSessionExpired)
  verified : (a.signer.parse raw v.1).isOk = true
  living : s.expired v.1 = false

/-! ## How far the stamp lags behind -/

/-- Nobody was turned away, and the row is there, its stamp at most the throttle behind. -/
structure Lagging (s : Session) (visits : List Visit) (db : Db) : Prop where
  row : ∃ r, db.session s.id = some r ∧ (db.userByID r.userID).isSome ∧
    r.absoluteExpires = s.absoluteExpires ∧ r.lastSeenAt ≤ lastAccepted s.issuedAt visits ∧
    lastAccepted s.issuedAt visits - touchThrottle ≤ r.lastSeenAt
  accepted : ∀ v ∈ visits, v.2.isOk = true

/-- The row is gone, or the token has expired. -/
def Over (a : Authenticator) (raw : String) (s : Session) (visits : List Visit) (db : Db) : Prop :=
  db.session s.id = none ∨ ∃ v ∈ visits, ∀ t, v.1 ≤ t → a.signer.parse raw t = .error .expired

section Table

variable {db : Db} {id : UUID} {r : SessionRow}

theorem Db.session_id (h : db.session id = some r) : r.id = id := by
  have hselected := List.find?_some h
  exact beq_iff_eq.mp hselected

theorem Db.session_discarded : (db.discarded id).session id = none := by
  refine List.find?_eq_none.mpr fun s hs hid => ?_
  have hkept := (List.mem_filter.mp hs).2
  rw [bne_iff_ne] at hkept
  exact hkept (beq_iff_eq.mp hid)

/-- The row of a visit that was noted, or need not be. -/
theorem Db.session_touched (h : db.session id = some r) (t : Time) :
    (db.touched id t).session id = some
      (if r.lastSeenAt < pgTime t - pgInterval touchThrottle then { r with lastSeenAt := pgTime t }
       else r) := by
  have hkey : (fun s : SessionRow => s.id == id) ∘ (fun s : SessionRow =>
      if s.id == id && s.lastSeenAt < pgTime t - pgInterval touchThrottle then
        { s with lastSeenAt := pgTime t } else s) = fun s => s.id == id := by
    funext s
    show ((if s.id == id && decide _ then _ else s : SessionRow).id == id) = (s.id == id)
    split_ifs <;> rfl
  show (db.sessions.map _).find? _ = _
  rw [List.find?_map, hkey]
  show (db.session id).map _ = _
  rw [h, Option.map_some, Db.session_id h]
  simp only [beq_self_eq_true, Bool.true_and, decide_eq_true_eq]

theorem Db.sessionWithUser_some {u : AppUserRow} (h : db.session id = some r)
    (hu : db.userByID r.userID = some u) : db.sessionWithUser id = some (r.scan, u) := by
  unfold Db.sessionWithUser
  rw [h]
  show (db.userByID r.userID).bind _ = _
  rw [hu]
  rfl

theorem Db.sessionWithUser_none (h : db.session id = none) : db.sessionWithUser id = none := by
  unfold Db.sessionWithUser
  rw [h]
  rfl

end Table

/-! ## The invariant -/

section Steps

variable {a : Authenticator} {raw : String} {s : Session} {visits : List Visit} {db : Db}

/-- A login stamps its row with its own instant. -/
theorem Lagging.login {id : UUID} {new : NewSession} {w w' : World Db Time}
    (h : (replaceSession id new).run (fun _ => .ok) w = (.ok s, w')) : Lagging s [] w'.db := by
  obtain ⟨issued, w₁, -, hwrite⟩ := run_bind_eq_ok h
  obtain ⟨db, hreplace, rfl⟩ := run_returning_eq_ok (run_mapError_eq_ok hwrite)
  obtain ⟨huser, hothers, hresult⟩ := Db.replaceSession_eq_ok hreplace
  obtain ⟨rfl, hs⟩ := Prod.mk.inj hresult
  obtain rfl := Option.some.inj hs
  have hrow : (w₁.db.setSessions (Db.upsertSession (new.row id issued) w₁.db.sessions)).session id =
      some (new.row id issued) := by
    have hmem : new.row id issued ∈ Db.upsertSession (new.row id issued) w₁.db.sessions :=
      Db.mem_upsertSession.mpr (.inl rfl)
    cases hfind : (w₁.db.setSessions
        (Db.upsertSession (new.row id issued) w₁.db.sessions)).session id with
    | none => exact absurd (beq_self_eq_true id) (List.find?_eq_none.mp hfind _ hmem)
    | some p =>
      -- another account's row has another id
      rcases Db.mem_upsertSession.mp (List.mem_of_find?_eq_some hfind) with rfl | ⟨hp, hother⟩
      · rfl
      · exact absurd (hothers p hp (Db.session_id hfind)) hother
  have hnone : (0 : Int) ≤ touchThrottle := by decide
  refine ⟨⟨new.row id issued, hrow, huser, rfl, ?_, ?_⟩, fun v hv => by cases hv⟩
  · exact Int.le_refl (pgTime issued)
  · exact Int.sub_le_self (pgTime issued) hnone

theorem Lagging.others {db' : Db} (h : Lagging s visits db) (hsame : SameSession s.id db db') :
    Lagging s visits db' := by
  obtain ⟨⟨r, hr, huser, hrest⟩, haccepted⟩ := h
  exact ⟨⟨r, hsame.row.trans hr, hsame.user r hr huser, hrest⟩, haccepted⟩

/-- Noting a visit, or not, brings the stamp to within the throttle. -/
theorem stamp_within {stamp last t : Time} (hexact : pgTime t = t) (hlast : last ≤ t)
    (hstamp : stamp ≤ last) :
    (if stamp < pgTime t - pgInterval touchThrottle then pgTime t else stamp) ≤ t ∧
      t - touchThrottle ≤ (if stamp < pgTime t - pgInterval touchThrottle then pgTime t else stamp) := by
  have hthrottle : pgInterval touchThrottle = touchThrottle := by decide
  have hpositive : (0 : Int) ≤ touchThrottle := by decide
  rw [hexact, hthrottle]
  split_ifs with hstale
  · exact ⟨Int.le_refl t, Int.sub_le_self t hpositive⟩
  · exact ⟨Int.le_trans hstamp hlast, Int.not_lt.mp hstale⟩

theorem lastAccepted_le {login t : Time} (hlogin : login ≤ t) :
    ∀ visits : List Visit, (∀ v ∈ visits, v.1 ≤ t) → lastAccepted login visits ≤ t
  | [], _ => hlogin
  | (u, r) :: rest, hvisits => by
    unfold lastAccepted
    split_ifs
    · exact hvisits (u, r) List.mem_cons_self
    · exact lastAccepted_le hlogin rest fun v hv => hvisits v (List.mem_cons_of_mem _ hv)

/-- A request that comes too late for the stamp comes late for the last visit as well. -/
theorem late_for_visit {timeout throttle t last stamp : Int} (hlate : timeout < t - stamp)
    (hlag : last - throttle ≤ stamp) : timeout - throttle < t - last := by omega

/-- What a request to a session that goes on comes to. -/
structure VisitLaw (a : Authenticator) (raw : String) (s : Session) (past : List Visit) (v : Visit) :
    Prop where
  inTime : v.2.isOk = true → v.1 - lastAccepted s.issuedAt past ≤ a.idleTimeout
  notEarly : RefusedAsIdle a raw s v →
    a.idleTimeout - touchThrottle < v.1 - lastAccepted s.issuedAt past
  forGood : v.2.isOk = true → ∀ u ∈ past, u.2.isOk = true

theorem VisitLaw.refused {past : List Visit} {v : Visit} (hrefused : v.2.isOk = false)
    (hidle : RefusedAsIdle a raw s v →
      a.idleTimeout - touchThrottle < v.1 - lastAccepted s.issuedAt past) : VisitLaw a raw s past v := by
  have hnever : v.2.isOk ≠ true := by simp [hrefused]
  exact ⟨fun hok => absurd hok hnever, hidle, fun hok => absurd hok hnever⟩

/-- **A request while the session goes on**: it is let in and noted, or the session is over. -/
theorem Lagging.request {claims : Claims} (h : Lagging s visits db)
    (hsigned : a.signer.Signed raw claims) (hid : claims.sessionID = s.id) {t : Time}
    (hexact : pgTime t = t) (hlogin : s.issuedAt ≤ t) (hvisits : ∀ v ∈ visits, v.1 ≤ t) :
    VisitLaw a raw s visits (t, (a.visit raw db t).1) ∧
      (Lagging s ((t, (a.visit raw db t).1) :: visits) (a.visit raw db t).2 ∨
        Over a raw s ((t, (a.visit raw db t).1) :: visits) (a.visit raw db t).2) := by
  obtain ⟨⟨r, hr, huser, hexpires, hbehind, hlag⟩, haccepted⟩ := h
  obtain ⟨u, hu⟩ := Option.isSome_iff_exists.mp huser
  have hfound := Db.sessionWithUser_some hr hu
  have hlast := lastAccepted_le hlogin visits hvisits
  by_cases hverifies : unixTime claims.expiresAt ≤ t
  · -- the token has expired, and stays so
    have hparse : ∀ t', t ≤ t' → a.signer.parse raw t' = .error .expired := fun t' ht' => by
      rw [hsigned t', if_pos (Int.le_trans hverifies ht')]
    have hvisit : a.visit raw db t = (.error (.of codeSessionExpired), db) := by
      rw [visit_eq, hparse t (Int.le_refl t)]
      rfl
    rw [hvisit]
    refine ⟨.refused rfl fun hidle => ?_, .inr (.inr ⟨_, List.mem_cons_self, hparse⟩)⟩
    have hverified := hidle.verified
    rw [hparse t (Int.le_refl t)] at hverified
    cases hverified
  · have hvisit := visit_eq a raw db t
    rw [hsigned t, if_neg hverifies] at hvisit
    simp only [hid, hfound] at hvisit
    have hscanned : r.scan.id = s.id := Db.session_id hr
    cases hover : r.scan.expired t || r.scan.idle t a.idleTimeout with
    | true =>
      rw [hover, if_pos rfl] at hvisit
      rw [hvisit]
      refine ⟨.refused rfl fun hidle => ?_, .inr (.inl ?_)⟩
      · have hliving : r.scan.expired t = false := by
          have hs := hidle.living
          unfold Session.expired at hs ⊢
          rwa [show r.scan.absoluteExpires = s.absoluteExpires from hexpires]
        rw [hliving, Bool.false_or] at hover
        have hsince : a.idleTimeout < t - r.lastSeenAt := of_decide_eq_true hover
        exact late_for_visit hsince hlag
      · rw [hscanned]
        exact Db.session_discarded
    | false =>
      rw [hover, if_neg Bool.false_ne_true] at hvisit
      rw [hvisit, hscanned]
      rw [Bool.or_eq_false_iff] at hover
      have hsince : ¬ a.idleTimeout < t - r.lastSeenAt := of_decide_eq_false hover.2
      obtain ⟨hupper, hlower⟩ := stamp_within hexact hlast hbehind
      refine ⟨⟨fun _ => ?_, fun hidle => ?_, fun _ => haccepted⟩, .inl ⟨?_, ?_⟩⟩
      · -- the stamp is not after the last visit
        exact Int.le_trans (Int.sub_le_sub_left hbehind t) (Int.not_lt.mp hsince)
      · have hanswer := hidle.answer
        cases hanswer
      · refine ⟨_, Db.session_touched hr t, ?_, ?_, ?_, ?_⟩
        · split_ifs
          · exact huser
          · exact huser
        · split_ifs
          · exact hexpires
          · exact hexpires
        · rw [apply_ite SessionRow.lastSeenAt]
          exact hupper
        · rw [apply_ite SessionRow.lastSeenAt]
          exact hlower
      · intro v hv
        rcases List.mem_cons.mp hv with rfl | hv
        · rfl
        · exact haccepted v hv

/-- **A request once it is over** is turned away, and it stays over. -/
theorem Over.request {claims : Claims} (h : Over a raw s visits db)
    (hsigned : a.signer.Signed raw claims) (hid : claims.sessionID = s.id) {t : Time}
    (hvisits : ∀ v ∈ visits, v.1 ≤ t) :
    (a.visit raw db t).1.isOk = false ∧ ¬ RefusedAsIdle a raw s (t, (a.visit raw db t).1) ∧
      Over a raw s ((t, (a.visit raw db t).1) :: visits) (a.visit raw db t).2 := by
  have hexpired : a.signer.parse raw t = .error .expired → (a.visit raw db t).1.isOk = false ∧
      ¬ RefusedAsIdle a raw s (t, (a.visit raw db t).1) ∧ (a.visit raw db t).2 = db := by
    intro hparse
    rw [visit_eq, hparse]
    refine ⟨rfl, fun hidle => ?_, rfl⟩
    have hverified := hidle.verified
    rw [hparse] at hverified
    cases hverified
  rcases h with hgone | ⟨v, hv, hparse⟩
  · by_cases hverifies : unixTime claims.expiresAt ≤ t
    · have hparse : a.signer.parse raw t = .error .expired := by rw [hsigned t, if_pos hverifies]
      obtain ⟨hrefused, hidle, hsame⟩ := hexpired hparse
      refine ⟨hrefused, hidle, .inl ?_⟩
      rw [hsame]
      exact hgone
    · have hvisit := visit_eq a raw db t
      rw [hsigned t, if_neg hverifies] at hvisit
      simp only [hid, Db.sessionWithUser_none hgone] at hvisit
      rw [hvisit]
      refine ⟨rfl, fun hidle => ?_, .inl hgone⟩
      have hanswer : Except.error (ApiError.of codeSessionSuperseded) =
          (Except.error (.of codeSessionExpired) : Except ApiError SessionPrincipal) := hidle.answer
      revert hanswer
      decide
  · obtain ⟨hrefused, hidle, -⟩ := hexpired (hparse t (hvisits v hv))
    exact ⟨hrefused, hidle, .inr ⟨v, List.mem_cons_of_mem _ hv, hparse⟩⟩

end Steps

/-- **The idle timeout within the throttle.** After a login, let any number of requests come with
its token. A request is let in only within the timeout of the last one that was, or of the login; it
is turned away as idle only after the timeout less the throttle; and once one was turned away, none is
let in any more. -/
theorem idle_timeout (a : Authenticator) (raw : String) (s : Session) (claims : Claims)
    (hsigned : a.signer.Signed raw claims) (hid : claims.sessionID = s.id) {visits : List Visit}
    {v : Visit} {db : Db} (h : Visits a raw s (v :: visits) db) :
    (v.2.isOk = true → v.1 - lastAccepted s.issuedAt visits ≤ a.idleTimeout) ∧
      (RefusedAsIdle a raw s v →
        a.idleTimeout - touchThrottle < v.1 - lastAccepted s.issuedAt visits) ∧
      (v.2.isOk = true → ∀ u ∈ visits, u.2.isOk = true) := by
  -- every request keeps the law, and leaves a session that lags or is over
  have hall : ∀ {past : List Visit} {db : Db}, Visits a raw s past db →
      (Lagging s past db ∨ Over a raw s past db) ∧
        ∀ v earlier, past = v :: earlier → VisitLaw a raw s earlier v := by
    intro past db h
    induction h with
    | login hlogged => exact ⟨.inl (.login hlogged), fun v earlier heq => by cases heq⟩
    | @request visits db past t hexact hlogin hvisits ih =>
      rcases ih.1 with hgoes | hover
      · obtain ⟨hlaw, hnext⟩ := hgoes.request hsigned hid hexact hlogin hvisits
        refine ⟨hnext, fun v earlier heq => ?_⟩
        cases heq
        exact hlaw
      · obtain ⟨hrefused, hidle, hnext⟩ := hover.request hsigned hid hvisits
        refine ⟨.inr hnext, fun v earlier heq => ?_⟩
        cases heq
        exact .refused hrefused fun hwas => absurd hwas hidle
    | others _ hsame ih =>
      refine ⟨ih.1.imp (fun hgoes => hgoes.others hsame) fun hover => ?_, ih.2⟩
      exact hover.imp_left fun hgone => hsame.row.trans hgone
  have hlaw := (hall h).2 v visits rfl
  exact ⟨hlaw.inTime, hlaw.notEarly, hlaw.forGood⟩

/-! ## Anna comes back -/

/-- A signer that has issued one token. -/
def Signer.ofOne (raw : String) (claims : Claims) : Signer where
  issue := fun c => if c = claims then .ok raw else .error ()
  parse := fun text now =>
    if text ≠ raw then .error .invalid
    else if unixTime claims.expiresAt ≤ now then .error .expired
    else .ok { claims with issuedAt := unixTime claims.issuedAt
                           expiresAt := unixTime claims.expiresAt }

theorem Signer.ofOne_signed (raw : String) (claims : Claims) :
    (Signer.ofOne raw claims).Signed raw claims := fun now => by
  show (if raw ≠ raw then _ else _) = _
  rw [if_neg (not_not.mpr rfl)]

/-- Anna's session, from one second after the epoch on, for a day. -/
def annasSession : Session :=
  { id := ⟨50⟩, userID := ⟨1⟩, issuedAt := Time.second, lastSeenAt := Time.second
    absoluteExpires := Time.second + 24 * Time.hour, remoteAddr := "", userAgent := "" }

def annasClaims : Claims :=
  { userID := ⟨1⟩, sessionID := ⟨50⟩, issuedAt := annasSession.issuedAt
    expiresAt := annasSession.absoluteExpires, isAdmin := false }

/-- A server that forgets its visitors after an hour, and knows Anna's token. -/
def hourly : Authenticator where
  signer := .ofOne "token" annasClaims
  idleTimeout := Time.hour

/-- `lunch`, after Anna's login. -/
def loggedIn : World Db Time :=
  ((replaceSession ⟨50⟩
    { userID := ⟨1⟩, lifetime := 24 * Time.hour, remoteAddr := "", userAgent := ""
      issuedAt := Time.second }).run (fun _ => .ok) { db := lunch, now := Time.second }).2

/-- She comes back after forty seconds. -/
def annasVisit : Visit × Db :=
  ((40 * Time.second, (hourly.visit "token" loggedIn.db (40 * Time.second)).1),
    (hourly.visit "token" loggedIn.db (40 * Time.second)).2)

/-- She comes back after an hour and a half. -/
def annasReturn : Visit × Db :=
  ((5400 * Time.second, (hourly.visit "token" annasVisit.2 (5400 * Time.second)).1),
    (hourly.visit "token" annasVisit.2 (5400 * Time.second)).2)

theorem annas_visits :
    Visits hourly "token" annasSession [annasReturn.1, annasVisit.1] annasReturn.2 := by
  have hlogged : ((replaceSession ⟨50⟩
      { userID := ⟨1⟩, lifetime := 24 * Time.hour, remoteAddr := "", userAgent := ""
        issuedAt := Time.second }).run (fun _ => .ok) { db := lunch, now := Time.second }).1 =
      .ok annasSession := by decide +kernel
  have hlogin : Visits hourly "token" annasSession [] loggedIn.db := .login (Prod.ext hlogged rfl)
  have hfirst : Visits hourly "token" annasSession [annasVisit.1] annasVisit.2 :=
    hlogin.request _ (by decide) (by decide) fun v hv => by cases hv
  refine hfirst.request _ (by decide) (by decide) fun v hv => ?_
  rw [List.mem_singleton.mp hv]
  decide

/-- The first time she is let in; the second time she is not, and she has been away for long. -/
theorem idle_timeout_anna :
    annasVisit.1.2.isOk = true ∧ RefusedAsIdle hourly "token" annasSession annasReturn.1 ∧
      hourly.idleTimeout - touchThrottle <
        annasReturn.1.1 - lastAccepted annasSession.issuedAt [annasVisit.1] := by
  have hidle : RefusedAsIdle hourly "token" annasSession annasReturn.1 :=
    ⟨by decide +kernel, by decide +kernel, by decide +kernel⟩
  exact ⟨by decide +kernel, hidle, (idle_timeout hourly "token" annasSession annasClaims
    (Signer.ofOne_signed _ _) rfl annas_visits).2.1 hidle⟩

end Doenerstag
