import Doenerstag.Api.PasswordReset
import Doenerstag.Lib.Interleaving

/-!
# One session per account (`docs/05_auth_and_permissions.md`)

Any number of logins, requests with a session cookie, logouts and password resets run side by side.
Every statement that changes a session names it by its id, but for the login, which takes over the
account's row, and the reset, which ends what the account has.

* `Changes` — **what a step can do to the table of sessions**, by the call that takes it.
* `Changes.keys`, `Changes.others`, `Changes.owned` — what follows for its keys, for the sessions a
  token does not name, and for the sessions of an account.
* `one_session` — at most one session of an account passes the lookup, it is that of the last login
  to write, and no request removes or prolongs a session that its token does not name.
-/

namespace Doenerstag

open ReadCommitted Prog

/-! ## The calls -/

structure SessionHandlers where
  auth : AuthHandlers
  authenticator : Authenticator
  resets : ResetHandlers

inductive SessionCall where
  | login (r : LoginCall)
  /-- any request with a session cookie -/
  | visit (raw : String)
  | logout (raw : String)
  | reset (r : ResetCall)

inductive SessionStmt where
  | login (s : LoginStmt)
  | visit (s : FromSessionStmt)
  | logout (s : LogoutStmt)
  | reset (s : ResetStmt)
  deriving DecidableEq, Repr

namespace SessionCall

/-- The token of the call's cookie. -/
def token : SessionCall → Option String
  | visit raw => some raw
  | logout raw => some raw
  | _ => none

def serve (h : SessionHandlers) : SessionCall → AuthHandler SessionStmt Unit
  | login r => do
    let _ ← (h.auth.login r).within .login
  | visit raw => do
    let _ ← onDb ((h.authenticator.fromSession raw).within .visit)
  | logout raw => (h.authenticator.logout raw).within .logout
  | reset r => (h.resets.complete r).within .reset

end SessionCall

/-- The token names the session, while it verifies. -/
def Signer.Names (s : Signer) (raw : String) (id : UUID) : Prop :=
  ∃ now claims, s.parse raw now = .ok claims ∧ claims.sessionID = id

/-! ## What a step does to the sessions -/

/-- A row whose visit is noted, if it is one of those. -/
def SessionRow.touchIf (stale : SessionRow → Bool) (stamp : Time) (s : SessionRow) : SessionRow :=
  if stale s then { s with lastSeenAt := stamp } else s

@[simp] theorem touchIf_id (stale : SessionRow → Bool) (stamp : Time) (s : SessionRow) :
    (s.touchIf stale stamp).id = s.id := by
  unfold SessionRow.touchIf
  split_ifs <;> rfl

@[simp] theorem touchIf_userID (stale : SessionRow → Bool) (stamp : Time) (s : SessionRow) :
    (s.touchIf stale stamp).userID = s.userID := by
  unfold SessionRow.touchIf
  split_ifs <;> rfl

/-- The table of sessions before and after a step of a call. -/
inductive Changes (h : SessionHandlers) :
    SessionCall → SessionStmt → List SessionRow → List SessionRow → Prop where
  | same (call : SessionCall) (l : SessionStmt) (rows : List SessionRow) : Changes h call l rows rows
  | replaced (r : LoginCall) (rows : List SessionRow) {row : SessionRow} (fresh : row.id = r.sessionID)
      (others : ∀ s ∈ rows, s.id = row.id → s.userID = row.userID) :
      Changes h (.login r) (.login (.session row.userID .write)) rows (Db.upsertSession row rows)
  | ended {call : SessionCall} (l : SessionStmt) (rows : List SessionRow) {raw : String} {id : UUID}
      (bears : call.token = some raw) (names : h.authenticator.signer.Names raw id) :
      Changes h call l rows (rows.filter fun s => s.id != id)
  | touched {call : SessionCall} (l : SessionStmt) (rows : List SessionRow) {raw : String} {id : UUID}
      (bears : call.token = some raw) (names : h.authenticator.signer.Names raw id)
      {stale : SessionRow → Bool} (named : ∀ s, stale s = true → s.id = id) (stamp : Time) :
      Changes h call l rows (rows.map (SessionRow.touchIf stale stamp))
  | reset (r : ResetCall) (l : SessionStmt) (rows : List SessionRow) (userID : UUID) :
      Changes h (.reset r) l rows (rows.filter fun s => s.userID != userID)

/-- The primary key of `session`, and its one row per account. -/
structure SessionKeys (rows : List SessionRow) : Prop where
  ids : (rows.map SessionRow.id).Nodup
  users : (rows.map SessionRow.userID).Nodup

section Table

variable {rows rows' : List SessionRow}

theorem SessionKeys.sublist (h : SessionKeys rows) (hsub : rows'.Sublist rows) : SessionKeys rows' :=
  ⟨h.ids.sublist (hsub.map _), h.users.sublist (hsub.map _)⟩

theorem SessionKeys.row_of_user (h : SessionKeys rows) {s t : SessionRow} (hs : s ∈ rows)
    (ht : t ∈ rows) (huser : s.userID = t.userID) : s = t :=
  List.inj_on_of_nodup_map h.users hs ht huser

/-- Re-keying the account's row, or adding one for it. -/
theorem SessionKeys.upsert (h : SessionKeys rows) {row : SessionRow}
    (hothers : ∀ s ∈ rows, s.id = row.id → s.userID = row.userID) :
    SessionKeys (Db.upsertSession row rows) := by
  unfold Db.upsertSession
  split_ifs with hmine
  · have husers : (rows.map fun s => if s.userID == row.userID then row else s).map
        SessionRow.userID = rows.map SessionRow.userID := by
      rw [List.map_map]
      refine List.map_congr_left fun s _ => ?_
      show SessionRow.userID (if s.userID == row.userID then row else s) = s.userID
      split_ifs with hs
      · exact (beq_iff_eq.mp hs).symm
      · rfl
    refine ⟨?_, husers ▸ h.users⟩
    -- two rows with one id: the account's row is new, and no other has its id
    rw [List.map_map]
    have hrows : rows.Nodup := h.ids.of_map
    refine (List.nodup_map_iff_inj_on hrows).mpr fun s hs t ht heq => ?_
    have heq : (if s.userID == row.userID then row else s).id =
        (if t.userID == row.userID then row else t).id := heq
    split_ifs at heq with hs' ht' ht'
    · exact h.row_of_user hs ht ((beq_iff_eq.mp hs').trans (beq_iff_eq.mp ht').symm)
    · exact absurd (beq_iff_eq.mpr (hothers t ht heq.symm)) ht'
    · exact absurd (beq_iff_eq.mpr (hothers s hs heq)) hs'
    · exact List.inj_on_of_nodup_map h.ids hs ht heq
  · have hnone : ∀ s ∈ rows, s.userID ≠ row.userID := fun s hs huser =>
      hmine (List.any_eq_true.mpr ⟨s, hs, beq_iff_eq.mpr huser⟩)
    constructor
    · rw [List.map_append, List.nodup_append]
      refine ⟨h.ids, List.nodup_singleton _, fun id hid id' hid' heq => ?_⟩
      obtain ⟨s, hs, rfl⟩ := List.mem_map.mp hid
      rw [List.map_singleton, List.mem_singleton] at hid'
      exact hnone s hs (hothers s hs (heq.trans hid'))
    · rw [List.map_append, List.nodup_append]
      refine ⟨h.users, List.nodup_singleton _, fun user huser user' huser' heq => ?_⟩
      obtain ⟨s, hs, rfl⟩ := List.mem_map.mp huser
      rw [List.map_singleton, List.mem_singleton] at huser'
      exact hnone s hs (heq.trans huser')

end Table

namespace Changes

variable {h : SessionHandlers} {call : SessionCall} {l : SessionStmt} {rows rows' : List SessionRow}

theorem keys (hchanges : Changes h call l rows rows') (hkeys : SessionKeys rows) :
    SessionKeys rows' := by
  cases hchanges with
  | same => exact hkeys
  | replaced r rows fresh others => exact hkeys.upsert others
  | ended => exact hkeys.sublist List.filter_sublist
  | reset => exact hkeys.sublist List.filter_sublist
  | @touched _ l rows raw id bears names stale named stamp =>
    have hids : (rows.map (SessionRow.touchIf stale stamp)).map SessionRow.id =
        rows.map SessionRow.id := by simp
    have husers : (rows.map (SessionRow.touchIf stale stamp)).map SessionRow.userID =
        rows.map SessionRow.userID := by simp
    exact ⟨hids ▸ hkeys.ids, husers ▸ hkeys.users⟩

/-- **A session that the call's token does not name** is as it was. -/
theorem others (hchanges : Changes h call l rows rows') {raw : String}
    (hbears : call.token = some raw) {s : SessionRow} (hs : s ∈ rows)
    (hother : ¬ h.authenticator.signer.Names raw s.id) : s ∈ rows' := by
  cases hchanges with
  | same => exact hs
  | replaced => cases hbears
  | reset => cases hbears
  | @ended _ l rows raw' id bears names =>
    cases hbears.symm.trans bears
    refine List.mem_filter.mpr ⟨hs, ?_⟩
    have hne : s.id ≠ id := fun heq => hother (heq ▸ names)
    exact bne_iff_ne.mpr hne
  | @touched _ l rows raw' id bears names stale named stamp =>
    cases hbears.symm.trans bears
    have hfresh : stale s ≠ true := fun hstale => hother (named s hstale ▸ names)
    refine List.mem_map.mpr ⟨s, hs, ?_⟩
    rw [SessionRow.touchIf, if_neg hfresh]

/-- **The sessions of an account**: a login has written one for it, or they were there before. -/
theorem owned (hchanges : Changes h call l rows rows') {s : SessionRow} (hs : s ∈ rows') :
    (∃ r row, call = .login r ∧ l = .login (.session s.userID .write) ∧ row.id = r.sessionID ∧
      row.userID = s.userID ∧ rows' = Db.upsertSession row rows) ∨
    ∃ t ∈ rows, t.id = s.id ∧ t.userID = s.userID := by
  cases hchanges with
  | same => exact .inr ⟨s, hs, rfl, rfl⟩
  | ended => exact .inr ⟨s, List.mem_of_mem_filter hs, rfl, rfl⟩
  | reset => exact .inr ⟨s, List.mem_of_mem_filter hs, rfl, rfl⟩
  | @replaced r rows row fresh others =>
    rcases Db.mem_upsertSession.mp hs with rfl | ⟨hold, -⟩
    · exact .inl ⟨r, s, rfl, rfl, fresh, rfl, rfl⟩
    · exact .inr ⟨s, hold, rfl, rfl⟩
  | @touched _ l rows raw id bears names stale named stamp =>
    obtain ⟨t, ht, rfl⟩ := List.mem_map.mp hs
    exact .inr ⟨t, ht, (touchIf_id stale stamp t).symm, (touchIf_userID stale stamp t).symm⟩

end Changes

/-! ## What the calls do -/

def AuthServer.sessions (s : AuthServer) : List SessionRow := s.world.db.sessions

theorem sessions_setCounts (counts : LoginCounts) (s : AuthServer) :
    (s.setCounts counts).sessions = s.sessions := rfl

/-- The program leaves the sessions alone. -/
def KeepsSessions {ℓ χ α : Type} (p : Prog ℓ Outcome AuthServer χ α) : Prop :=
  p.Steps fun _ s s' => s'.sessions = s.sessions

theorem onDb_steps {ℓ χ α : Type} {P : ℓ → List SessionRow → List SessionRow → Prop}
    {p : Program ℓ Db Time χ α} (hp : p.Steps fun l w w' => P l w.db.sessions w'.db.sessions) :
    (onDb p).Steps fun l s s' => P l s.sessions s'.sessions :=
  .onPart hp fun _ _ _ hP => hP

theorem onDb_keeps {ℓ χ α : Type} {L : ℓ → Prop} {p : Program ℓ Db Time χ α} (hp : p.Reads L) :
    KeepsSessions (onDb p) :=
  onDb_steps (P := fun _ rows rows' => rows' = rows)
    (Steps.mono hp fun _ w w' hl => by rw [hl.1])

/-- A statement on accounts. -/
theorem updateUser_keeps {ℓ : Type} (l : ℓ) (rt : Runtime) (id : UUID) (change : UserUpdate) :
    KeepsSessions (onDb (updateUser l rt id change)) := by
  unfold updateUser
  split_ifs
  · exact onDb_keeps (userByID_reads (L := fun _ => True) trivial id)
  · refine onDb_steps (P := fun _ rows rows' => rows' = rows) (.mapError ?_ _)
    refine returning_steps (fun _ => rfl) fun w db u hu => ?_
    unfold Db.updateUser at hu
    split at hu
    · cases hu
    · simp only at hu
      split_ifs at hu
      cases hu
      rfl

theorem recordLogin_keeps {ℓ : Type} (l : ℓ) (id : UUID) (stamp : Time) :
    KeepsSessions (onDb (recordLogin l id stamp)) := by
  refine onDb_steps (P := fun _ rows rows' => rows' = rows)
    (.bind (.mapError (exec_steps (fun _ => rfl) fun w r hr => ?_) _) fun _ => steps_done _)
  cases hr
  rfl

namespace AuthHandlers

variable (h : AuthHandlers)

theorem allow_keeps (name address : String) : KeepsSessions (h.allow name address) := by
  unfold allow
  cases h.limiter with
  | none => exact steps_done ()
  | some limiter =>
    exact .bind (.atomic fun s => sessions_setCounts _ s) fun wait => Steps.mono
      (Reads.require (L := fun _ => True) _ _) fun _ _ _ hl => by rw [hl.1]

theorem recordLoginFailure_keeps (name address : String) :
    KeepsSessions (h.recordLoginFailure name address) := by
  unfold recordLoginFailure
  cases h.limiter with
  | none => exact steps_done ()
  | some limiter => exact .atomic fun s => sessions_setCounts _ s

theorem recordLoginSuccess_keeps (name : String) : KeepsSessions (h.recordLoginSuccess name) := by
  unfold recordLoginSuccess
  cases h.limiter with
  | none => exact steps_done ()
  | some limiter => exact .atomic fun s => sessions_setCounts _ s

theorem failLogin_keeps {α : Type} (name address : String) :
    KeepsSessions (h.failLogin name address : AuthHandler LoginStmt α) :=
  .bind (h.recordLoginFailure_keeps name address) fun _ => steps_fail _

theorem loginAccount_keeps (name address : String) :
    KeepsSessions (h.loginAccount name address) := by
  have hread : (passwordHashByName LoginStmt.account h.rt name).Reads fun _ => True :=
    (queryRow_reads trivial).mapError _
  refine .handle (onDb_keeps hread) fun e => ?_
  split_ifs
  · exact .bind (.atomic fun _ => rfl) fun _ => h.failLogin_keeps name address
  · exact steps_fail _

theorem verifyLogin_keeps (name address password : String) (user : AppUserRow) :
    KeepsSessions (h.verifyLogin name address password user) := by
  unfold verifyLogin
  split_ifs
  · exact h.failLogin_keeps name address
  · refine .bind (.atomic fun _ => rfl) fun _ => ?_
    split_ifs
    · exact steps_done ()
    · exact h.failLogin_keeps name address

theorem rehashIfNeeded_keeps (user : AppUserRow) (password salt : String) :
    KeepsSessions (h.rehashIfNeeded user password salt) := by
  unfold rehashIfNeeded
  split_ifs
  · cases h.passwords.hash salt password with
    | error x => exact steps_done ()
    | ok upgraded => exact .bind (updateUser_keeps _ _ _ _).succeeds fun _ => steps_done ()
  · exact steps_done ()

theorem noteLogin_keeps (user : AppUserRow) : KeepsSessions (noteLogin user) :=
  .bind (onDb_keeps (clock_reads (L := fun _ => True) trivial)) fun _ =>
    .bind (recordLogin_keeps _ _ _).succeeds fun _ => steps_done ()

end AuthHandlers

section Calls

variable (h : SessionHandlers)

/-- What leaves the sessions alone is nothing that a call may not do. -/
theorem KeepsSessions.changes {ℓ χ α : Type} {p : Prog ℓ Outcome AuthServer χ α}
    (hp : KeepsSessions p) (call : SessionCall) (f : ℓ → SessionStmt) :
    p.Steps fun l s s' => Changes h call (f l) s.sessions s'.sessions := by
  refine Steps.mono hp fun l s s' hsame => ?_
  rw [hsame]
  exact .same call (f l) s.sessions

/-- **The session write** of a login takes over the account's row. -/
theorem replaceSession_changes (r : LoginCall) (new : NewSession) :
    (replaceSession r.sessionID new).Steps fun l w w' =>
      Changes h (.login r) (.login (.session new.userID l)) w.db.sessions w'.db.sessions := by
  refine .bind (Steps.mono (stampAt_reads (L := fun _ => True) trivial new.issuedAt)
    fun l w w' hl => ?_) fun issued => ?_
  · rw [hl.1]
    exact .same _ _ _
  · refine .mapError (returning_steps (fun w => .same _ _ _) fun w db b hb => ?_) _
    obtain ⟨-, hothers, hresult⟩ := Db.replaceSession_eq_ok hb
    cases hresult
    exact .replaced r _ rfl hothers

theorem startSession_changes (r : LoginCall) (user : AppUserRow) :
    (h.auth.startSession r user).Steps fun l s s' =>
      Changes h (.login r) (.login l) s.sessions s'.sessions := by
  have hwrite : ∀ new : NewSession, new.userID = user.id →
      (onDb ((replaceSession r.sessionID new).within (LoginStmt.session user.id))).Steps
        fun l s s' => Changes h (.login r) (.login l) s.sessions s'.sessions := fun new huser =>
    onDb_steps (P := fun l rows rows' => Changes h (.login r) (.login l) rows rows')
      (.within (huser ▸ replaceSession_changes h r new))
  refine .bind ((onDb_keeps (clock_reads (L := fun _ => True) trivial)).changes h _ _)
    fun issued => ?_
  refine .bind (.mapError (hwrite _ rfl) _) fun session => ?_
  refine .bind (.ofExcept _) fun token => steps_step.mpr fun e s => ⟨.same _ _ _, ?_⟩
  split_ifs
  · exact steps_fail _
  · exact steps_done _

theorem login_changes (r : LoginCall) :
    (h.auth.login r).Steps fun l s s' => Changes h (.login r) (.login l) s.sessions s'.sessions := by
  have hkeeps : ∀ {α : Type} {p : AuthHandler LoginStmt α}, KeepsSessions p →
      p.Steps fun l s s' => Changes h (.login r) (.login l) s.sessions s'.sessions :=
    fun hp => hp.changes h _ _
  refine .bind (.ofExcept _) fun body => .bind (hkeeps (h.auth.allow_keeps _ _)) fun _ => ?_
  split_ifs
  · exact hkeeps (h.auth.failLogin_keeps _ _)
  · refine .bind (hkeeps (h.auth.loginAccount_keeps _ _)) fun user => ?_
    refine .bind (hkeeps (h.auth.verifyLogin_keeps _ _ _ _)) fun _ => ?_
    refine .bind (hkeeps (h.auth.recordLoginSuccess_keeps _)) fun _ => ?_
    refine .bind (hkeeps (h.auth.rehashIfNeeded_keeps _ _ _)) fun _ => ?_
    refine .bind (startSession_changes h r user) fun (session, token) => ?_
    exact .bind (hkeeps (AuthHandlers.noteLogin_keeps _)) fun _ => steps_done _

/-- The token that a login issues is for the session it has written. -/
theorem login_issues {I : AuthServer → Prop} (r : LoginCall) :
    (h.auth.login r).Returns I fun answer =>
      ∃ claims, h.auth.signer.issue claims = .ok answer.token ∧ claims.sessionID = r.sessionID := by
  have hstart : ∀ user, (h.auth.startSession r user).Returns I fun started =>
      ∃ claims, h.auth.signer.issue claims = .ok started.2 ∧ claims.sessionID = r.sessionID := by
    intro user
    refine .bind (.trivially _) fun issued _ => ?_
    refine .bind (A := fun session => session.id = r.sessionID)
      (.mapError (.onPart (I := fun _ => True) (.within ?_ _) fun _ _ => trivial) _)
      fun session hid => ?_
    · refine .bind (.trivially _) fun issued _ => .mapError (returning_returns ?_) _
      rintro w db session - hwrite
      obtain ⟨-, -, hresult⟩ := Db.replaceSession_eq_ok hwrite
      cases hresult
      rfl
    · refine .bind (A := fun token => ∃ claims, h.auth.signer.issue claims = .ok token ∧
        claims.sessionID = r.sessionID)
        (.ofExcept fun token htoken => ⟨_, exceptMapError_eq_ok htoken, hid⟩) fun token htoken => ?_
      refine returns_step.mpr fun e s _ => ?_
      split_ifs
      · exact returns_fail _
      · exact returns_done.mpr htoken
  refine .bind (.trivially _) fun body _ => .bind (.trivially _) fun _ _ => ?_
  split_ifs
  · exact .bind (.trivially _) fun _ _ => returns_fail _
  · refine .bind (.trivially _) fun user _ => .bind (.trivially _) fun _ _ => ?_
    refine .bind (.trivially _) fun _ _ => .bind (.trivially _) fun _ _ => ?_
    refine .bind (hstart user) fun (session, token) hissued => ?_
    exact .bind (.trivially _) fun _ _ => returns_done.mpr hissued

/-- The end of a session by its id. -/
theorem deleteSession_changes {ℓ : Type} {call : SessionCall} {raw : String} {id : UUID}
    (hbears : call.token = some raw) (hnames : h.authenticator.signer.Names raw id) (l : ℓ)
    (f : ℓ → SessionStmt) :
    (deleteSession l id).Steps fun l w w' => Changes h call (f l) w.db.sessions w'.db.sessions := by
  refine .bind (.mapError (exec_steps (fun w => .same _ _ _) fun w r hr => ?_) _) fun _ => steps_done _
  cases hr
  exact .ended _ _ hbears hnames

theorem touchSession_changes {call : SessionCall} {raw : String} {id : UUID}
    (hbears : call.token = some raw) (hnames : h.authenticator.signer.Names raw id) (now : Time)
    (throttle : Duration) (f : StampedStmt → SessionStmt) :
    (touchSession id now throttle).Steps fun l w w' =>
      Changes h call (f l) w.db.sessions w'.db.sessions := by
  refine .bind (Steps.mono (stampAt_reads (L := fun _ => True) trivial now) fun l w w' hl => ?_)
    fun stamp => ?_
  · rw [hl.1]
    exact .same _ _ _
  · refine .bind (.mapError (exec_steps (fun w => .same _ _ _) fun w r hr => ?_) _)
      fun _ => steps_done _
    cases hr
    refine .touched _ _ hbears hnames (fun s hstale => ?_) _
    rw [Bool.and_eq_true] at hstale
    exact beq_iff_eq.mp hstale.1

/-- The checks of a session that the token names. -/
theorem visitSession_changes {call : SessionCall} {raw : String} {session : Session}
    (hbears : call.token = some raw) (hnames : h.authenticator.signer.Names raw session.id)
    (user : AppUserRow) (f : FromSessionStmt → SessionStmt) :
    (h.authenticator.visitSession session user).Steps fun l w w' =>
      Changes h call (f l) w.db.sessions w'.db.sessions := by
  have hdiscard : (Authenticator.discard session.id).Steps fun l w w' =>
      Changes h call (f l) w.db.sessions w'.db.sessions :=
    .bind (deleteSession_changes h hbears hnames _ f).succeeds fun _ => steps_done ()
  have hsame : ∀ w : World Db Time, Changes h call (f .now) w.db.sessions w.db.sessions :=
    fun w => .same _ _ _
  refine .bind (read_steps hsame) fun now => ?_
  split_ifs
  · exact .bind hdiscard fun _ => steps_fail _
  · exact .bind hdiscard fun _ => steps_fail _
  · exact .bind (.succeeds (.within (touchSession_changes h hbears hnames _ _ fun l => f (.touch l))))
      fun _ => steps_done _

theorem sessionWithUser_returns {ℓ : Type} {I : World Db Time → Prop} (l : ℓ) (id : UUID) :
    ((sessionWithUser l id).mapError sessionError).Returns I fun found => found.1.id = id := by
  refine .mapError (.mapError (queryRow_returns fun w found _ hfound => ?_) _) _
  obtain ⟨s, hs, hrest⟩ := Option.bind_eq_some_iff.mp hfound
  obtain ⟨u, -, hpair⟩ := Option.bind_eq_some_iff.mp hrest
  cases hpair
  exact beq_iff_eq.mp (List.find?_some (p := fun s : SessionRow => s.id == id) hs)

theorem claims_name {ℓ : Type} {I : World Db Time → Prop} (raw : String) (now : Time) :
    (.ofExcept ((h.authenticator.signer.parse raw now).mapError tokenError) :
      Handler ℓ Claims).Returns I fun claims =>
        h.authenticator.signer.Names raw claims.sessionID :=
  .ofExcept fun claims hclaims => ⟨now, claims, exceptMapError_eq_ok hclaims, rfl⟩

/-- **A request with a session cookie** is about the session that its token names. -/
theorem fromSession_changes {call : SessionCall} {raw : String} (hbears : call.token = some raw)
    (f : FromSessionStmt → SessionStmt) :
    (h.authenticator.fromSession raw).Steps fun l w w' =>
      Changes h call (f l) w.db.sessions w'.db.sessions := by
  refine .bind (read_steps fun w => .same _ _ _) fun verified => ?_
  refine .bind_returns (.ofExcept _) (claims_name h raw verified) fun claims hnames => ?_
  refine .bind_returns (.mapError (.mapError (read_steps fun w => .same _ _ _) _) _)
    (sessionWithUser_returns _ _) fun (session, user) hid => ?_
  exact visitSession_changes h hbears (hid ▸ hnames) user f

/-- Who is let in bears a token of the session. -/
theorem fromSession_returns {I : World Db Time → Prop} (raw : String) :
    (h.authenticator.fromSession raw).Returns I fun p =>
      h.authenticator.signer.Names raw p.sessionID := by
  refine .bind (.trivially _) fun verified _ => ?_
  refine .bind (claims_name h raw verified) fun claims hnames => ?_
  refine .bind (sessionWithUser_returns _ _) fun (session, user) hid => ?_
  refine .bind (.trivially _) fun now _ => ?_
  split_ifs
  · exact .bind (.trivially _) fun _ _ => returns_fail _
  · exact .bind (.trivially _) fun _ _ => returns_fail _
  · exact .bind (.trivially _) fun _ _ => returns_done.mpr (hid ▸ hnames)

theorem logout_changes (raw : String) :
    (h.authenticator.logout raw).Steps fun l s s' =>
      Changes h (.logout raw) (.logout l) s.sessions s'.sessions := by
  have hvisit : (onDb ((h.authenticator.fromSession raw).within LogoutStmt.authenticate)).Steps
      fun l s s' => Changes h (.logout raw) (.logout l) s.sessions s'.sessions :=
    onDb_steps (P := fun l rows rows' => Changes h (.logout raw) (.logout l) rows rows')
      (.within (fromSession_changes h rfl fun l => .logout (.authenticate l)))
  refine .bind_returns hvisit.option (.option (.onPart (I := fun _ => True)
    (.within (fromSession_returns h raw) _) fun _ _ => trivial)) fun principal hnames => ?_
  cases principal with
  | none => exact steps_done ()
  | some p =>
    simp only
    split_ifs
    · exact steps_done ()
    · exact .mapError (onDb_steps
        (P := fun l rows rows' => Changes h (.logout raw) (.logout l) rows rows')
        (deleteSession_changes h rfl (hnames p rfl) _ .logout)) _

theorem complete_changes (r : ResetCall) :
    (h.resets.complete r).Steps fun l s s' =>
      Changes h (.reset r) (.reset l) s.sessions s'.sessions := by
  have hkeeps : ∀ {α : Type} {p : AuthHandler ResetStmt α}, KeepsSessions p →
      p.Steps fun l s s' => Changes h (.reset r) (.reset l) s.sessions s'.sessions :=
    fun hp => hp.changes h _ _
  have haccept : KeepsSessions (h.resets.acceptReset r) := by
    refine .bind (.ofExcept _) fun password => ?_
    refine .bind (onDb_keeps (clock_reads (L := fun _ => True) trivial)) fun now => ?_
    refine .bind (.ofExcept _) fun (userID, id) => ?_
    cases h.resets.passwords.complexity password with
    | some detail => exact steps_fail _
    | none =>
      refine .bind (onDb_keeps (clock_reads (L := fun _ => True) trivial)) fun now => ?_
      refine .bind (.atomic fun _ => rfl) fun already => ?_
      refine .bind (Steps.mono (Reads.require (L := fun _ => True) _ _) fun _ _ _ hl => by rw [hl.1])
        fun _ => ?_
      exact .bind (.ofExcept _) fun hash => steps_done _
  refine .bind (hkeeps haccept) fun (userID, hash) => ?_
  refine .bind (.mapError ((updateUser_keeps _ _ _ _).changes h _ _) _) fun _ => ?_
  refine .bind (.succeeds (onDb_steps
    (P := fun l rows rows' => Changes h (.reset r) (.reset l) rows rows') ?_)) fun _ => steps_done _
  refine .bind (.mapError (exec_steps (fun w => .same _ _ _) fun w rows hrows => ?_) _)
    fun _ => steps_done _
  cases hrows
  exact .reset r _ _ userID

/-- **Every step of a call** changes the sessions as that call may. -/
theorem SessionCall.changes (call : SessionCall) :
    (call.serve h).Steps fun l s s' => Changes h call l s.sessions s'.sessions := by
  cases call with
  | login r => exact .bind (.within (login_changes h r)) fun _ => steps_done ()
  | visit raw =>
    exact .bind (onDb_steps (P := fun l rows rows' => Changes h (.visit raw) l rows rows')
      (.within (fromSession_changes h rfl .visit))) fun _ => steps_done ()
  | logout raw => exact .within (logout_changes h raw)
  | reset r => exact .within (complete_changes h r)

end Calls

/-! ## Any interleaving -/

/-- A step, with the call that takes it. -/
abbrev SessionLabel : Type := SessionCall × SessionStmt

/-- The calls at their start. -/
def arrivedSessions {ι : Type} (h : SessionHandlers) (calls : ι → SessionCall) (s : AuthServer) :
    Config ι SessionLabel Outcome AuthServer ApiError Unit where
  state := s
  procs := fun i => ((calls i).serve h).within fun l => (calls i, l)

/-- What else may happen, as far as sessions go: they end. -/
def SessionsEnd (s s' : AuthServer) : Prop := s'.sessions.Sublist s.sessions

/-- The move is the session write of a login of the account, and the session's id is that. -/
def WroteSession {ι : Type} (userID id : UUID) (m : Move ι SessionLabel AuthServer) : Prop :=
  ∃ i r row, m.mover = .proc i (.login r, .login (.session userID .write)) ∧ r.sessionID = id ∧
    row.id = id ∧ row.userID = userID ∧
    m.after.sessions = Db.upsertSession row m.before.sessions

/-- The last login of the account to write its session has given it that id. -/
def LastLogin {ι : Type} (userID id : UUID) (moves : List (Move ι SessionLabel AuthServer)) : Prop :=
  ∃ recent m earlier, moves = recent ++ m :: earlier ∧ WroteSession userID id m ∧
    ∀ m' ∈ recent, ∀ id', ¬ WroteSession userID id' m'

/-- The sessions of an account are the last login's, or, if none has written, those of the start. -/
def OwnSession {ι : Type} (start : List SessionRow) (userID : UUID)
    (moves : List (Move ι SessionLabel AuthServer)) (rows : List SessionRow) : Prop :=
  (∃ id, LastLogin userID id moves ∧ ∀ s ∈ rows, s.userID = userID → s.id = id) ∨
    (∀ m ∈ moves, ∀ id, ¬ WroteSession userID id m) ∧
      ∀ s ∈ rows, s.userID = userID → ∃ t ∈ start, t.id = s.id ∧ t.userID = userID

/-- The request leaves alone what its token does not name. -/
def Considerate {ι : Type} (h : SessionHandlers) (m : Move ι SessionLabel AuthServer) : Prop :=
  ∀ i call l raw, m.mover = .proc i (call, l) → call.token = some raw →
    ∀ s ∈ m.before.sessions, ¬ h.authenticator.signer.Names raw s.id → s ∈ m.after.sessions

section Histories

variable {ι : Type} {start rows : List SessionRow} {userID : UUID}
  {moves : List (Move ι SessionLabel AuthServer)} {m : Move ι SessionLabel AuthServer}

/-- **One move**, by whether it is a login of the account that writes. -/
theorem OwnSession.step (hown : OwnSession start userID moves m.before.sessions)
    (hrows : ∀ s ∈ m.after.sessions, s.userID = userID →
      (∃ id, WroteSession userID id m) ∨ ∃ t ∈ m.before.sessions, t.id = s.id ∧ t.userID = userID) :
    OwnSession start userID (m :: moves) m.after.sessions := by
  by_cases hwrote : ∃ id, WroteSession userID id m
  · -- its session is the account's only one
    obtain ⟨id, hwrote⟩ := hwrote
    refine .inl ⟨id, ⟨[], m, moves, rfl, hwrote, fun _ hm => nomatch hm⟩, fun s hs huser => ?_⟩
    obtain ⟨_, _, row, -, -, hid, hrow, hafter⟩ := hwrote
    rw [hafter] at hs
    rcases Db.mem_upsertSession.mp hs with rfl | ⟨-, hother⟩
    · exact hid
    · exact absurd (huser.trans hrow.symm) hother
  · have hkept : ∀ s ∈ m.after.sessions, s.userID = userID →
        ∃ t ∈ m.before.sessions, t.id = s.id ∧ t.userID = userID :=
      fun s hs huser => (hrows s hs huser).resolve_left hwrote
    have hnot : ∀ id, ¬ WroteSession userID id m := fun id h => hwrote ⟨id, h⟩
    rcases hown with ⟨id, ⟨recent, last, earlier, rfl, hlast, hrecent⟩, hall⟩ | ⟨hnone, hall⟩
    · refine .inl ⟨id, ⟨m :: recent, last, earlier, rfl, hlast, fun m' hm' => ?_⟩, ?_⟩
      · rcases List.mem_cons.mp hm' with rfl | hm'
        · exact hnot
        · exact hrecent m' hm'
      · intro s hs huser
        obtain ⟨t, ht, hid, htuser⟩ := hkept s hs huser
        exact hid.symm.trans (hall t ht htuser)
    · refine .inr ⟨fun m' hm' => ?_, fun s hs huser => ?_⟩
      · rcases List.mem_cons.mp hm' with rfl | hm'
        · exact hnot
        · exact hnone m' hm'
      · obtain ⟨t, ht, hid, htuser⟩ := hkept s hs huser
        obtain ⟨t', ht', hid', htuser'⟩ := hall t ht htuser
        exact ⟨t', ht', hid'.trans hid, htuser'⟩

end Histories

/-- **One session per account.** At every moment of every interleaving of logins, requests, logouts
and resets: at most one session of an account passes the lookup; it is the one of the last login to
write, if one has; and no request has changed a session that its token does not name. -/
theorem one_session {ι : Type} [DecidableEq ι] (h : SessionHandlers) (calls : ι → SessionCall)
    (s₀ : AuthServer) (hkeys : SessionKeys s₀.sessions)
    {moves : List (Move ι SessionLabel AuthServer)}
    {c : Config ι SessionLabel Outcome AuthServer ApiError Unit}
    (hhistory : History SessionsEnd (arrivedSessions h calls s₀) moves c) :
    (∀ id id' found found', c.state.world.db.sessionWithUser id = some found →
      c.state.world.db.sessionWithUser id' = some found' → found.1.userID = found'.1.userID →
      id = id') ∧
    (∀ id found, c.state.world.db.sessionWithUser id = some found →
      LastLogin found.1.userID id moves ∨
      (∀ m ∈ moves, ∀ id', ¬ WroteSession found.1.userID id' m) ∧
        ∃ t ∈ s₀.sessions, t.id = id ∧ t.userID = found.1.userID) ∧
    ∀ m ∈ moves, Considerate h m := by
  have hsteps : ∀ i, ((arrivedSessions h calls s₀).procs i).Steps fun l s s' =>
      Changes h l.1 l.2 s.sessions s'.sessions :=
    fun i => .within ((calls i).changes h)
  have hinv : SessionKeys c.state.sessions ∧
      (∀ userID, OwnSession s₀.sessions userID moves c.state.sessions) ∧
        ∀ m ∈ moves, Considerate h m := by
    refine hhistory.invariant (C := fun _ => True) (J := fun moves s => SessionKeys s.sessions ∧
      (∀ userID, OwnSession s₀.sessions userID moves s.sessions) ∧ ∀ m ∈ moves, Considerate h m)
      hsteps ?_ ?_ ?_ fun _ _ => trivial
    · refine ⟨hkeys, fun userID => .inr ⟨fun m hm => (nomatch hm), fun s hs huser => ?_⟩,
        fun m hm => nomatch hm⟩
      exact ⟨s, hs, rfl, huser⟩
    · rintro moves s s' i ⟨call, l⟩ ⟨hkeys, hown, hconsiderate⟩ hchanges -
      refine ⟨hchanges.keys hkeys, fun userID => (hown userID).step fun t ht huser => ?_, ?_⟩
      · rcases hchanges.owned ht with ⟨r, row, rfl, rfl, hid, hrow, hafter⟩ | hold
        · exact .inl ⟨r.sessionID, i, r, row, by rw [← huser], rfl, hid, hrow.trans huser, hafter⟩
        · exact .inr (huser ▸ hold)
      · intro m hm
        rcases List.mem_cons.mp hm with rfl | hm
        · rintro _ _ _ raw ⟨⟩ hbears t ht hother
          exact hchanges.others hbears ht hother
        · exact hconsiderate m hm
    · rintro moves s s' ⟨hkeys, hown, hconsiderate⟩ hend
      refine ⟨hkeys.sublist hend, fun userID => (hown userID).step fun t ht huser => ?_, ?_⟩
      · exact .inr ⟨t, hend.subset ht, rfl, huser⟩
      · intro m hm
        rcases List.mem_cons.mp hm with rfl | hm
        · rintro _ _ _ _ ⟨⟩
        · exact hconsiderate m hm
  obtain ⟨hkeys, hown, hconsiderate⟩ := hinv
  -- what the lookup finds is a row of the table
  have hrow : ∀ id found, c.state.world.db.sessionWithUser id = some found →
      ∃ s ∈ c.state.sessions, s.id = id ∧ s.userID = found.1.userID := by
    intro id found hfound
    obtain ⟨s, hs, hrest⟩ := Option.bind_eq_some_iff.mp hfound
    obtain ⟨u, -, hpair⟩ := Option.bind_eq_some_iff.mp hrest
    cases hpair
    exact ⟨s, List.mem_of_find?_eq_some hs,
      beq_iff_eq.mp (List.find?_some (p := fun s : SessionRow => s.id == id) hs), rfl⟩
  refine ⟨fun id id' found found' hfound hfound' huser => ?_, fun id found hfound => ?_,
    hconsiderate⟩
  · obtain ⟨s, hs, rfl, hsuser⟩ := hrow id found hfound
    obtain ⟨t, ht, rfl, htuser⟩ := hrow id' found' hfound'
    rw [hkeys.row_of_user hs ht (hsuser.trans (huser.trans htuser.symm))]
  · obtain ⟨s, hs, rfl, hsuser⟩ := hrow id found hfound
    rcases hown found.1.userID with ⟨id, hlast, hall⟩ | ⟨hnone, hall⟩
    · rw [hall s hs hsuser]
      exact .inl hlast
    · exact .inr ⟨hnone, hall s hs hsuser⟩

/-! ## Anna changes the browser -/

def plainSessions : SessionHandlers where
  auth := plainAuth
  authenticator := { signer := plainSigner, idleTimeout := Time.hour }
  resets := { rt := .ascii, parseReset := fun _ _ => .error .invalid, passwords := plainPasswords }

/-- Anna logs in in one browser and in another, and out of the first. -/
def annasCalls (i : Fin 3) : SessionCall :=
  match i with
  | 0 => .login (annaWith "kebab" ⟨51⟩)
  | 1 => .login (annaWith "kebab" ⟨52⟩)
  | 2 => .logout (UUID.mk 51).string

/-- The second login comes before the last statement of the logout. -/
def annasBrowsers : Config (Fin 3) SessionLabel Outcome AuthServer ApiError Unit :=
  let c := arrivedSessions plainSessions annasCalls annasServer
  (((c.advance 0 (.replicate 9 .ok)).advance 2 (.replicate 4 .ok)).advance 1 (.replicate 9 .ok)).advance
    2 [.ok]

/-- The first session is gone, and its logout has not touched the second. -/
theorem one_session_anna :
    annasBrowsers.state.sessions.map SessionRow.id = [⟨52⟩] ∧
      ∃ moves, History SessionsEnd (arrivedSessions plainSessions annasCalls annasServer) moves
        annasBrowsers ∧ LastLogin ⟨1⟩ ⟨52⟩ moves := by
  have hfirst : History SessionsEnd (arrivedSessions plainSessions annasCalls annasServer) _ _ :=
    History.advance .start 0 (.replicate 9 .ok)
  have hlast := ((hfirst.advance 2 (.replicate 4 .ok)).advance 1 (.replicate 9 .ok)).advance 2 [.ok]
  have hkeys : SessionKeys annasServer.sessions := ⟨List.nodup_nil, List.nodup_nil⟩
  have hfound : (annasBrowsers.state.world.db.sessionWithUser ⟨52⟩).map
      (fun found => found.1.userID) = some ⟨1⟩ := by decide +kernel
  obtain ⟨found, hfound, huser⟩ := Option.map_eq_some_iff.mp hfound
  refine ⟨by decide +kernel, _, hlast, ?_⟩
  rcases (one_session plainSessions annasCalls annasServer hkeys hlast).2.1 ⟨52⟩ found hfound with
    hlogin | ⟨-, t, ht, -⟩
  · rwa [huser] at hlogin
  · cases ht

end Doenerstag
