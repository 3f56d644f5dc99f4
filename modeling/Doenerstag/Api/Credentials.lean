import Doenerstag.Api.AccountEdits
import Doenerstag.Api.PasswordReset
import Doenerstag.Lib.LookFirst

/-!
# Whose password it is (`docs/05_auth_and_permissions.md`)

Any number of registrations, logins, changes of an account and password resets run side by side, statement by
statement, while accounts are deleted. A password is verified against a hash that was read before, and what
is written may be about an account that has another hash by then.

* `Credential` — what the table says of who an account's owner is and what he may.
* `AccountCall.looking` — **what each call looks for, and what it may then store.**
-/

namespace Doenerstag

open ReadCommitted Prog

/-! ## Credentials -/

structure Credential where
  id : UUID
  isAdmin : Bool
  passwordHash : String
  deriving DecidableEq, Repr

def AppUserRow.credential (u : AppUserRow) : Credential :=
  { id := u.id, isAdmin := u.isAdmin, passwordHash := u.passwordHash }

def Db.credentials (db : Db) : List Credential := db.appUsers.map AppUserRow.credential

/-- A hash is stored for an account, which stays an administrator or nobody in particular. -/
def Sets (id : UUID) (hash : String) (before after : List Credential) : Prop :=
  ∀ c ∈ after, c ∈ before ∨ c.id = id ∧ c.passwordHash = hash ∧ ∃ b ∈ before, b.id = id ∧ b.isAdmin = c.isAdmin

/-- An account is added, with a hash. -/
def Adds (id : UUID) (hash : String) (before after : List Credential) : Prop :=
  ∀ c ∈ after, c ∈ before ∨ c = { id, isAdmin := false, passwordHash := hash }

section Table

variable {rt : Runtime} {id : UUID} {db db' : Db} {change : UserUpdate} {u : AppUserRow}

theorem credential_of_userByID (h : db.userByID id = some u) : u.credential ∈ db.credentials ∧ u.id = id :=
  ⟨List.mem_map_of_mem (List.mem_of_find?_eq_some h),
    beq_iff_eq.mp (List.find?_some (p := fun u : AppUserRow => u.id == id) h)⟩

/-- A row of an update is one that was there, or that of the account, changed. -/
theorem mem_updateUser (h : Db.updateUser rt id change db = .ok (db', some u)) :
    ∀ c ∈ db'.credentials,
      c ∈ db.credentials ∨ ∃ old, db.userByID id = some old ∧ c = (change.apply old).credential := by
  unfold Db.updateUser at h
  split at h
  · cases h
  · rename_i old hold
    simp only at h
    split_ifs at h
    cases h
    intro c hc
    obtain ⟨v, hv, rfl⟩ := List.mem_map.mp hc
    obtain ⟨w, hw, rfl⟩ := List.mem_map.mp hv
    split_ifs
    · exact .inr ⟨old, hold, rfl⟩
    · exact .inl (List.mem_map_of_mem hw)

theorem updateUser_keeps_hash (hchange : change.passwordHash = none)
    (h : Db.updateUser rt id change db = .ok (db', some u)) : db'.credentials ⊆ db.credentials := by
  intro c hc
  rcases mem_updateUser h c hc with hc | ⟨old, hold, rfl⟩
  · exact hc
  · have hsame : (change.apply old).credential = old.credential := by
      unfold AppUserRow.credential UserUpdate.apply
      rw [hchange]
      rfl
    rw [hsame]
    exact (credential_of_userByID hold).1

theorem updateUser_sets {hash : String} (hchange : change.passwordHash = some hash)
    (h : Db.updateUser rt id change db = .ok (db', some u)) : Sets id hash db.credentials db'.credentials := by
  intro c hc
  rcases mem_updateUser h c hc with hc | ⟨old, hold, rfl⟩
  · exact .inl hc
  · obtain ⟨hmem, hid⟩ := credential_of_userByID hold
    refine .inr ⟨hid, ?_, old.credential, hmem, hid, rfl⟩
    show change.passwordHash.getD old.passwordHash = hash
    rw [hchange]
    rfl

theorem insertUser_adds {new : NewUser} (h : Db.insertUser rt (new.row id) db = .ok (db', some u)) :
    Adds id new.passwordHash db.credentials db'.credentials := by
  unfold Db.insertUser at h
  split_ifs at h
  cases h
  intro c hc
  obtain ⟨v, hv, rfl⟩ := List.mem_map.mp hc
  rcases List.mem_append.mp hv with hv | hv
  · exact .inl (List.mem_map_of_mem hv)
  · rw [List.mem_singleton.mp hv]
    exact .inr rfl

theorem recordLogin_credentials {stamp : Time} {r : Db × Nat} (h : Db.recordLogin id stamp db = .ok r) :
    r.1.credentials = db.credentials := by
  cases h
  show (db.appUsers.map _).map _ = db.appUsers.map _
  rw [List.map_map]
  apply List.map_congr_left
  intro u _
  show AppUserRow.credential (if _ then _ else _) = u.credential
  split_ifs <;> rfl

end Table

/-! ## The calls -/

structure AccountServer where
  rt : Runtime
  signer : Signer
  absoluteTimeout : Duration
  limiter : Option LoginLimiter
  passwords : Passwords
  addresses : AddressParser
  parseReset : String → Time → Except ResetError (UUID × String)

namespace AccountServer

variable (h : AccountServer)

def auth : AuthHandlers :=
  { rt := h.rt, signer := h.signer, absoluteTimeout := h.absoluteTimeout, limiter := h.limiter
    passwords := h.passwords }

def users : UserHandlers := { rt := h.rt, passwords := h.passwords, addresses := h.addresses }

def resets : ResetHandlers := { rt := h.rt, parseReset := h.parseReset, passwords := h.passwords }

end AccountServer

inductive AccountCall where
  | register (r : RegisterCall)
  | login (r : LoginCall)
  | patch (call : PatchUserCall)
  | reset (r : ResetCall)

inductive AccountStmt where
  | register (s : RegisterStmt)
  | login (s : LoginStmt)
  | patch (s : PatchUserStmt)
  | reset (s : ResetStmt)
  deriving DecidableEq, Repr

inductive AccountAnswer where
  | registered (a : LoginAnswer)
  | loggedIn (a : LoginAnswer)
  | changed (user : AppUserRow)
  | reset
  deriving DecidableEq, Repr

/-- The hash is that of a password that may be chosen. -/
def Passwords.Chooses (P : Passwords) (salt password hash : String) : Prop :=
  P.complexity password = none ∧ P.hash salt password = .ok hash

namespace AccountCall

variable (h : AccountServer)

def serve : AccountCall → AuthHandler AccountStmt AccountAnswer
  | register r => do
    let a ← (h.auth.register h.addresses r).within .register
    pure (.registered a)
  | login r => do
    let a ← (h.auth.login r).within .login
    pure (.loggedIn a)
  | patch call => do
    let user ← (onDb (h.users.patch call)).within .patch
    pure (.changed user)
  | reset r => do
    (h.resets.complete r).within .reset
    pure .reset

/-- What may happen without looking: nothing is stored, or the account that was asked for is added. -/
def Quiet (before after : List Credential) : AccountCall → Prop
  | register r => after ⊆ before ∨ ∃ body hash, r.body = .ok body ∧
      h.passwords.Chooses r.salt body.password hash ∧ Adds r.userID hash before after
  | _ => after ⊆ before

/-- Who may change the password of an account: its owner, who says the one that is stored, or an administrator. -/
def MayChange (w : World Db Time) (id : UUID) (p : Principal) (body : PatchUserRequest) : Prop :=
  (p.userID = id ∧ ∃ current c, body.currentPassword = some current ∧ c ∈ w.db.credentials ∧ c.id = id ∧
    h.passwords.verify current c.passwordHash = true) ∨ p.userID ≠ id ∧ p.isAdmin = true

/-- What a call has to find before it may store a hash for an account. -/
def Learns (w : World Db Time) (id : UUID) : AccountCall → Prop
  | register _ => False
  | login r => ∃ body c, r.body = .ok body ∧ c ∈ w.db.credentials ∧ c.id = id ∧
      isUnusable c.passwordHash = false ∧ h.passwords.verify body.password c.passwordHash = true
  | patch call => h.rt.parseUUID call.request.id = some id ∧ id ≠ deletedUserID ∧
      ∃ p body, call.request.principal = some p ∧ call.request.body = .ok body ∧ MayChange h w id p body
  | reset r => ∃ token, h.parseReset r.token w.now = .ok (id, token)

/-- What it then stores: a login the password that it came with, the others the one that was chosen. -/
def Acts (id : UUID) (before after : List Credential) : AccountCall → Prop
  | register _ => False
  | login r => ∃ body hash, r.body = .ok body ∧ h.passwords.hash r.salt body.password = .ok hash ∧
      Sets id hash before after
  | patch call => ∃ body password hash, call.request.body = .ok body ∧ body.password = some password ∧
      h.passwords.Chooses call.salt password hash ∧ Sets id hash before after
  | reset r => ∃ password hash, r.body = .ok password ∧ h.passwords.Chooses r.salt password hash ∧
      Sets id hash before after

/-- How a call goes about it. -/
def manner {ℓ : Type} (call : AccountCall) : Manner ℓ (World Db Time) UUID where
  quiet := fun _ w w' => call.Quiet h w.db.credentials w'.db.credentials
  learns := fun w id => call.Learns h w id
  acts := fun id _ w w' => call.Acts h id w.db.credentials w'.db.credentials

end AccountCall

/-! ## What is left alone -/

/-- The statements store no password. -/
abbrev StoresNone {ℓ χ α : Type} (p : Program ℓ Db Time χ α) : Prop :=
  p.Steps fun _ w w' => w'.db.credentials ⊆ w.db.credentials

/-- The same, among what the handlers share. -/
abbrev StoresNothing {ℓ χ α : Type} (p : Prog ℓ Outcome AuthServer χ α) : Prop :=
  p.Steps fun _ s s' => s'.world.db.credentials ⊆ s.world.db.credentials

theorem StoresNone.onDb {ℓ χ α : Type} {p : Program ℓ Db Time χ α} (hp : StoresNone p) : StoresNothing (onDb p) :=
  .onPart hp fun _ _ _ hsub => hsub

theorem Reads.storesNone {ℓ χ α : Type} {L : ℓ → Prop} {p : Program ℓ Db Time χ α} (hp : p.Reads L) : StoresNone p :=
  Steps.mono hp fun _ w w' hl => by rw [hl.1]; exact List.Subset.refl _

theorem updateUser_storesNone {ℓ : Type} (l : ℓ) (rt : Runtime) (id : UUID) {change : UserUpdate}
    (hchange : change.passwordHash = none) : StoresNone (updateUser l rt id change) := by
  unfold updateUser
  split_ifs
  · exact Reads.storesNone (userByID_reads (L := fun _ => True) trivial id)
  · refine .mapError (returning_steps (fun w => List.Subset.refl _) fun w db u hu => ?_) _
    exact updateUser_keeps_hash hchange hu

theorem recordLogin_storesNone {ℓ : Type} (l : ℓ) (id : UUID) (stamp : Time) : StoresNone (recordLogin l id stamp) := by
  refine .bind (.mapError (exec_steps (fun w => List.Subset.refl _) fun w r hr => ?_) _) fun _ => steps_done _
  rw [show ({ w with db := r.1 } : World Db Time).db.credentials = _ from recordLogin_credentials hr]
  exact List.Subset.refl _

theorem deleteSessionsForUser_storesNone {ℓ : Type} (l : ℓ) (id : UUID) : StoresNone (deleteSessionsForUser l id) := by
  refine .bind (.mapError (exec_steps (fun w => List.Subset.refl _) fun w r hr => ?_) _) fun _ => steps_done _
  cases hr
  exact List.Subset.refl _

theorem replaceSession_storesNone (id : UUID) (new : NewSession) : StoresNone (replaceSession id new) := by
  refine .bind (Reads.storesNone (stampAt_reads (L := fun _ => True) trivial _)) fun issued => .mapError ?_ _
  refine returning_steps (fun w => List.Subset.refl _) fun w db session hsession => ?_
  have hresult := (Db.replaceSession_eq_ok hsession).2.2
  cases hresult
  exact List.Subset.refl _

theorem world_setCounts (counts : LoginCounts) (s : AuthServer) : (s.setCounts counts).world = s.world := rfl

/-- What does not touch the database stores nothing. -/
theorem storesNothing_atomic {ℓ χ α : Type} {l : ℓ} {f : AuthServer → α × AuthServer}
    (hf : ∀ s, (f s).2.world = s.world) : StoresNothing (Prog.atomic l f : Prog ℓ Outcome AuthServer χ α) :=
  Steps.atomic fun s => by rw [hf s]; exact List.Subset.refl _

namespace AuthHandlers

variable (h : AuthHandlers)

theorem allow_storesNothing (name address : String) : StoresNothing (h.allow name address) := by
  unfold allow
  cases h.limiter with
  | none => exact steps_done ()
  | some limiter => exact .bind (storesNothing_atomic fun s => world_setCounts _ s) fun wait => .require _ _

theorem failLogin_storesNothing {α : Type} (name address : String) :
    StoresNothing (h.failLogin name address : AuthHandler LoginStmt α) := by
  refine .bind ?_ fun _ => steps_fail _
  unfold recordLoginFailure
  cases h.limiter with
  | none => exact steps_done ()
  | some limiter => exact storesNothing_atomic fun s => world_setCounts _ s

theorem failLogin_returns {α : Type} {I : AuthServer → Prop} {A : α → Prop} (name address : String) :
    (h.failLogin name address : AuthHandler LoginStmt α).Returns I A :=
  .bind (.trivially _) fun _ _ => returns_fail _

theorem recordLoginSuccess_storesNothing (name : String) : StoresNothing (h.recordLoginSuccess name) := by
  unfold recordLoginSuccess
  cases h.limiter with
  | none => exact steps_done ()
  | some limiter => exact storesNothing_atomic fun s => world_setCounts _ s

theorem verifyLogin_storesNothing (name address password : String) (user : AppUserRow) :
    StoresNothing (h.verifyLogin name address password user) := by
  unfold verifyLogin
  split_ifs
  · exact h.failLogin_storesNothing name address
  · refine .bind (storesNothing_atomic fun _ => rfl) fun _ => ?_
    split_ifs
    · exact steps_done ()
    · exact h.failLogin_storesNothing name address

/-- A password that does not match the hash gets no further. -/
theorem verifyLogin_returns {I : AuthServer → Prop} (name address password : String) (user : AppUserRow) :
    (h.verifyLogin name address password user).Returns I fun _ =>
      isUnusable user.passwordHash = false ∧ h.passwords.verify password user.passwordHash = true := by
  unfold verifyLogin
  split_ifs with hunusable
  · exact h.failLogin_returns name address
  · refine .bind (.trivially _) fun _ _ => ?_
    split_ifs with hmatched
    · exact returns_done.mpr ⟨Bool.eq_false_iff.mpr hunusable, hmatched⟩
    · exact h.failLogin_returns name address

theorem startSession_storesNothing (r : LoginCall) (user : AppUserRow) : StoresNothing (h.startSession r user) := by
  refine .bind (StoresNone.onDb (Reads.storesNone (clock_reads (L := fun _ => True) trivial))) fun issued => ?_
  refine .bind (.mapError (StoresNone.onDb (.within (replaceSession_storesNone _ _))) _) fun session => ?_
  refine .bind (.ofExcept _) fun token => ?_
  refine steps_step.mpr fun e s => ⟨List.Subset.refl _, ?_⟩
  split_ifs
  · exact steps_fail _
  · exact steps_done _

theorem noteLogin_storesNothing (user : AppUserRow) : StoresNothing (noteLogin user) :=
  .bind (StoresNone.onDb (Reads.storesNone (clock_reads (L := fun _ => True) trivial))) fun _ =>
    .bind (.succeeds (StoresNone.onDb (recordLogin_storesNone _ _ _))) fun _ => steps_done _

end AuthHandlers

/-! ## What each looks for -/

section Calls

variable (h : AccountServer)

theorem updateUser_acting {ℓ : Type} {M : Manner ℓ (World Db Time) UUID} {l : ℓ} {id : UUID} {change : UserUpdate}
    {hash : String} (hchange : change.passwordHash = some hash) (hquiet : ∀ w, M.quiet l w w)
    (hacts : ∀ w db, Sets id hash w.db.credentials db.credentials → M.acts id l w { w with db }) :
    (updateUser l h.rt id change).Acting M id := by
  unfold updateUser
  rw [if_neg (by rintro rfl; cases hchange)]
  apply Acting.mapError
  apply acting_returning hquiet
  exact fun w db u hu => hacts w db (updateUser_sets hchange hu)

/-! A registration -/

theorem newUser_chooses {salt : String} {body : RegisterRequest} {new : NewUser}
    (hnew : h.auth.newUser h.addresses salt body = .ok new) :
    h.passwords.Chooses salt body.password new.passwordHash := by
  unfold AuthHandlers.newUser at hnew
  obtain ⟨_, -, hnew⟩ := exceptBind_eq_ok hnew
  obtain ⟨_, -, hnew⟩ := exceptBind_eq_ok hnew
  obtain ⟨_, -, hnew⟩ := exceptBind_eq_ok hnew
  have hauth : h.auth.passwords = h.passwords := rfl
  rw [hauth] at hnew
  cases hcomplexity : h.passwords.complexity body.password with
  | some detail =>
    rw [hcomplexity] at hnew
    cases hnew
  | none =>
    rw [hcomplexity] at hnew
    obtain ⟨hash, hhash, hnew⟩ := exceptBind_eq_ok hnew
    cases hnew
    exact ⟨hcomplexity, exceptMapError_eq_ok hhash⟩

theorem register_steps (r : RegisterCall) : (h.auth.register h.addresses r).Steps fun _ s s' =>
    (AccountCall.register r).Quiet h s.world.db.credentials s'.world.db.credentials := by
  refine .bind (.require _ _) fun _ => ?_
  refine .bind_returns (.ofExcept _) (.ofExcept fun body hbody => hbody) fun body hbody => ?_
  refine .bind_returns (.ofExcept _) (.ofExcept fun new hnew => newUser_chooses h hnew) fun new hchooses => ?_
  have hcreate : (createUser RegisterStmt.create h.auth.rt r.userID new).Steps fun _ w w' =>
      (AccountCall.register r).Quiet h w.db.credentials w'.db.credentials := by
    refine .mapError (returning_steps (fun w => .inl (List.Subset.refl _)) fun w db u hu => ?_) _
    exact .inr ⟨body, new.passwordHash, hbody, hchooses, insertUser_adds hu⟩
  refine .bind (.mapError (.onPart hcreate fun _ _ _ hquiet => hquiet) _) fun user => ?_
  have hsession : StoresNothing ((h.auth.startSession r.visit user).within RegisterStmt.session) :=
    .within (h.auth.startSession_storesNothing r.visit user)
  exact .bind (hsession.mono fun _ _ _ hsub => .inl hsub) fun _ => steps_done _

/-! A login -/

theorem rehashIfNeeded_acting (r : LoginCall) {body : LoginRequest} (hbody : r.body = .ok body) (user : AppUserRow) :
    (h.auth.rehashIfNeeded user body.password r.salt).Acting
      (((AccountCall.login r).manner h).comap AuthServer.world) user.id := by
  unfold AuthHandlers.rehashIfNeeded
  split_ifs
  · cases hhash : h.auth.passwords.hash r.salt body.password with
    | error x => exact acting_done _
    | ok upgraded =>
      refine Acting.bind (Acting.succeeds (Acting.onPart (fun _ _ => rfl) ?_)) fun _ => steps_done _
      refine updateUser_acting h rfl (fun w => List.Subset.refl _) fun w db hsets => ?_
      exact ⟨body, upgraded, hbody, hhash, hsets⟩
  · exact acting_done _

theorem acceptLogin_acting (r : LoginCall) {body : LoginRequest} (hbody : r.body = .ok body) (name : String)
    (user : AppUserRow) : (h.auth.acceptLogin r name body.password user).Acting
      (((AccountCall.login r).manner h).comap AuthServer.world) user.id := by
  refine Steps.bind_acting (h.auth.recordLoginSuccess_storesNothing name) fun _ => ?_
  refine Acting.bind (rehashIfNeeded_acting h r hbody user) fun _ => ?_
  refine .bind (h.auth.startSession_storesNothing r user) fun (session, token) => ?_
  exact .bind (AuthHandlers.noteLogin_storesNothing user) fun _ => steps_done _

/-- The password is verified against the row that was found. -/
theorem verified_looking (r : LoginCall) {body : LoginRequest} (hbody : r.body = .ok body) (name : String)
    {w : World Db Time} {user : AppUserRow} (huser : user.credential ∈ w.db.credentials) :
    (h.auth.verifyLogin name r.address body.password user >>= fun _ =>
        h.auth.acceptLogin r name body.password user).Looking
      (((AccountCall.login r).manner h).comap AuthServer.world) ∨
    ∃ id, (AccountCall.login r).Learns h w id ∧
      (h.auth.verifyLogin name r.address body.password user >>= fun _ =>
        h.auth.acceptLogin r name body.password user).Acting
          (((AccountCall.login r).manner h).comap AuthServer.world) id := by
  have hkeeps := h.auth.verifyLogin_storesNothing name r.address body.password user
  by_cases hverified : isUnusable user.passwordHash = false ∧
      h.passwords.verify body.password user.passwordHash = true
  · refine .inr ⟨user.id, ⟨body, user.credential, hbody, huser, rfl, hverified⟩, ?_⟩
    exact Steps.bind_acting hkeeps fun _ => acceptLogin_acting h r hbody name user
  · left
    apply Steps.looking
    refine .bind_returns hkeeps (h.auth.verifyLogin_returns name r.address body.password user) fun _ hmatch => ?_
    exact absurd hmatch hverified

theorem login_looking (r : LoginCall) :
    (h.auth.login r).Looking (((AccountCall.login r).manner h).comap AuthServer.world) := by
  unfold AuthHandlers.login
  refine looking_ofExcept_bind fun body hbody => ?_
  refine Steps.bind_looking (h.auth.allow_storesNothing _ _) fun _ => ?_
  split_ifs
  · exact Steps.looking (h.auth.failLogin_storesNothing _ _)
  -- the statement that finds the account, and what comes of it
  unfold AuthHandlers.loginAccount passwordHashByName queryRow
  rw [read_mapError]
  refine looking_step.mpr fun e s => ⟨List.Subset.refl _, ?_⟩
  cases hrow : (e.row (Db.userByName h.auth.rt (trimSpace body.name) s.world.db) : Except (StmtError PgError) _) with
  | error x =>
    left
    simp only [hrow, exceptMapError_error, Prog.ofExcept, onPart, handle_fail]
    apply Steps.looking
    refine .bind_returns (A := fun _ => False) ?_ ?_ fun _ hnone => hnone.elim
    · split_ifs
      · exact .bind (storesNothing_atomic fun _ => rfl) fun _ => h.auth.failLogin_storesNothing _ _
      · exact steps_fail _
    · split_ifs
      · exact .bind (.trivially _) fun _ _ => h.auth.failLogin_returns _ _
      · exact returns_fail _
  | ok user =>
    simp only [hrow, exceptMapError_ok, Prog.ofExcept, onPart, handle_done]
    exact verified_looking h r hbody (trimSpace body.name)
      (List.mem_map_of_mem (List.mem_of_find?_eq_some (Outcome.row_eq_ok hrow)))

/-! A change of an account -/

theorem validateFields_hash {user : AppUserRow} {body : PatchUserRequest} {update : UserUpdate}
    (hupdate : h.users.validateFields user body = .ok update) : update.passwordHash = none := by
  unfold UserHandlers.validateFields at hupdate
  obtain ⟨_, -, hupdate⟩ := exceptBind_eq_ok hupdate
  obtain ⟨_, -, hupdate⟩ := exceptBind_eq_ok hupdate
  obtain ⟨_, -, hupdate⟩ := exceptBind_eq_ok hupdate
  cases hupdate
  rfl

theorem hashNew_chooses {salt password hash : String} (hhash : h.users.hashNew salt password = .ok hash) :
    h.passwords.Chooses salt password hash := by
  unfold UserHandlers.hashNew at hhash
  have husers : h.users.passwords = h.passwords := rfl
  rw [husers] at hhash
  cases hcomplexity : h.passwords.complexity password with
  | some detail =>
    rw [hcomplexity] at hhash
    cases hhash
  | none =>
    rw [hcomplexity] at hhash
    exact ⟨hcomplexity, exceptMapError_eq_ok hhash⟩

theorem endSessions_storesNone (user : AppUserRow) (p : Principal) (update : UserUpdate) :
    StoresNone (UserHandlers.endSessions user p update) := by
  unfold UserHandlers.endSessions
  split_ifs
  · exact .mapError (deleteSessionsForUser_storesNone _ _) _
  · exact steps_done ()

/-- What follows when no password is among the changes. -/
theorem update_storesNone (user : AppUserRow) (p : Principal) {update : UserUpdate}
    (hupdate : update.passwordHash = none) :
    StoresNone (do
      let updated ← (updateUser PatchUserStmt.update h.rt user.id update).mapError createUserError
      UserHandlers.endSessions user p update
      pure updated) := by
  refine .bind (.mapError (updateUser_storesNone _ _ _ hupdate) _) fun updated => ?_
  exact .bind (endSessions_storesNone user p update) fun _ => steps_done _

/-- What follows when a password is. -/
theorem hashNew_acting (call : PatchUserCall) {body : PatchUserRequest} (hbody : call.request.body = .ok body)
    {password : String} (hpassword : body.password = some password) (user : AppUserRow) (p : Principal)
    (update : UserUpdate) :
    (do
      let hash ← Prog.ofExcept (h.users.hashNew call.salt password)
      let updated ← (updateUser PatchUserStmt.update h.rt user.id { update with passwordHash := some hash }).mapError
        createUserError
      UserHandlers.endSessions user p { update with passwordHash := some hash }
      pure updated : Handler PatchUserStmt AppUserRow).Acting ((AccountCall.patch call).manner h) user.id := by
  refine acting_ofExcept_bind fun hash hhash => ?_
  apply Acting.bind
  · apply Acting.mapError
    refine updateUser_acting h rfl (fun w => List.Subset.refl _) fun w db hsets => ?_
    exact ⟨body, password, hash, hbody, hpassword, hashNew_chooses h hhash, hsets⟩
  · exact fun updated => .bind (endSessions_storesNone user p _) fun _ => steps_done _

/-- The owner says the password that is stored. -/
theorem confirmed_looking (call : PatchUserCall) {body : PatchUserRequest} (hbody : call.request.body = .ok body)
    {password : String} (hpassword : body.password = some password) {user : AppUserRow} {p : Principal}
    (hprincipal : call.request.principal = some p) (hown : p.userID = user.id)
    (hpath : h.rt.parseUUID call.request.id = some user.id) (hreal : user.id ≠ deletedUserID) (update : UserUpdate) :
    (do
      h.users.confirmCurrent user body.currentPassword
      let hash ← Prog.ofExcept (h.users.hashNew call.salt password)
      let updated ← (updateUser PatchUserStmt.update h.rt user.id { update with passwordHash := some hash }).mapError
        createUserError
      UserHandlers.endSessions user p { update with passwordHash := some hash }
      pure updated : Handler PatchUserStmt AppUserRow).Looking ((AccountCall.patch call).manner h) := by
  unfold UserHandlers.confirmCurrent
  cases hcurrent : body.currentPassword with
  | none => exact looking_fail _
  | some current =>
    simp only [bind_assoc]
    refine looking_require_bind fun _ => ?_
    refine looking_queryRow_bind (fun w => List.Subset.refl _) fun w stored hstored => ?_
    cases hverified : h.passwords.verify current stored with
    | false =>
      left
      rw [show h.users.passwords.verify current stored = false from hverified]
      exact looking_fail _
    | true =>
      obtain ⟨row, hrow, rfl⟩ := Option.map_eq_some_iff.mp hstored
      obtain ⟨hmem, hid⟩ := credential_of_userByID hrow
      have hmay : AccountCall.MayChange h w user.id p body :=
        .inl ⟨hown, current, _, hcurrent, hmem, hid, hverified⟩
      refine .inr ⟨user.id, ⟨hpath, hreal, p, body, hprincipal, hbody, hmay⟩, ?_⟩
      exact Steps.bind_acting (.require _ _) fun _ => hashNew_acting h call hbody hpassword user p update

/-- What is known when the account has been found. -/
theorem patchUser_looking (call : PatchUserCall) {user : AppUserRow} {p : Principal}
    (hprincipal : call.request.principal = some p) (hmay : p.userID = user.id ∨ p.isAdmin = true)
    (hpath : h.rt.parseUUID call.request.id = some user.id) (hreal : user.id ≠ deletedUserID) (w : World Db Time) :
    (h.users.patchUser user p call).Looking ((AccountCall.patch call).manner h) ∨
      ∃ id, (AccountCall.patch call).Learns h w id ∧
        (h.users.patchUser user p call).Acting ((AccountCall.patch call).manner h) id := by
  unfold UserHandlers.patchUser
  cases hbody : call.request.body with
  | error x => exact .inl (looking_fail _)
  | ok body =>
    unfold UserHandlers.validatePatch
    simp only [Prog.ofExcept, done_bind, bind_assoc]
    cases hfields : h.users.validateFields user body with
    | error x => exact .inl (looking_fail _)
    | ok update =>
      cases hpassword : body.password with
      | none => exact .inl (Steps.looking (update_storesNone h user p (validateFields_hash h hfields)))
      | some password =>
        simp only [UserHandlers.newPasswordHash, bind_assoc, pure_eq, done_bind]
        by_cases hown : p.userID = user.id
        · left
          rw [if_pos (show p.is user.id = true from beq_iff_eq.mpr hown), bind_assoc]
          exact confirmed_looking h call hbody hpassword hprincipal hown hpath hreal update
        · right
          rw [if_neg (show ¬ p.is user.id = true from fun his => hown (beq_iff_eq.mp his))]
          refine ⟨user.id, ⟨hpath, hreal, p, body, hprincipal, hbody, .inr ⟨hown, hmay.resolve_left hown⟩⟩, ?_⟩
          exact hashNew_acting h call hbody hpassword user p update

theorem patch_looking (call : PatchUserCall) :
    (h.users.patch call).Looking ((AccountCall.patch call).manner h) := by
  unfold UserHandlers.patch lookupUser loadParam
  cases hid : h.users.rt.parseUUID call.request.id with
  | none => exact looking_fail _
  | some id =>
    refine looking_queryRow_bind (fun w => List.Subset.refl _) fun w user huser => ?_
    obtain rfl := (credential_of_userByID huser).2
    cases howner : requireOwner call.request.principal user.id with
    | error x => exact .inl (looking_fail _)
    | ok p =>
      cases hplaceholder : requireNotPlaceholder user.id with
      | error x => exact .inl (looking_fail _)
      | ok _ =>
        obtain ⟨hprincipal, hmay⟩ := requireOwner_eq_ok howner
        exact patchUser_looking h call hprincipal hmay hid (requireNotPlaceholder_eq_ok hplaceholder) w

/-! A reset -/

/-- The clock is looked at, after which enough may be known. -/
theorem looking_clock_bind {ℓ χ α κ : Type} {M : Manner ℓ (World Db Time) κ} {l : ℓ}
    {f : Time → Prog ℓ Outcome AuthServer χ α} (hquiet : ∀ w, M.quiet l w w)
    (hf : ∀ w, (f w.now).Looking (M.comap AuthServer.world) ∨
      ∃ k, M.learns w k ∧ (f w.now).Acting (M.comap AuthServer.world) k) :
    (onDb (clock l) >>= f).Looking (M.comap AuthServer.world) :=
  looking_step.mpr fun _ s => ⟨hquiet s.world, hf s.world⟩

theorem acceptedReset_acting (r : ResetCall) {password : String} (hbody : r.body = .ok password) (userID : UUID)
    (id : String) :
    (do
      let (userID, hash) ← (match h.passwords.complexity password with
        | some detail => throw { code := codePasswordTooWeak, field := "password", detail }
        | none => do
          let now ← onDb (clock .spendNow)
          let already ← Prog.atomic .spend fun s =>
            let r := spendReset id now s.spent
            (r.1, { s with spent := r.2 })
          Prog.require (!already) (.of codeResetInvalid)
          let hash ← .ofExcept ((h.passwords.hash r.salt password).mapError fun _ => .of codeInternal)
          pure (userID, hash))
      let _ ← (onDb (updateUser .update h.rt userID
        { UserUpdate.empty with passwordHash := some hash })).mapError storePasswordError
      let _ ← (onDb (deleteSessionsForUser (.delete userID) userID)).succeeds
      : AuthHandler ResetStmt Unit).Acting (((AccountCall.reset r).manner h).comap AuthServer.world) userID := by
  cases hcomplexity : h.passwords.complexity password with
  | some detail => exact acting_fail _
  | none =>
    simp only [bind_assoc, pure_eq, done_bind]
    refine Steps.bind_acting
      (StoresNone.onDb (Reads.storesNone (clock_reads (L := fun _ => True) trivial))) fun now => ?_
    refine Steps.bind_acting (storesNothing_atomic fun _ => rfl) fun already => ?_
    refine Steps.bind_acting (.require _ _) fun _ => ?_
    refine acting_ofExcept_bind fun hash hhash => ?_
    refine Acting.bind (Acting.mapError (Acting.onPart (fun _ _ => rfl) ?_) _) fun _ => ?_
    · refine updateUser_acting h rfl (fun w => List.Subset.refl _) fun w db hsets => ?_
      exact ⟨password, hash, hbody, ⟨hcomplexity, exceptMapError_eq_ok hhash⟩, hsets⟩
    · exact .bind (.succeeds (StoresNone.onDb (deleteSessionsForUser_storesNone _ _))) fun _ => steps_done _

theorem reset_looking (r : ResetCall) :
    (h.resets.complete r).Looking (((AccountCall.reset r).manner h).comap AuthServer.world) := by
  unfold ResetHandlers.complete ResetHandlers.acceptReset
  cases hbody : r.body with
  | error x => exact looking_fail _
  | ok password =>
    simp only [Prog.ofExcept, done_bind, bind_assoc]
    refine looking_clock_bind (fun w => List.Subset.refl _) fun w => ?_
    cases hparse : h.parseReset r.token w.now with
    | error x =>
      left
      rw [show h.resets.parseReset r.token w.now = .error x from hparse]
      exact looking_fail _
    | ok found =>
      obtain ⟨userID, id⟩ := found
      refine .inr ⟨userID, ⟨id, hparse⟩, ?_⟩
      rw [show h.resets.parseReset r.token w.now = .ok (userID, id) from hparse]
      exact acceptedReset_acting h r hbody userID id

/-- **What each call looks for, and what it may then store.** -/
theorem AccountCall.looking (call : AccountCall) :
    (call.serve h).Looking ((call.manner h).comap AuthServer.world) := by
  cases call with
  | register r => exact Steps.looking (.bind (.within (register_steps h r)) fun _ => steps_done _)
  | login r => exact Looking.bind (.within (login_looking h r)) fun _ => steps_done _
  | patch call =>
    exact Looking.bind (.within (Looking.onPart (fun _ _ => rfl) (patch_looking h call))) fun _ => steps_done _
  | reset r => exact Looking.bind (.within (reset_looking h r)) fun _ => steps_done _

end Calls

end Doenerstag
