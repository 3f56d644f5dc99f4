import Doenerstag.Api.Credentials

/-!
# Who knows the password (`docs/05_auth_and_permissions.md`)

A login stores the password that it came with once more when its hash is out of date, and it may do so after
somebody has changed it: which password is the last one cannot be said. What can be said is who has chosen it.

* `passwords_authorised` — in every interleaving, whoever stores a hash for an account has found before that he
  may.
* `Opens` — the passwords of an account: those of the start, and those that are chosen by who registers it, by its
  owner who says one of them, by an administrator, or by who has a reset link.
* `loggedIn_known` — **nobody is logged in with any other.**
* `protected_accounts` — nobody becomes an administrator, and nobody is logged in as the account that stands in for
  deleted ones.
-/

namespace Doenerstag

open ReadCommitted Prog

def AuthServer.credentials (s : AuthServer) : List Credential := s.world.db.credentials

/-- The calls at their start. -/
def arrivedAccounts {ι : Type} (h : AccountServer) (calls : ι → AccountCall) (s : AuthServer) :
    Config ι AccountStmt Outcome AuthServer ApiError AccountAnswer where
  state := s
  procs := fun i => (calls i).serve h

/-- What else may happen, as far as passwords go: accounts vanish. -/
def AccountsVanish (s s' : AuthServer) : Prop := s'.credentials ⊆ s.credentials

/-- They do when one is deleted. -/
theorem cascade_accountsVanish (s : AuthServer) (userID : UUID) (now : Time) :
    AccountsVanish s (s.setWorld { s.world with db := s.world.db.cascadeAppUser userID now }) :=
  List.map_subset _ (List.filter_subset_self _)

/-- One of the moves of a call has stored a hash. -/
def Stored {ι : Type} (moves : List (Move ι AccountStmt AuthServer)) (i : ι) : Prop :=
  ∃ m ∈ moves, m.By i ∧ ¬ m.after.credentials ⊆ m.before.credentials

/-- The passwords of an account, up to those that are the same to the hash. -/
inductive Opens {ι : Type} (h : AccountServer) (calls : ι → AccountCall) (start : List Credential)
    (alike : String → String → Prop) (moves : List (Move ι AccountStmt AuthServer)) : UUID → String → Prop where
  | start {c : Credential} {password : String} (there : c ∈ start)
      (verifies : h.passwords.verify password c.passwordHash = true) : Opens h calls start alike moves c.id password
  | registered {i : ι} {r : RegisterCall} {body : RegisterRequest} (arrived : calls i = .register r)
      (stored : Stored moves i) (read : r.body = .ok body) : Opens h calls start alike moves r.userID body.password
  | changed {i : ι} {call : PatchUserCall} {p : Principal} {body : PatchUserRequest} {id : UUID}
      {current password : String} (arrived : calls i = .patch call) (stored : Stored moves i)
      (path : h.rt.parseUUID call.request.id = some id) (principal : call.request.principal = some p)
      (owner : p.userID = id) (read : call.request.body = .ok body) (confirms : body.currentPassword = some current)
      (known : Opens h calls start alike moves id current) (chosen : body.password = some password) :
      Opens h calls start alike moves id password
  | appointed {i : ι} {call : PatchUserCall} {p : Principal} {body : PatchUserRequest} {id : UUID} {password : String}
      (arrived : calls i = .patch call) (stored : Stored moves i)
      (path : h.rt.parseUUID call.request.id = some id) (principal : call.request.principal = some p)
      (admin : p.isAdmin = true) (read : call.request.body = .ok body) (chosen : body.password = some password) :
      Opens h calls start alike moves id password
  | reset {i : ι} {r : ResetCall} {id : UUID} {token password : String} {now : Time} (arrived : calls i = .reset r)
      (stored : Stored moves i) (parses : h.parseReset r.token now = .ok (id, token)) (read : r.body = .ok password) :
      Opens h calls start alike moves id password
  | alike {id : UUID} {p q : String} (opens : Opens h calls start alike moves id p) (same : alike p q) :
      Opens h calls start alike moves id q

/-- What verifies against a stored hash is a password of the account. -/
def AllKnown {ι : Type} (h : AccountServer) (calls : ι → AccountCall) (start : List Credential)
    (alike : String → String → Prop) (moves : List (Move ι AccountStmt AuthServer)) (stored : List Credential) : Prop :=
  ∀ c ∈ stored, ∀ password, h.passwords.verify password c.passwordHash = true →
    Opens h calls start alike moves c.id password

section Histories

variable {ι : Type} {h : AccountServer} {calls : ι → AccountCall} {s₀ : AuthServer} {start : List Credential}
  {alike : String → String → Prop} {moves earlier : List (Move ι AccountStmt AuthServer)}
  {m : Move ι AccountStmt AuthServer} {c : Config ι AccountStmt Outcome AuthServer ApiError AccountAnswer}

/-- What is known stays known. -/
theorem Opens.later {id : UUID} {password : String} (hopens : Opens h calls start alike earlier id password)
    (m : Move ι AccountStmt AuthServer) : Opens h calls start alike (m :: earlier) id password := by
  have hlater : ∀ {i}, Stored earlier i → Stored (m :: earlier) i :=
    fun ⟨m', hm', hstored⟩ => ⟨m', List.mem_cons_of_mem m hm', hstored⟩
  induction hopens with
  | start there verifies => exact .start there verifies
  | registered arrived stored read => exact .registered arrived (hlater stored) read
  | changed arrived stored path principal owner read confirms _ chosen ih =>
    exact .changed arrived (hlater stored) path principal owner read confirms ih chosen
  | appointed arrived stored path principal admin read chosen =>
    exact .appointed arrived (hlater stored) path principal admin read chosen
  | reset arrived stored parses read => exact .reset arrived (hlater stored) parses read
  | alike _ same ih => exact .alike ih same

theorem AllKnown.later {stored : List Credential} (hknown : AllKnown h calls start alike earlier stored)
    (m : Move ι AccountStmt AuthServer) : AllKnown h calls start alike (m :: earlier) stored :=
  fun c hc password hverifies => (hknown c hc password hverifies).later m

variable [DecidableEq ι]

theorem accounts_looked (hhistory : History AccountsVanish (arrivedAccounts h calls s₀) moves c) :
    Looked (fun i => ((calls i).manner h).comap AuthServer.world) moves :=
  (hhistory.looked fun i => (calls i).looking h).1

omit [DecidableEq ι] in
/-- A credential that a call has stored, by what the call has learned. -/
theorem known_of_acts (hsound : ∀ salt password hash p, h.passwords.hash salt password = .ok hash →
      h.passwords.verify p hash = true → alike password p)
    {i : ι} {l : AccountStmt} (hmover : m.mover = .proc i l) {key : UUID} {w : World Db Time}
    (hlearns : (calls i).Learns h w key) (hknown : AllKnown h calls start alike (m :: earlier) w.db.credentials)
    (hacts : (calls i).Acts h key m.before.credentials m.after.credentials)
    (hbefore : AllKnown h calls start alike (m :: earlier) m.before.credentials) :
    AllKnown h calls start alike (m :: earlier) m.after.credentials := by
  intro c hc password hverifies
  by_cases hold : c ∈ m.before.credentials
  · exact hbefore c hold password hverifies
  have hstored : Stored (m :: earlier) i := ⟨m, List.mem_cons_self, ⟨l, hmover⟩, fun hsub => hold (hsub hc)⟩
  cases hcall : calls i with
  | register r =>
    rw [hcall] at hacts
    exact hacts.elim
  | login r =>
    rw [hcall] at hacts hlearns
    obtain ⟨body, hash, hbody, hhash, hsets⟩ := hacts
    obtain ⟨body', c₀, hbody', hc₀, hid₀, -, hverified⟩ := hlearns
    obtain ⟨rfl, hchash, -⟩ := (hsets c hc).resolve_left hold
    cases hbody.symm.trans hbody'
    have hopens := hknown c₀ hc₀ body.password hverified
    rw [hid₀] at hopens
    exact hopens.alike (hsound r.salt body.password hash password hhash (hchash ▸ hverifies))
  | patch call =>
    rw [hcall] at hacts hlearns
    obtain ⟨body, chosen, hash, hbody, hchosen, hchooses, hsets⟩ := hacts
    obtain ⟨hpath, -, p, body', hprincipal, hbody', hmay⟩ := hlearns
    obtain ⟨rfl, hchash, -⟩ := (hsets c hc).resolve_left hold
    cases hbody.symm.trans hbody'
    refine Opens.alike ?_ (hsound call.salt chosen hash password hchooses.2 (hchash ▸ hverifies))
    rcases hmay with ⟨howner, current, c₀, hcurrent, hc₀, hid₀, hverified⟩ | ⟨-, hadmin⟩
    · have hopens := hknown c₀ hc₀ current hverified
      rw [hid₀] at hopens
      exact .changed hcall hstored hpath hprincipal howner hbody hcurrent hopens hchosen
    · exact .appointed hcall hstored hpath hprincipal hadmin hbody hchosen
  | reset r =>
    rw [hcall] at hacts hlearns
    obtain ⟨chosen, hash, hbody, hchooses, hsets⟩ := hacts
    obtain ⟨token, hparses⟩ := hlearns
    obtain ⟨rfl, hchash, -⟩ := (hsets c hc).resolve_left hold
    exact (Opens.reset hcall hstored hparses hbody).alike
      (hsound r.salt chosen hash password hchooses.2 (hchash ▸ hverifies))

omit [DecidableEq ι] in
theorem known_of_quiet (hsound : ∀ salt password hash p, h.passwords.hash salt password = .ok hash →
      h.passwords.verify p hash = true → alike password p)
    {i : ι} {l : AccountStmt} (hmover : m.mover = .proc i l)
    (hquiet : (calls i).Quiet h m.before.credentials m.after.credentials)
    (hbefore : AllKnown h calls start alike (m :: earlier) m.before.credentials) :
    AllKnown h calls start alike (m :: earlier) m.after.credentials := by
  intro c hc password hverifies
  by_cases hold : c ∈ m.before.credentials
  · exact hbefore c hold password hverifies
  have hnew : ¬ m.after.credentials ⊆ m.before.credentials := fun hsub => hold (hsub hc)
  cases hcall : calls i with
  | register r =>
    rw [hcall] at hquiet
    obtain ⟨body, hash, hbody, hchooses, hadds⟩ := hquiet.resolve_left hnew
    obtain rfl := (hadds c hc).resolve_left hold
    refine Opens.alike ?_ (hsound r.salt body.password hash password hchooses.2 hverifies)
    exact .registered hcall ⟨m, List.mem_cons_self, ⟨l, hmover⟩, hnew⟩ hbody
  | login r =>
    rw [hcall] at hquiet
    exact absurd hquiet hnew
  | patch call =>
    rw [hcall] at hquiet
    exact absurd hquiet hnew
  | reset r =>
    rw [hcall] at hquiet
    exact absurd hquiet hnew

/-- **In every state, what verifies against a stored hash is a password of the account.** -/
theorem known_run (hsound : ∀ salt password hash p, h.passwords.hash salt password = .ok hash →
      h.passwords.verify p hash = true → alike password p)
    (hhistory : History AccountsVanish (arrivedAccounts h calls s₀) moves c) :
    AllKnown h calls s₀.credentials alike moves c.state.credentials ∧
      ∀ m ∈ moves, AllKnown h calls s₀.credentials alike moves m.before.credentials := by
  have hlooked := accounts_looked hhistory
  refine hhistory.along (J := fun moves s => AllKnown h calls s₀.credentials alike moves s.credentials ∧
    ∀ m ∈ moves, AllKnown h calls s₀.credentials alike moves m.before.credentials) ⟨?_, nofun⟩ ?_
  · exact fun c hc password hverifies => .start hc hverifies
  intro recent m earlier hmoves henv hJ
  subst hmoves
  obtain ⟨hbefore, hstates⟩ := hJ
  have hbefore : AllKnown h calls s₀.credentials alike (m :: earlier) m.before.credentials := hbefore.later m
  have hstates : ∀ m' ∈ m :: earlier, AllKnown h calls s₀.credentials alike (m :: earlier) m'.before.credentials :=
    List.forall_mem_cons.mpr ⟨hbefore, fun m' hm' => (hstates m' hm').later m⟩
  refine ⟨?_, hstates⟩
  cases hmover : m.mover with
  | env => exact fun c hc => hbefore c (henv hmover hc)
  | proc i l =>
    rcases hlooked.of_append.2 i l hmover with hquiet | ⟨-, key, ⟨m₀, hm₀, -, hlearns⟩, hacts⟩
    · exact known_of_quiet hsound hmover hquiet hbefore
    · exact known_of_acts hsound hmover hlearns (hstates m₀ (List.mem_cons_of_mem m hm₀)) hacts hbefore

/-- **Whoever stores a hash for an account may.** A move of a call stores none (that of a registration may add the
account), or it is the one act of the call, which has found before that it may. -/
theorem passwords_authorised (hhistory : History AccountsVanish (arrivedAccounts h calls s₀) moves c)
    {recent earlier : List (Move ι AccountStmt AuthServer)} {m : Move ι AccountStmt AuthServer}
    (hmoves : moves = recent ++ m :: earlier) {i : ι} {l : AccountStmt} (hmover : m.mover = .proc i l) :
    (calls i).Quiet h m.before.credentials m.after.credentials ∨
      (∀ m₁ ∈ earlier, ∀ l₁, m₁.mover = .proc i l₁ → (calls i).Quiet h m₁.before.credentials m₁.after.credentials) ∧
        ∃ id, (∃ m₀ ∈ earlier, m₀.By i ∧ (calls i).Learns h m₀.before.world id) ∧
          (calls i).Acts h id m.before.credentials m.after.credentials := by
  have hlooked := accounts_looked hhistory
  rw [hmoves] at hlooked
  exact hlooked.of_append.2 i l hmover

omit [DecidableEq ι] in
/-- Who is logged in has been found by the name, and the password verified against the hash. -/
theorem login_returns {I : AuthServer → Prop} {A : Credential → Prop}
    (hI : ∀ s, I s → ∀ c ∈ s.credentials, A c) (r : LoginCall) :
    (h.auth.login r).Returns I fun a => A a.user.credential ∧ isUnusable a.user.passwordHash = false ∧
      ∃ body, r.body = .ok body ∧ h.passwords.verify body.password a.user.passwordHash = true := by
  unfold AuthHandlers.login
  refine .bind (.ofExcept fun body hbody => hbody) fun body hbody => ?_
  refine .bind (.trivially _) fun _ _ => ?_
  split_ifs
  · exact h.auth.failLogin_returns _ _
  have haccount : (h.auth.loginAccount (trimSpace body.name) r.address).Returns I fun user => A user.credential := by
    refine .handle (.onPart (I := fun w => ∀ c ∈ w.db.credentials, A c)
      (.mapError (queryRow_returns fun w user hA huser => ?_) _) hI) fun e => ?_
    · exact hA _ (List.mem_map_of_mem (List.mem_of_find?_eq_some huser))
    · split_ifs
      · exact .bind (.trivially _) fun _ _ => h.auth.failLogin_returns _ _
      · exact returns_fail _
  refine .bind haccount fun user huser => ?_
  refine .bind (h.auth.verifyLogin_returns _ _ _ user) fun _ hverified => ?_
  refine .bind (.trivially _) fun _ _ => ?_
  refine .bind (.trivially _) fun _ _ => ?_
  refine .bind (.trivially _) fun (session, token) _ => ?_
  refine .bind (.trivially _) fun _ _ => ?_
  exact returns_done.mpr ⟨huser, hverified.1, body, hbody, hverified.2⟩

theorem loggedIn_returns {I : AuthServer → Prop} {A : Credential → Prop}
    (hI : ∀ s, I s → ∀ c ∈ s.credentials, A c)
    (hhistory : History AccountsVanish (arrivedAccounts h calls s₀) moves c) (hstates : ∀ m ∈ moves, I m.before)
    {i : ι} {r : LoginCall} (hcall : calls i = .login r) {a : LoginAnswer}
    (hended : (c.procs i).result = some (.ok (.loggedIn a))) :
    A a.user.credential ∧ isUnusable a.user.passwordHash = false ∧
      ∃ body, r.body = .ok body ∧ h.passwords.verify body.password a.user.passwordHash = true := by
  have hreturns : ((arrivedAccounts h calls s₀).procs i).Returns I fun answer => ∀ a, answer = .loggedIn a →
      A a.user.credential ∧ isUnusable a.user.passwordHash = false ∧
        ∃ body, r.body = .ok body ∧ h.passwords.verify body.password a.user.passwordHash = true := by
    show ((calls i).serve h).Returns I _
    rw [hcall]
    refine .bind (.within (login_returns hI r) _) fun a ha => returns_done.mpr ?_
    rintro _ ⟨⟩
    exact ha
  exact hhistory.returns hstates hreturns hended a rfl

/-- **Nobody is logged in with any other password** than one of the account's. -/
theorem loggedIn_known (hsound : ∀ salt password hash p, h.passwords.hash salt password = .ok hash →
      h.passwords.verify p hash = true → alike password p)
    (hhistory : History AccountsVanish (arrivedAccounts h calls s₀) moves c)
    {i : ι} {r : LoginCall} (hcall : calls i = .login r) {a : LoginAnswer}
    (hended : (c.procs i).result = some (.ok (.loggedIn a))) :
    ∃ body, r.body = .ok body ∧ Opens h calls s₀.credentials alike moves a.user.id body.password := by
  have hstates := (known_run hsound hhistory).2
  obtain ⟨hopens, -, body, hbody, hverified⟩ := loggedIn_returns
    (I := fun s => AllKnown h calls s₀.credentials alike moves s.credentials)
    (A := fun c => ∀ password, h.passwords.verify password c.passwordHash = true →
      Opens h calls s₀.credentials alike moves c.id password)
    (fun s hs c hc password hverifies => hs c hc password hverifies) hhistory hstates hcall hended
  exact ⟨body, hbody, hopens body.password hverified⟩

/-! ## The two accounts that are not like others -/

/-- An administrator has been one, and no password is of use for the account that stands in for deleted ones. -/
structure Protected (start : List Credential) (c : Credential) : Prop where
  admin : c.isAdmin = true → ∃ c₀ ∈ start, c₀.id = c.id ∧ c₀.isAdmin = true
  placeholder : c.id = deletedUserID → isUnusable c.passwordHash = true

/-- What is asked of the ids that are drawn, and of the reset links that are made. -/
structure SparesPlaceholder (h : AccountServer) (calls : ι → AccountCall) (start : List Credential) : Prop where
  start : ∀ c ∈ start, c.id = deletedUserID → isUnusable c.passwordHash = true
  drawn : ∀ i r, calls i = .register r → r.userID ≠ deletedUserID
  links : ∀ i r now token, calls i = .reset r → h.parseReset r.token now ≠ .ok (deletedUserID, token)

omit [DecidableEq ι] in
theorem protected_of_acts {start : List Credential} (hspares : SparesPlaceholder h calls start) {i : ι} {key : UUID}
    {w : World Db Time} (hlearns : (calls i).Learns h w key) (hfound : ∀ c ∈ w.db.credentials, Protected start c)
    {before after : List Credential} (hacts : (calls i).Acts h key before after)
    (hbefore : ∀ c ∈ before, Protected start c) : ∀ c ∈ after, Protected start c := by
  have hsets : ∀ {hash}, Sets key hash before after → key ≠ deletedUserID → ∀ c ∈ after, Protected start c := by
    intro hash hsets hreal c hc
    rcases hsets c hc with hc | ⟨hid, -, b, hb, hbid, hadmin⟩
    · exact hbefore c hc
    · refine ⟨fun hcadmin => ?_, fun hplaceholder => absurd (hid.symm.trans hplaceholder) hreal⟩
      rw [hid, ← hbid]
      exact (hbefore b hb).admin (hadmin.trans hcadmin)
  cases hcall : calls i with
  | register r =>
    rw [hcall] at hacts
    exact hacts.elim
  | login r =>
    rw [hcall] at hacts hlearns
    obtain ⟨_, hash, -, -, hsets'⟩ := hacts
    obtain ⟨_, c₀, -, hc₀, hid₀, husable, -⟩ := hlearns
    refine hsets hsets' fun hplaceholder => ?_
    -- no password has verified against a hash of no use
    exact Bool.false_ne_true (husable.symm.trans ((hfound c₀ hc₀).placeholder (hid₀.trans hplaceholder)))
  | patch call =>
    rw [hcall] at hacts hlearns
    obtain ⟨_, _, hash, -, -, -, hsets'⟩ := hacts
    exact hsets hsets' hlearns.2.1
  | reset r =>
    rw [hcall] at hacts hlearns
    obtain ⟨_, hash, -, -, hsets'⟩ := hacts
    obtain ⟨token, hparses⟩ := hlearns
    refine hsets hsets' fun hplaceholder => ?_
    exact hspares.links i r w.now token hcall (hplaceholder ▸ hparses)

omit [DecidableEq ι] in
theorem protected_of_quiet {start : List Credential} (hspares : SparesPlaceholder h calls start) {i : ι}
    {before after : List Credential} (hquiet : (calls i).Quiet h before after)
    (hbefore : ∀ c ∈ before, Protected start c) : ∀ c ∈ after, Protected start c := by
  intro c hc
  cases hcall : calls i with
  | register r =>
    rw [hcall] at hquiet
    rcases hquiet with hsub | ⟨_, hash, -, -, hadds⟩
    · exact hbefore c (hsub hc)
    · rcases hadds c hc with hc | rfl
      · exact hbefore c hc
      · exact ⟨nofun, fun hid => absurd hid (hspares.drawn i r hcall)⟩
  | login r =>
    rw [hcall] at hquiet
    exact hbefore c (hquiet hc)
  | patch call =>
    rw [hcall] at hquiet
    exact hbefore c (hquiet hc)
  | reset r =>
    rw [hcall] at hquiet
    exact hbefore c (hquiet hc)

theorem protected_run (hspares : SparesPlaceholder h calls s₀.credentials)
    (hhistory : History AccountsVanish (arrivedAccounts h calls s₀) moves c) :
    (∀ u ∈ c.state.credentials, Protected s₀.credentials u) ∧
      ∀ m ∈ moves, ∀ u ∈ m.before.credentials, Protected s₀.credentials u := by
  have hlooked := accounts_looked hhistory
  refine hhistory.along (J := fun moves s => (∀ u ∈ s.credentials, Protected s₀.credentials u) ∧
    ∀ m ∈ moves, ∀ u ∈ m.before.credentials, Protected s₀.credentials u) ⟨fun u hu => ⟨?_, ?_⟩, nofun⟩ ?_
  · exact fun hadmin => ⟨u, hu, rfl, hadmin⟩
  · exact hspares.start u hu
  intro recent m earlier hmoves henv ⟨hbefore, hstates⟩
  subst hmoves
  refine ⟨?_, List.forall_mem_cons.mpr ⟨hbefore, hstates⟩⟩
  cases hmover : m.mover with
  | env => exact fun c hc => hbefore c (henv hmover hc)
  | proc i l =>
    rcases hlooked.of_append.2 i l hmover with hquiet | ⟨-, key, ⟨m₀, hm₀, -, hlearns⟩, hacts⟩
    · exact protected_of_quiet hspares hquiet hbefore
    · exact protected_of_acts hspares hlearns (hstates m₀ hm₀) hacts hbefore

/-- **Nobody becomes an administrator, and nobody is logged in as the account that stands in for deleted ones.** -/
theorem protected_accounts (hspares : SparesPlaceholder h calls s₀.credentials)
    (hhistory : History AccountsVanish (arrivedAccounts h calls s₀) moves c) :
    (∀ u ∈ c.state.credentials, u.isAdmin = true → ∃ u₀ ∈ s₀.credentials, u₀.id = u.id ∧ u₀.isAdmin = true) ∧
      ∀ i r a, calls i = .login r → (c.procs i).result = some (.ok (.loggedIn a)) → a.user.id ≠ deletedUserID := by
  obtain ⟨hnow, hstates⟩ := protected_run hspares hhistory
  refine ⟨fun u hu => (hnow u hu).admin, fun i r a hcall hended hplaceholder => ?_⟩
  obtain ⟨hprotected, husable, -⟩ := loggedIn_returns
    (I := fun s => ∀ c ∈ s.credentials, Protected s₀.credentials c) (A := Protected s₀.credentials)
    (fun s hs c hc => hs c hc) hhistory hstates hcall hended
  exact Bool.false_ne_true (husable.symm.trans (hprotected.placeholder hplaceholder))

end Histories

/-! ## Anna changes her password -/

noncomputable def plainAccounts : AccountServer where
  rt := .ascii
  signer := plainSigner
  absoluteTimeout := 24 * Time.hour
  limiter := none
  passwords := plainPasswords
  addresses := Classical.choice nonempty_addressParser
  parseReset := fun _ _ => .error .invalid

/-- Anna logs in, changes her password, and logs in with the new one. -/
def annasChanges (i : Fin 3) : AccountCall :=
  match i with
  | 0 => .login (annaWith "kebab" ⟨51⟩)
  | 1 => .patch { request := { id := (UUID.mk 1).string, iid := ""
                               principal := some { userID := ⟨1⟩, isAdmin := false }
                               body := .ok { name := none, displayName := none, email := none
                                             password := some "falafel", currentPassword := some "kebab" } }
                  salt := "" }
  | 2 => .login (annaWith "falafel" ⟨52⟩)

/-- One after the other -/
noncomputable def annasNewPassword : Config (Fin 3) AccountStmt Outcome AuthServer ApiError AccountAnswer :=
  (List.finRange 3).foldl (fun c i => c.advance i (.replicate 9 .ok))
    (arrivedAccounts plainAccounts annasChanges annasServer)

theorem annasNewPassword_history :
    ∃ moves, History AccountsVanish (arrivedAccounts plainAccounts annasChanges annasServer) moves
      annasNewPassword := by
  have hlogin : History AccountsVanish (arrivedAccounts plainAccounts annasChanges annasServer) _ _ :=
    History.advance .start 0 (.replicate 9 .ok)
  exact ⟨_, (hlogin.advance 1 (.replicate 9 .ok)).advance 2 (.replicate 9 .ok)⟩

/-- Her change of the password has found the one that she says. -/
theorem passwords_authorised_anna : ∃ moves c m,
    History AccountsVanish (arrivedAccounts plainAccounts annasChanges annasServer) moves c ∧ m ∈ moves ∧
      (annasChanges 1).Learns plainAccounts m.before.world ⟨1⟩ := by
  have hchange : History AccountsVanish (arrivedAccounts plainAccounts annasChanges annasServer) _ _ :=
    History.advance .start 1 (.replicate 3 .ok)
  rcases passwords_authorised hchange (show _ = [] ++ _ :: _ from rfl) rfl with
    hquiet | ⟨-, id, ⟨m₀, hm₀, -, hlearns⟩, -⟩
  · exact absurd (show (_ : List Credential) ⊆ _ from hquiet) (by decide +kernel)
  · have hid : Runtime.ascii.parseUUID (UUID.mk 1).string = some ⟨1⟩ := by decide +kernel
    obtain rfl := Option.some.inj (hlearns.1.symm.trans hid)
    exact ⟨_, _, m₀, hchange, List.mem_cons_of_mem _ hm₀, hlearns⟩

theorem plainPasswords_sound (salt password hash p : String) (hhash : plainPasswords.hash salt password = .ok hash)
    (hverified : plainPasswords.verify p hash = true) : password = p := by
  cases hhash
  have happend := congrArg String.toList (beq_iff_eq.mp hverified)
  rw [String.toList_append, String.toList_append] at happend
  exact String.toList_injective (List.append_cancel_left happend)

def annasAnswer : LoginAnswer where
  token := (UUID.mk 52).string
  user := { id := ⟨1⟩, name := "anna", displayName := none, passwordHash := "$argon2id$falafel", email := none
            isAdmin := false, lastLoginAt := some Time.second }
  expiresAt := "1970-01-02T00:00:01Z"

theorem annasNewPassword_answer : (annasNewPassword.procs 2).result = some (.ok (.loggedIn annasAnswer)) := by
  decide +kernel

/-- Her second login is with a password that was not there at the start. -/
theorem loggedIn_known_anna : ∃ moves,
    Opens plainAccounts annasChanges annasServer.credentials Eq moves ⟨1⟩ "falafel" ∧
      ∀ c ∈ annasServer.credentials, plainPasswords.verify "falafel" c.passwordHash = false := by
  obtain ⟨moves, hhistory⟩ := annasNewPassword_history
  obtain ⟨body, hbody, hopens⟩ := loggedIn_known plainPasswords_sound hhistory rfl annasNewPassword_answer
  cases hbody
  exact ⟨moves, hopens, by decide +kernel⟩

theorem protected_accounts_anna :
    (∀ u ∈ annasNewPassword.state.credentials, u.isAdmin = true →
      ∃ u₀ ∈ annasServer.credentials, u₀.id = u.id ∧ u₀.isAdmin = true) ∧ annasAnswer.user.id ≠ deletedUserID := by
  obtain ⟨moves, hhistory⟩ := annasNewPassword_history
  have hspares : SparesPlaceholder plainAccounts annasChanges annasServer.credentials :=
    { start := by decide +kernel
      drawn := fun i r hcall => by match i with
        | 0 | 1 | 2 => cases hcall
      links := fun i r now token hcall => by match i with
        | 0 | 1 | 2 => cases hcall }
  obtain ⟨hadmins, hlogins⟩ := protected_accounts hspares hhistory
  exact ⟨hadmins, hlogins 2 _ _ rfl annasNewPassword_answer⟩

end Doenerstag
