import Doenerstag.Api.CleanupLogins
import Doenerstag.Api.DeadCookies
import Doenerstag.Api.Tokens
import Doenerstag.Lib.LookFirst

/-!
# The life of an API token (`docs/05_auth_and_permissions.md`)

Any number of requests that issue a token, revoke one, or come with one run side by side, statement by
statement, while accounts are deleted and the cleanup runs. A request that issues or revokes a token looks for
the account first, and for the token it revokes; by the time that it writes, both may be gone.

* `TokenCall.looking` — **what each request looks for, and what it may then do to what the tokens grant.**
* `grants_authorised` — in every interleaving, whatever changes is the one act of a request of the account's
  owner or of an administrator, or the tokens that go with an account or with time.
* `admitted_by_issued` — who was let in had a token that was there when it was looked for, that has been issued
  for the account that he is taken for, and that had not expired by the time that was looked at.
* `revoked_for_good` — **a token that was revoked is never found again.**
-/

namespace Doenerstag

open ReadCommitted Prog

/-! ## What a token grants -/

/-- The row, whenever it was used last -/
def APITokenRow.grant (t : APITokenRow) : APITokenRow := { t with lastUsedAt := none }

def Db.grants (db : Db) : List APITokenRow := db.apiTokens.map APITokenRow.grant

section Grants

variable {db : Db}

theorem mem_grants {g : APITokenRow} : g ∈ db.grants ↔ ∃ t ∈ db.apiTokens, t.grant = g := List.mem_map

/-- What is noted of a use is no part of what is granted. -/
theorem grants_touchAPIToken {id : UUID} {stamp : Time} {throttle : Duration} {r : Db × Nat}
    (h : db.touchAPIToken id stamp throttle = .ok r) : r.1.grants = db.grants := by
  cases h
  show (db.apiTokens.map _).map _ = db.apiTokens.map _
  rw [List.map_map]
  apply List.map_congr_left
  intro t _
  show APITokenRow.grant (if _ then _ else _) = t.grant
  split_ifs <;> rfl

theorem grants_insertAPIToken {row : APITokenRow} {db' : Db} {token : APIToken}
    (h : db.insertAPIToken row = .ok (db', some token)) : db'.grants = db.grants ++ [row.grant] := by
  unfold Db.insertAPIToken at h
  split_ifs at h
  cases h
  show (db.apiTokens ++ [row]).map _ = db.apiTokens.map _ ++ _
  rw [List.map_append]
  rfl

theorem grants_deleteAPIToken {id : UUID} {r : Db × Nat} (h : db.deleteAPIToken id = .ok r) :
    r.1.grants = (db.grants.filter fun g => g.id != id) ∧ (r.2 ≠ 0 → ∃ g ∈ db.grants, g.id = id) := by
  cases h
  constructor
  · show (db.apiTokens.filter _).map _ = (db.apiTokens.map _).filter _
    rw [List.filter_map]
    rfl
  · intro hrows
    obtain ⟨t, ht, hid⟩ := List.countP_pos_iff.mp (Nat.pos_of_ne_zero hrows)
    exact ⟨t.grant, List.mem_map_of_mem ht, beq_iff_eq.mp hid⟩

theorem apiTokenByID_eq_some {id : UUID} {token : APIToken} (h : db.apiTokenByID id = some token) :
    ∃ g ∈ db.grants, g.id = id ∧ g.userID = token.userID := by
  obtain ⟨t, ht, rfl⟩ := Option.map_eq_some_iff.mp h
  have hid : t.id = id := beq_iff_eq.mp (List.find?_some (p := fun t : APITokenRow => t.id == id) ht)
  exact ⟨t.grant, List.mem_map_of_mem (List.mem_of_find?_eq_some ht), hid, rfl⟩

end Grants

/-- What else may happen, as far as tokens go: they vanish. -/
def TokensVanish (w w' : World Db Time) : Prop := w'.db.grants.Sublist w.db.grants

/-- They do when an account goes. -/
theorem cascade_vanish (w : World Db Time) (userID : UUID) (now : Time) :
    TokensVanish w { w with db := w.db.cascadeAppUser userID now } :=
  List.Sublist.map _ List.filter_sublist

/-- They do when the cleanup has run. -/
theorem cleanup_vanish (w : World Db Time) (clock : String → Time) (retention now : Time) :
    TokensVanish w { w with db := (cleanup clock retention now false w.db).db } := by
  unfold TokensVanish Db.grants
  rw [cleanup_db, Db.final_apiTokens]
  exact List.Sublist.map _ List.filter_sublist

/-! ## The requests -/

structure TokenServer extends Doorman where
  rt : Runtime

def TokenServer.handlers (h : TokenServer) : TokenHandlers := { rt := h.rt, hashAPIToken := h.hashAPIToken }

inductive TokenCall where
  | create (call : CreateTokenCall)
  | revoke (r : Request Unit)
  /-- any request with that `Authorization` header -/
  | visit (header : String)

inductive TokenCallStmt where
  | create (s : TokenStmt)
  | revoke (s : TokenStmt)
  | visit (s : MiddlewareStmt)
  deriving DecidableEq, Repr

inductive TokenAnswer where
  | created (token : CreateTokenResponse)
  | revoked
  | admitted (caller : Caller)
  deriving DecidableEq, Repr

/-- The account's owner, or an administrator -/
def OwnerOrAdmin (principal : Option Principal) (userID : UUID) : Prop :=
  ∃ p, principal = some p ∧ (p.userID = userID ∨ p.isAdmin = true)

theorem requireOwner_ok {principal : Option Principal} {userID : UUID} {p : Principal}
    (h : requireOwner principal userID = .ok p) : OwnerOrAdmin principal userID :=
  ⟨p, requireOwner_eq_ok h⟩

/-- A token, by whose it is and its id -/
structure TokenKey where
  userID : UUID
  id : UUID

namespace TokenCall

variable (h : TokenServer)

def serve : TokenCall → Handler TokenCallStmt TokenAnswer
  | create call => do
    let token ← (h.handlers.createToken call).within .create
    pure (.created token)
  | revoke r => do
    (h.handlers.revokeToken r).within .revoke
    pure .revoked
  | visit header => do
    let caller ← (h.toDoorman.fromBearer header).within .visit
    pure (.admitted caller)

/-- What a request has to find before it may act. -/
def Learns (w : World Db Time) (key : TokenKey) : TokenCall → Prop
  | create call => OwnerOrAdmin call.request.principal key.userID ∧ key.userID ≠ deletedUserID ∧
      (w.db.userByID key.userID).isSome
  | revoke r => OwnerOrAdmin r.principal key.userID ∧ h.rt.parseUUID r.iid = some key.id ∧
      ∃ g ∈ w.db.grants, g.id = key.id ∧ g.userID = key.userID
  | visit _ => False

/-- What is granted is what was asked for. -/
def Issues (call : CreateTokenCall) (g : APITokenRow) : Prop :=
  g.id = call.id ∧ ∃ raw, call.raw = some raw ∧ g.tokenHash = (generateAPIToken h.hashAPIToken raw).hash

/-- What it then does to what the tokens grant. -/
def Acts (key : TokenKey) (before after : List APITokenRow) : TokenCall → Prop
  | create call => ∃ g, Issues h call g ∧ g.userID = key.userID ∧ after = before ++ [g]
  | revoke _ => after = before.filter fun g => g.id != key.id
  | visit _ => False

/-- How a request goes about it. -/
def manner {ℓ : Type} (call : TokenCall) : Manner ℓ (World Db Time) TokenKey where
  quiet := fun _ w w' => w'.db.grants = w.db.grants
  learns := fun w key => call.Learns h w key
  acts := fun key _ w w' => call.Acts h key w.db.grants w'.db.grants

end TokenCall

/-! ## What each does -/

section Calls

variable (h : TokenServer)

/-- The statements of a request leave alone what the tokens grant. -/
abbrev KeepsGrants {ℓ χ α : Type} (p : Program ℓ Db Time χ α) : Prop :=
  p.Steps fun _ w w' => w'.db.grants = w.db.grants

theorem parseExpiry_keeps (value : String) : KeepsGrants (h.handlers.parseExpiry value) := by
  refine .bind (.ofExcept _) fun expiry => ?_
  cases expiry with
  | none => exact steps_done none
  | some expiry =>
    refine .bind (read_steps fun w => rfl) fun now => ?_
    split_ifs
    · exact steps_fail _
    · exact steps_done _

theorem issueToken_acting (user : UUID) (call : CreateTokenCall) :
    (h.handlers.issueToken user call).Acting ((TokenCall.create call).manner h) ⟨user, call.id⟩ := by
  refine acting_ofExcept_bind fun body _ => ?_
  refine Steps.bind_acting (.require _ _) fun _ => ?_
  refine Steps.bind_acting (.require _ _) fun _ => ?_
  refine Steps.bind_acting (parseExpiry_keeps h _) fun expiresAt => ?_
  cases hraw : call.raw with
  | none => exact acting_fail _
  | some raw =>
    apply Acting.bind
    · apply Acting.mapError
      apply Acting.mapError
      apply acting_returning fun w => rfl
      intro w db token hinsert
      exact ⟨_, ⟨rfl, raw, hraw, rfl⟩, rfl, grants_insertAPIToken hinsert⟩
    · exact fun _ => steps_done _

theorem createToken_looking (call : CreateTokenCall) :
    (h.handlers.createToken call).Looking ((TokenCall.create call).manner h) := by
  unfold TokenHandlers.createToken lookupUser loadParam
  cases h.handlers.rt.parseUUID call.request.id with
  | none => exact looking_fail _
  | some id =>
    refine looking_queryRow_bind (fun w => rfl) fun w user huser => ?_
    cases howner : requireOwner call.request.principal user.id with
    | error e => exact .inl (looking_fail _)
    | ok p =>
      cases hplaceholder : requireNotPlaceholder user.id with
      | error e => exact .inl (looking_fail _)
      | ok _ =>
        refine .inr ⟨⟨user.id, call.id⟩, ⟨requireOwner_ok howner, ?_, ?_⟩, issueToken_acting h _ call⟩
        · exact requireNotPlaceholder_eq_ok hplaceholder
        · have hid : user.id = id := beq_iff_eq.mp (List.find?_some (p := fun u : AppUserRow => u.id == id) huser)
          rw [hid]
          exact Option.isSome_of_eq_some huser

theorem revokeTokenOf_looking (user : UUID) (r : Request Unit) (howner : OwnerOrAdmin r.principal user) :
    (h.handlers.revokeTokenOf user r).Looking ((TokenCall.revoke r).manner h) := by
  unfold TokenHandlers.revokeTokenOf
  cases hid : h.handlers.rt.parseUUID r.iid with
  | none => exact looking_fail _
  | some id =>
    refine looking_queryRow_bind (fun w => rfl) fun w token htoken => ?_
    by_cases hmine : token.userID = user
    · obtain ⟨g, hg, hgid, hguser⟩ := apiTokenByID_eq_some htoken
      refine .inr ⟨⟨user, id⟩, ⟨howner, hid, g, hg, hgid, hguser.trans hmine⟩, ?_⟩
      refine Steps.bind_acting (.require _ _) fun _ => Acting.mapError ?_ _
      apply Acting.bind
      · apply Acting.mapError
        apply acting_exec fun w => rfl
        exact fun w r hdelete => (grants_deleteAPIToken hdelete).1
      · exact fun rows => .require _ _
    · left
      rw [beq_eq_false_iff_ne.mpr hmine]
      exact looking_fail _

theorem revokeToken_looking (r : Request Unit) :
    (h.handlers.revokeToken r).Looking ((TokenCall.revoke r).manner h) := by
  have hlookup : KeepsGrants (lookupUser TokenStmt.user h.handlers.rt r) :=
    Steps.mono (loadParam_reads fun id => userByID_reads (L := fun _ => True) trivial id)
      fun _ w w' hw => by rw [hw.1]
  refine Steps.bind_looking hlookup fun user => ?_
  refine looking_ofExcept_bind fun p howner => ?_
  exact revokeTokenOf_looking h user.id r (requireOwner_ok howner)

theorem touchAPIToken_keeps (id : UUID) (now : Time) (throttle : Duration) :
    KeepsGrants (touchAPIToken id now throttle) := by
  refine .bind (Steps.mono (stampAt_reads (L := fun _ => True) trivial _) ?_) fun stamp => ?_
  · exact fun _ w w' hw => by rw [hw.1]
  refine .bind (.mapError (exec_steps (fun w => rfl) fun w r hr => ?_) _) fun _ => steps_done _
  exact grants_touchAPIToken hr

theorem fromBearer_keeps (header : String) : KeepsGrants (h.toDoorman.fromBearer header) := by
  unfold Doorman.fromBearer
  cases parseBearer header with
  | none => exact steps_fail _
  | some value =>
    refine .bind (.mapError (.mapError (read_steps fun w => rfl) _) _) fun (token, user) => ?_
    refine .bind (read_steps fun w => rfl) fun now => ?_
    split_ifs
    · exact steps_fail _
    · refine .bind (read_steps fun w => rfl) fun now => ?_
      exact .bind (.succeeds (.within (touchAPIToken_keeps _ _ _))) fun _ => steps_done _

/-- **What each request looks for, and what it may then do.** -/
theorem TokenCall.looking (call : TokenCall) : (call.serve h).Looking (call.manner h) := by
  cases call with
  | create call => exact Looking.bind (.within (createToken_looking h call)) fun _ => steps_done _
  | revoke r => exact Looking.bind (.within (revokeToken_looking h r)) fun _ => steps_done _
  | visit header =>
    exact Steps.looking (.bind (.within (fromBearer_keeps h header)) fun _ => steps_done _)

end Calls

/-! ## The way of a request with a token -/

/-- Who is let in has had the row that was found, and it had not expired by the time that was looked at. -/
theorem path_fromBearer {a : Doorman} {header : String} {steps : List (Taken MiddlewareStmt Outcome (World Db Time))}
    {caller : Caller} (hpath : (a.fromBearer header).Path steps (.ok caller)) :
    ∃ value e w e' w' rest token u, steps = ⟨.token, e, w⟩ :: ⟨.tokenNow, e', w'⟩ :: rest ∧
      parseBearer header = some value ∧ w.db.apiTokenByHash (a.hashAPIToken value) = some (token, u) ∧
      token.expired w'.now = false ∧ caller = { user := u, sessionID := ⟨0⟩, viaToken := true } := by
  unfold Doorman.fromBearer at hpath
  cases hvalue : parseBearer header with
  | none =>
    rw [hvalue] at hpath
    cases (path_fail.mp hpath).2
  | some value =>
    rw [hvalue] at hpath
    simp only [apiTokenByHash, queryRow] at hpath
    rw [read_mapError, read_mapError, path_read_bind] at hpath
    obtain ⟨e, w, _, rfl, hafter⟩ := hpath
    rcases path_ofExcept_bind.mp hafter with ⟨x, -, -, hx⟩ | ⟨⟨token, u⟩, hrow, hclock⟩
    · cases hx
    obtain ⟨e', w', rest, rfl, hjudged⟩ := path_clock_bind.mp hclock
    have hfound := Outcome.row_eq_ok (exceptMapError_eq_ok (exceptMapError_eq_ok hrow))
    cases hexpired : token.expired w'.now with
    | true =>
      rw [if_pos hexpired] at hjudged
      cases (path_fail.mp hjudged).2
    | false =>
      rw [if_neg (Bool.eq_false_iff.mp hexpired)] at hjudged
      refine ⟨value, e, w, e', w', rest, token, u, rfl, rfl, hfound, hexpired, ?_⟩
      obtain ⟨e'', w'', rest, rfl, hnoted⟩ := path_clock_bind.mp hjudged
      rcases path_bind.mp hnoted with ⟨x, -, hx⟩ | ⟨_, touched, _, -, -, hdone⟩
      · cases hx
      · exact Except.ok.inj (path_done.mp hdone).2

theorem path_visit {h : TokenServer} {header : String} {steps : List (Taken TokenCallStmt Outcome (World Db Time))}
    {answer : TokenAnswer} (hpath : ((TokenCall.visit header).serve h).Path steps (.ok answer)) :
    ∃ value e w e' w' rest token u, steps = ⟨.visit .token, e, w⟩ :: ⟨.visit .tokenNow, e', w'⟩ :: rest ∧
      parseBearer header = some value ∧ w.db.apiTokenByHash (h.hashAPIToken value) = some (token, u) ∧
      token.expired w'.now = false ∧
      answer = .admitted { user := u, sessionID := ⟨0⟩, viaToken := true } := by
  rcases path_bind.mp hpath with ⟨x, -, hx⟩ | ⟨_, caller, _, rfl, hlabelled, hdone⟩
  · cases hx
  obtain ⟨inner, rfl, hinner⟩ := path_within.mp hlabelled
  obtain ⟨value, e, w, e', w', rest, token, u, rfl, hvalue, hfound, hlive, rfl⟩ := path_fromBearer hinner
  obtain ⟨rfl, hanswer⟩ := path_done.mp hdone
  rw [List.append_nil]
  exact ⟨value, e, w, e', w', rest.map (Taken.within .visit), token, u, rfl, hvalue, hfound, hlive,
    Except.ok.inj hanswer⟩

/-! ## What a revocation has done -/

/-- The token was there, and is gone. -/
def Revokes (id : UUID) (db db' : Db) : Prop := (∃ g ∈ db.grants, g.id = id) ∧ ∀ g ∈ db'.grants, g.id ≠ id

/-- **A revocation that is answered has revoked the token.** -/
theorem revoke_must {h : TokenServer} {r : Request Unit} {id : UUID} (hid : h.rt.parseUUID r.iid = some id) :
    ((TokenCall.revoke r).serve h).Must fun _ w w' => Revokes id w.db w'.db := by
  apply Must.bind
  apply Must.within
  refine must_bind _ fun user => must_bind _ fun p => ?_
  unfold TokenHandlers.revokeTokenOf
  rw [show h.handlers.rt.parseUUID r.iid = some id from hid]
  refine must_bind _ fun token => must_bind _ fun _ => Must.mapError ?_ _
  apply must_exec
  · intro w deleted hdelete hrows
    obtain ⟨hgrants, hthere⟩ := grants_deleteAPIToken hdelete
    refine ⟨hthere hrows, fun g hg => ?_⟩
    rw [hgrants] at hg
    exact bne_iff_ne.mp (List.mem_filter.mp hg).2
  · exact must_fail _

/-! ## Any interleaving -/

/-- The requests at their start. -/
def arrivedTokens {ι : Type} (h : TokenServer) (calls : ι → TokenCall) (w : World Db Time) :
    Config ι TokenCallStmt Outcome (World Db Time) ApiError TokenAnswer where
  state := w
  procs := fun i => (calls i).serve h

/-- The move is that of a request which may issue the token, and has. -/
def IssuedBy {ι : Type} (h : TokenServer) (calls : ι → TokenCall) (g : APITokenRow)
    (m : Move ι TokenCallStmt (World Db Time)) : Prop :=
  ∃ i l call, m.mover = .proc i l ∧ calls i = .create call ∧ TokenCall.Issues h call g ∧
    OwnerOrAdmin call.request.principal g.userID ∧ g.userID ≠ deletedUserID ∧
    m.after.db.grants = m.before.db.grants ++ [g]

/-- No two requests draw the same id, and none draws one that is there. -/
structure FreshTokenIDs {ι : Type} (calls : ι → TokenCall) (w : World Db Time) : Prop where
  distinct : ∀ i j call call', calls i = .create call → calls j = .create call' → call.id = call'.id → i = j
  unused : ∀ i call, calls i = .create call → ∀ g ∈ w.db.grants, g.id ≠ call.id

section Histories

variable {ι : Type} [DecidableEq ι] {h : TokenServer} {calls : ι → TokenCall} {w₀ : World Db Time}
  {moves : List (Move ι TokenCallStmt (World Db Time))}
  {c : Config ι TokenCallStmt Outcome (World Db Time) ApiError TokenAnswer}

theorem tokens_looked (hhistory : History TokensVanish (arrivedTokens h calls w₀) moves c) :
    Looked (fun i => (calls i).manner h) moves :=
  (hhistory.looked fun i => (calls i).looking h).1

/-- **Where a token comes from.** -/
theorem tokens_issued (hhistory : History TokensVanish (arrivedTokens h calls w₀) moves c) :
    ∀ g ∈ c.state.db.grants, g ∈ w₀.db.grants ∨ ∃ m ∈ moves, IssuedBy h calls g m := by
  have hlooked := tokens_looked hhistory
  refine hhistory.along (J := fun moves w => ∀ g ∈ w.db.grants, g ∈ w₀.db.grants ∨
    ∃ m ∈ moves, IssuedBy h calls g m) (fun g hg => .inl hg) ?_
  intro recent m earlier hmoves henv hbefore
  subst hmoves
  have hkept : ∀ g ∈ m.before.db.grants, g ∈ w₀.db.grants ∨ ∃ m' ∈ m :: earlier, IssuedBy h calls g m' := by
    intro g hg
    refine (hbefore g hg).imp_right ?_
    rintro ⟨m', hm', hissued⟩
    exact ⟨m', List.mem_cons_of_mem _ hm', hissued⟩
  intro g hg
  cases hmover : m.mover with
  | env => exact hkept g ((henv hmover).subset hg)
  | proc i l =>
    rcases hlooked.of_append.2 i l hmover with hquiet | ⟨-, key, ⟨m₀, -, -, hlearns⟩, hacts⟩
    · exact hkept g (hquiet ▸ hg)
    · cases hcall : calls i with
      | create call =>
        simp only [hcall, TokenCall.manner, TokenCall.Acts, TokenCall.Learns] at hlearns hacts
        obtain ⟨g', hissues, huser, hafter⟩ := hacts
        rw [hafter, List.mem_append, List.mem_singleton] at hg
        rcases hg with hg | rfl
        · exact hkept g hg
        · refine .inr ⟨m, List.mem_cons_self, i, l, call, hmover, hcall, hissues, ?_, ?_, hafter⟩
          · exact huser ▸ hlearns.1
          · exact huser ▸ hlearns.2.1
      | revoke r =>
        simp only [hcall, TokenCall.manner, TokenCall.Acts] at hacts
        rw [hacts] at hg
        exact hkept g (List.mem_filter.mp hg).1
      | visit header =>
        simp only [hcall, TokenCall.manner, TokenCall.Acts] at hacts

/-- An id that has been drawn is not drawn again: no request adds a token with it later. -/
theorem gone_after (hfresh : FreshTokenIDs calls w₀) {id : UUID}
    {recent earlier : List (Move ι TokenCallStmt (World Db Time))} {m : Move ι TokenCallStmt (World Db Time)}
    (hhistory : History TokensVanish (arrivedTokens h calls w₀) (recent ++ m :: earlier) c)
    (hrevokes : Revokes id m.before.db m.after.db) : ∀ g ∈ c.state.db.grants, g.id ≠ id := by
  have hlooked := tokens_looked hhistory
  -- it has been there, so it has been drawn
  have hdrawn : (∃ g ∈ w₀.db.grants, g.id = id) ∨ ∃ g, g.id = id ∧ ∃ m' ∈ earlier, IssuedBy h calls g m' := by
    obtain ⟨c₁, hhistory₁, hstate⟩ := hhistory.until
    obtain ⟨g, hg, hid⟩ := hrevokes.1
    rcases tokens_issued hhistory₁ g (hstate ▸ hg) with hg | hissued
    · exact .inl ⟨g, hg, hid⟩
    · exact .inr ⟨g, hid, hissued⟩
  refine hhistory.along (J := fun ms w => ∀ later, ms = later ++ m :: earlier → ∀ g ∈ w.db.grants, g.id ≠ id)
    (fun later hlater => ?_) ?_ recent rfl
  · exact absurd hlater.symm (List.append_ne_nil_of_right_ne_nil _ (List.cons_ne_nil _ _))
  intro recent' m' earlier' hmoves henv hbefore later hlater
  rw [hmoves] at hlooked
  cases later with
  | nil =>
    obtain ⟨rfl, rfl⟩ := List.cons.inj hlater
    exact hrevokes.2
  | cons m'' later =>
    obtain ⟨rfl, rfl⟩ := List.cons.inj hlater
    have hgone := hbefore later rfl
    intro g hg
    cases hmover : m'.mover with
    | env => exact hgone g ((henv hmover).subset hg)
    | proc j l =>
      rcases hlooked.of_append.2 j l hmover with hquiet | ⟨hfirst, key, -, hacts⟩
      · exact hgone g (hquiet ▸ hg)
      · cases hcall : calls j with
        | create call =>
          simp only [hcall, TokenCall.manner, TokenCall.Acts] at hacts
          obtain ⟨g', hissues, -, hafter⟩ := hacts
          rw [hafter, List.mem_append, List.mem_singleton] at hg
          rcases hg with hg | rfl
          · exact hgone g hg
          intro hid
          rcases hdrawn with ⟨g₀, hg₀, hid₀⟩ |
            ⟨g₀, hid₀, m₁, hm₁, i, l₁, call₁, hmover₁, hcall₁, hissues₁, -, -, hafter₁⟩
          · exact hfresh.unused j call hcall g₀ hg₀ (hid₀.trans (hid.symm.trans hissues.1))
          · -- the request that has drawn it has acted already
            have hij : i = j := hfresh.distinct i j call₁ call hcall₁ hcall
              (hissues₁.1.symm.trans (hid₀.trans (hid.symm.trans hissues.1)))
            subst hij
            have hquiet := hfirst m₁ (List.mem_append_right _ (List.mem_cons_of_mem _ hm₁)) l₁ hmover₁
            have hlength := congrArg List.length (hafter₁.symm.trans hquiet)
            rw [List.length_append, List.length_singleton] at hlength
            omega
        | revoke r =>
          simp only [hcall, TokenCall.manner, TokenCall.Acts] at hacts
          rw [hacts] at hg
          exact hgone g (List.mem_filter.mp hg).1
        | visit header =>
          simp only [hcall, TokenCall.manner, TokenCall.Acts] at hacts

/-- **Whatever changes, an authorised request has changed.** A move of a request leaves alone what the tokens
grant, or it is the one act of the request, which has found before that it may. -/
theorem grants_authorised (hhistory : History TokensVanish (arrivedTokens h calls w₀) moves c)
    {recent earlier : List (Move ι TokenCallStmt (World Db Time))} {m : Move ι TokenCallStmt (World Db Time)}
    (hmoves : moves = recent ++ m :: earlier) {i : ι} {l : TokenCallStmt} (hmover : m.mover = .proc i l) :
    m.after.db.grants = m.before.db.grants ∨
      (∀ m₁ ∈ earlier, ∀ l₁, m₁.mover = .proc i l₁ → m₁.after.db.grants = m₁.before.db.grants) ∧
        ∃ key, (∃ m₀ ∈ earlier, m₀.By i ∧ (calls i).Learns h m₀.before key) ∧
          (calls i).Acts h key m.before.db.grants m.after.db.grants := by
  have hlooked := tokens_looked hhistory
  rw [hmoves] at hlooked
  exact hlooked.of_append.2 i l hmover

/-- **Who was let in.** -/
theorem admitted_by_issued (hhistory : History TokensVanish (arrivedTokens h calls w₀) moves c) {i : ι}
    {header : String} (hcall : calls i = .visit header) {caller : Caller}
    (hadmitted : (c.procs i).result = some (.ok (.admitted caller))) :
    ∃ value recent m earlier g, parseBearer header = some value ∧ moves = recent ++ m :: earlier ∧
      m.mover = .proc i (.visit .token) ∧ g ∈ m.before.db.grants ∧ g.tokenHash = h.hashAPIToken value ∧
      g.userID = caller.user.id ∧
      (g ∈ w₀.db.grants ∨ ∃ m₁ ∈ earlier, IssuedBy h calls g m₁) ∧
      ∃ m₂ ∈ recent, m₂.mover = .proc i (.visit .tokenNow) ∧ ∀ expires ∈ g.expiresAt, m₂.before.now < expires := by
  obtain ⟨steps, hleads, hsteps⟩ := hhistory.path i
  rw [done_of_result hadmitted] at hleads
  have hpath := hleads.path (.done _)
  rw [List.append_nil] at hpath
  have hstart : (arrivedTokens h calls w₀).procs i = (TokenCall.visit header).serve h :=
    congrArg (TokenCall.serve h) hcall
  rw [hstart] at hpath
  obtain ⟨value, e, w, e', w', rest, token, u, rfl, hvalue, hfound, hlive, hanswer⟩ := path_visit hpath
  cases hanswer
  obtain ⟨recent, m, earlier, rfl, hrest, hmover, hbefore⟩ := exists_move hsteps
  obtain ⟨recent₂, m₂, earlier₂, rfl, -, hmover₂, hbefore₂⟩ := exists_move hrest
  obtain ⟨t, ht, hu, rfl⟩ := apiTokenByHash_eq_some.mp hfound
  have hg : t.grant ∈ m.before.db.grants := by
    rw [hbefore]
    exact List.mem_map_of_mem (List.mem_of_find?_eq_some ht)
  have hhash : t.tokenHash = h.hashAPIToken value :=
    beq_iff_eq.mp (List.find?_some (p := fun t : APITokenRow => t.tokenHash == h.hashAPIToken value) ht)
  refine ⟨value, _, m, earlier, t.grant, hvalue, rfl, hmover, hg, hhash, ?_, ?_, m₂, ?_, hmover₂, ?_⟩
  · exact (beq_iff_eq.mp (List.find?_some (p := fun u : AppUserRow => u.id == t.userID) hu)).symm
  · obtain ⟨c₁, hhistory₁, hstate⟩ := hhistory.until
    exact tokens_issued hhistory₁ t.grant (hstate ▸ hg)
  · exact List.mem_append_right _ List.mem_cons_self
  · intro expires hexpires
    rw [hbefore₂]
    by_contra hlate
    rw [not_lt] at hlate
    exact Bool.false_ne_true (hlive.symm.trans (expired_eq_true_iff.mpr ⟨expires, hexpires, hlate⟩))

/-- **Revocation is immediate, and for good**: no request that looks for its token after that finds it. -/
theorem revoked_for_good (hfresh : FreshTokenIDs calls w₀)
    (hhistory : History TokensVanish (arrivedTokens h calls w₀) moves c) {i : ι} {r : Request Unit}
    (hcall : calls i = .revoke r) {id : UUID} (hid : h.rt.parseUUID r.iid = some id) {answer : TokenAnswer}
    (hanswered : (c.procs i).result = some (.ok answer)) :
    ∃ recent m earlier l, moves = recent ++ m :: earlier ∧ m.mover = .proc i l ∧
      (∀ m' ∈ recent, ∀ hash token u, m'.before.db.apiTokenByHash hash = some (token, u) → token.id ≠ id) ∧
      ∀ hash token u, c.state.db.apiTokenByHash hash = some (token, u) → token.id ≠ id := by
  have hunfound : ∀ {db : Db}, (∀ g ∈ db.grants, g.id ≠ id) →
      ∀ hash token u, db.apiTokenByHash hash = some (token, u) → token.id ≠ id := by
    intro db hgone hash token u hfound
    obtain ⟨t, ht, -, rfl⟩ := apiTokenByHash_eq_some.mp hfound
    exact hgone t.grant (List.mem_map_of_mem (List.mem_of_find?_eq_some ht))
  have hmust : ((arrivedTokens h calls w₀).procs i).Must fun _ w w' => Revokes id w.db w'.db := by
    show ((calls i).serve h).Must _
    rw [hcall]
    exact revoke_must hid
  obtain ⟨recent, m, earlier, l, rfl, hmover, hrevokes⟩ := hhistory.must hmust hanswered
  refine ⟨recent, m, earlier, l, rfl, hmover, fun m' hm' => ?_, hunfound (gone_after hfresh hhistory hrevokes)⟩
  obtain ⟨later, between, rfl⟩ := List.append_of_mem hm'
  rw [List.append_assoc] at hhistory
  obtain ⟨c₁, hhistory₁, hstate⟩ := hhistory.until
  exact hstate ▸ hunfound (gone_after hfresh hhistory₁ hrevokes)

end Histories

/-! ## Anna's script -/

def plainTokens : TokenServer := { plainDoorman with rt := .ascii }

/-- Anna issues a token and revokes it, and her script comes with it before and after. -/
def annasTokens (i : Fin 4) : TokenCall :=
  let anna : Option Principal := some { userID := ⟨1⟩, isAdmin := false }
  let raw := List.replicate 32 0
  match i with
  | 0 => .create { id := ⟨61⟩, raw := some raw
                   request := { id := (UUID.mk 1).string, iid := "", principal := anna
                                body := .ok { name := "script", expiresAt := "" } } }
  | 1 => .visit ("Bearer " ++ (generateAPIToken plainTokens.hashAPIToken raw).value)
  | 2 => .revoke { id := (UUID.mk 1).string, iid := (UUID.mk 61).string, principal := anna, body := .ok () }
  | 3 => .visit ("Bearer " ++ (generateAPIToken plainTokens.hashAPIToken raw).value)

/-- The first visit has looked its token up when the revocation begins, and goes on when it is done. -/
def annasScript : Config (Fin 4) TokenCallStmt Outcome (World Db Time) ApiError TokenAnswer :=
  let c := arrivedTokens plainTokens annasTokens annasServer.world
  ((((c.advance 0 (.replicate 2 .ok)).advance 1 (.replicate 1 .ok)).advance 2 (.replicate 3 .ok)).advance
    1 (.replicate 4 .ok)).advance 3 (.replicate 5 .ok)

theorem annasScript_history :
    ∃ moves, History TokensVanish (arrivedTokens plainTokens annasTokens annasServer.world) moves annasScript := by
  have hissued : History TokensVanish (arrivedTokens plainTokens annasTokens annasServer.world) _ _ :=
    History.advance .start 0 (.replicate 2 .ok)
  exact ⟨_, (((hissued.advance 1 (.replicate 1 .ok)).advance 2 (.replicate 3 .ok)).advance
    1 (.replicate 4 .ok)).advance 3 (.replicate 5 .ok)⟩

theorem annasTokens_create : ∀ {i : Fin 4} {call : CreateTokenCall}, annasTokens i = .create call → i = 0
  | 0, _, _ => rfl
  | 1, _, h => nomatch h
  | 2, _, h => nomatch h
  | 3, _, h => nomatch h

theorem annasTokens_fresh : FreshTokenIDs annasTokens annasServer.world where
  distinct := fun _ _ _ _ hi hj _ => (annasTokens_create hi).trans (annasTokens_create hj).symm
  unused := fun _ _ _ _ hg => nomatch hg

theorem grants_authorised_anna : ∃ key before g, (annasTokens 0).Learns plainTokens before key ∧
    g.userID = key.userID ∧
    ((arrivedTokens plainTokens annasTokens annasServer.world).advance 0 (.replicate 2 .ok)).state.db.grants = [g] := by
  have hissued : History TokensVanish (arrivedTokens plainTokens annasTokens annasServer.world) _ _ :=
    History.advance .start 0 (.replicate 2 .ok)
  rcases grants_authorised hissued (show _ = [] ++ _ :: _ from rfl) rfl with
    hsame | ⟨-, key, ⟨m₀, -, -, hlearns⟩, g, -, huser, hafter⟩
  · exact absurd hsame (by decide +kernel)
  · exact ⟨key, m₀.before, g, hlearns, huser, hafter⟩

def annasCaller : Caller where
  user := { id := ⟨1⟩, name := "anna", displayName := none, passwordHash := "$argon2id$kebab", email := none
            isAdmin := false, lastLoginAt := none }
  sessionID := ⟨0⟩
  viaToken := true

/-- The visit that had looked its token up is let in, though the token has been revoked by then. -/
theorem admitted_by_issued_anna : ∃ m g, IssuedBy plainTokens annasTokens g m ∧ g.userID = ⟨1⟩ ∧
    annasScript.state.db.grants = [] := by
  obtain ⟨moves, hhistory⟩ := annasScript_history
  have hadmitted : (annasScript.procs 1).result = some (.ok (.admitted annasCaller)) := by decide +kernel
  obtain ⟨_, _, _, _, g, -, -, -, -, -, huser, hfrom, -⟩ := admitted_by_issued hhistory rfl hadmitted
  rcases hfrom with hg | ⟨m₁, -, hissued⟩
  · cases hg
  · exact ⟨m₁, g, hissued, huser, by decide +kernel⟩

/-- The visit that comes afterwards is refused. -/
theorem revoked_for_good_anna : (annasScript.procs 3).result = some (.error (.of codeInvalidToken)) ∧
    ∀ hash token u, annasScript.state.db.apiTokenByHash hash = some (token, u) → token.id ≠ ⟨61⟩ := by
  obtain ⟨moves, hhistory⟩ := annasScript_history
  have hanswered : (annasScript.procs 2).result = some (.ok .revoked) := by decide +kernel
  have hid : plainTokens.rt.parseUUID (UUID.mk 61).string = some ⟨61⟩ := by decide +kernel
  obtain ⟨_, _, _, _, -, -, -, hgone⟩ := revoked_for_good annasTokens_fresh hhistory rfl hid hanswered
  exact ⟨by decide +kernel, hgone⟩

end Doenerstag
