import Doenerstag.Api.Envelope
import Doenerstag.Lib.Interleaving

/-!
# What logins are answered with (`internal/api/login.go`)

A login that the limiter refuses is told when to come back, in a header. `loginWithHeaders` is `login`
with what it sets of the header.

* `Losing` — what is left of an attempt whose password is wrong, once the limiter has let it through.
* `DecidedBy`, `decided_run` — the calls of the limiter decide every counter and every answer.
* `Mirrored`, `mirrored_run` — a run of one installation has its like in another.
* `logins_alike` — **attempts with wrong passwords are answered alike, whatever accounts there are.**
-/

namespace Doenerstag

open ReadCommitted Prog

/-! ## The header -/

/-- `Duration.Round`: to the nearest multiple, halves away from zero. -/
def Duration.round (d m : Duration) : Duration :=
  if d < 0 then
    let r := -Int.tmod d m
    if r + r < m then d + r else d - m + r
  else
    let r := Int.tmod d m
    if r + r < m then d - r else d + m - r

/-- `retryAfterSeconds` -/
def retryAfterSeconds (d : Duration) : Int :=
  let seconds := Int.tdiv (Duration.round d Time.second) Time.second
  if seconds > 1 then seconds else 1

/-- What a login is refused with: the header `Retry-After`, if it is set, and the error. -/
structure LoginRefusal where
  retryAfter : Option String
  error : ApiError
  deriving DecidableEq, Repr

namespace LoginRefusal

/-- The header is not set. -/
def plain (e : ApiError) : LoginRefusal := { retryAfter := none, error := e }

def tooMany (wait : Duration) : LoginRefusal :=
  { retryAfter := some (toString (retryAfterSeconds wait)), error := .of codeTooManyLogins }

def invalid : LoginRefusal := plain (.of codeInvalidLogin)

end LoginRefusal

/-- The response, up to the request id. -/
structure LoginResponse where
  status : Nat
  retryAfter : Option String
  body : EnvelopeBody ⊕ LoginAnswer
  deriving DecidableEq

def loginResponse : Except LoginRefusal LoginAnswer → LoginResponse
  | .error r => { status := Code.status r.error.code, retryAfter := r.retryAfter, body := .inl r.error.body }
  | .ok a => { status := 200, retryAfter := none, body := .inr a }

abbrev LoginProg (ε : Type) : Type → Type := Prog LoginStmt ε AuthServer LoginRefusal

namespace AuthHandlers

variable (h : AuthHandlers)

/-- `allow`, with the header. -/
def checkLimit (name address : String) : LoginProg Outcome Unit :=
  match h.limiter with
  | none => pure ()
  | some l => do
    let wait ← Prog.atomic .allow fun s =>
      let r := l.allow name address s.world.now s.counts
      (r.1, s.setCounts r.2)
    match wait with
    | none => pure ()
    | some wait => throw (.tooMany wait)

/-- `login`, once the limiter was asked. -/
def attemptLogin (r : LoginCall) (name password : String) : AuthHandler LoginStmt LoginAnswer :=
  if name = "" ∨ password = "" then h.failLogin name r.address
  else do
    let user ← h.loginAccount name r.address
    h.verifyLogin name r.address password user
    h.acceptLogin r name password user

def loginWithHeaders (r : LoginCall) : LoginProg Outcome LoginAnswer := do
  let body ← (Prog.ofExcept r.body).mapError .plain
  h.checkLimit (trimSpace body.name) r.address
  (h.attemptLogin r (trimSpace body.name) body.password).mapError .plain

theorem mapError_plain {α : Type} (p : AuthHandler LoginStmt α) :
    (p.mapError LoginRefusal.plain).mapError LoginRefusal.error = p := by
  induction p with
  | done a => rfl
  | fail x => rfl
  | step l effect next ih =>
    show Prog.step l effect _ = _
    congr 1
    funext e s
    exact ih e s

/-- But for the header it is `login`. -/
theorem loginWithHeaders_login (r : LoginCall) :
    (h.loginWithHeaders r).mapError LoginRefusal.error = h.login r := by
  unfold loginWithHeaders login
  cases r.body with
  | error e => rfl
  | ok body =>
    have hattempt := mapError_plain (h.attemptLogin r (trimSpace body.name) body.password)
    show (h.checkLimit (trimSpace body.name) r.address >>= fun _ =>
        (h.attemptLogin r (trimSpace body.name) body.password).mapError .plain).mapError
          LoginRefusal.error =
      h.allow (trimSpace body.name) r.address >>= fun _ =>
        h.attemptLogin r (trimSpace body.name) body.password
    unfold checkLimit allow
    generalize h.attemptLogin r (trimSpace body.name) body.password = attempt at hattempt ⊢
    cases h.limiter with
    | none => exact hattempt
    | some l =>
      show Prog.step _ _ _ = Prog.step _ _ _
      congr 1
      funext e s
      dsimp only
      cases (l.allow (trimSpace body.name) r.address s.world.now s.counts).1 with
      | none => exact hattempt
      | some wait => rfl

end AuthHandlers

/-! ## An attempt with a wrong password -/

/-- The password of the attempt is that of no account. -/
def Unmatched (h : AuthHandlers) (r : LoginCall) (s : AuthServer) : Prop :=
  ∀ body, r.body = .ok body → ∀ u ∈ s.world.db.appUsers,
    h.passwords.verify body.password u.passwordHash = false

/-- The steps between asking the limiter and telling it. -/
def LoginStmt.LooksUp : LoginStmt → Prop
  | .account => True
  | .equalise => True
  | .verify _ => True
  | _ => False

/-- What is left of an attempt that the limiter has let through: it looks at the account, if there is
one, tells the limiter, if there is one, and is answered like every other. -/
inductive Losing (h : AuthHandlers) (r : LoginCall) (name : String) :
    LoginProg Unit LoginAnswer → Prop where
  | unlimited (hlimiter : h.limiter = none) : Losing h r name (.fail .invalid)
  | record {l : LoginLimiter} {effect : Unit → AuthServer → AuthServer}
      {next : Unit → AuthServer → LoginProg Unit LoginAnswer} (hlimiter : h.limiter = some l)
      (heffect : ∀ e s, effect e s =
        s.setCounts (l.recordFailure name r.address s.world.now s.counts))
      (hnext : ∀ e s, next e s = .fail .invalid) :
      Losing h r name (.step .recordFailure effect next)
  | look {stmt : LoginStmt} {effect : Unit → AuthServer → AuthServer}
      {next : Unit → AuthServer → LoginProg Unit LoginAnswer} (hstmt : stmt.LooksUp)
      (heffect : ∀ e s, effect e s = s)
      (hnext : ∀ e s, Unmatched h r s → Losing h r name (next e s)) :
      Losing h r name (.step stmt effect next)

/-- The database does not fail. -/
def answered {α : Type} (p : LoginProg Outcome α) : LoginProg Unit α := p.under fun _ => .ok

section Attempts

variable {h : AuthHandlers} {r : LoginCall} {name : String}

theorem losing_fail {α : Type} (f : α → AuthHandler LoginStmt LoginAnswer) :
    Losing h r name (answered ((h.failLogin name r.address >>= f).mapError .plain)) := by
  unfold AuthHandlers.failLogin AuthHandlers.recordLoginFailure
  cases hlimiter : h.limiter with
  | none => exact .unlimited hlimiter
  | some l => exact .record hlimiter (fun _ _ => rfl) fun _ _ => rfl

theorem losing_verify {body : LoginRequest} (user : AppUserRow)
    (hwrong : h.passwords.verify body.password user.passwordHash = false) :
    Losing h r name (answered ((h.verifyLogin name r.address body.password user >>= fun _ =>
      h.acceptLogin r name body.password user).mapError .plain)) := by
  unfold AuthHandlers.verifyLogin
  split_ifs
  · exact losing_fail _
  · rw [hwrong]
    exact .look trivial (fun _ _ => rfl) fun _ _ _ => losing_fail _

/-- **An attempt whose password is wrong** loses, whatever accounts there are. -/
theorem losing_attempt {body : LoginRequest} (hbody : r.body = .ok body) :
    Losing h r name (answered ((h.attemptLogin r name body.password).mapError .plain)) := by
  unfold AuthHandlers.attemptLogin
  split_ifs
  · rw [← bind_done (h.failLogin name r.address)]
    exact losing_fail _
  · refine .look trivial (fun _ _ => rfl) fun _ s hs => ?_
    cases hfound : s.world.db.userByName h.rt name with
    | none =>
      simp only [hfound]
      exact .look trivial (fun _ _ => rfl) fun _ _ _ => losing_fail _
    | some user =>
      simp only [hfound]
      exact losing_verify user (hs body hbody user (List.mem_of_find?_eq_some hfound))

end Attempts

/-! ## Any number of attempts at once -/

/-- The name an attempt is counted under. -/
def LoginCall.name (r : LoginCall) : String :=
  match r.body with
  | .ok body => trimSpace body.name
  | .error _ => ""

/-- A call of the limiter, by the attempt that makes it and the time it finds. -/
inductive LimiterCall (ι : Type) where
  | allow (i : ι) (now : Time)
  | recordFailure (i : ι) (now : Time)
  | recordSuccess (i : ι)

section Calls

variable {ι : Type}

def limiterCall (m : Move ι LoginStmt AuthServer) : Option (LimiterCall ι) :=
  match m.mover with
  | .proc i .allow => some (.allow i m.before.world.now)
  | .proc i .recordFailure => some (.recordFailure i m.before.world.now)
  | .proc i .recordSuccess => some (.recordSuccess i)
  | _ => none

theorem limiterCall_look {i : ι} {stmt : LoginStmt} (hstmt : stmt.LooksUp) (s s' : AuthServer) :
    limiterCall (⟨.proc i stmt, s, s'⟩ : Move ι LoginStmt AuthServer) = none := by
  cases stmt <;> first | exact hstmt.elim | rfl

/-- The calls of a run, the last one first. -/
def limiterCalls (moves : List (Move ι LoginStmt AuthServer)) : List (LimiterCall ι) :=
  moves.filterMap limiterCall

theorem limiterCalls_allow (i : ι) (s s' : AuthServer) (moves : List (Move ι LoginStmt AuthServer)) :
    limiterCalls (⟨.proc i .allow, s, s'⟩ :: moves) =
      .allow i s.world.now :: limiterCalls moves := rfl

theorem limiterCalls_record (i : ι) (s s' : AuthServer) (moves : List (Move ι LoginStmt AuthServer)) :
    limiterCalls (⟨.proc i .recordFailure, s, s'⟩ :: moves) =
      .recordFailure i s.world.now :: limiterCalls moves := rfl

theorem limiterCalls_look {i : ι} {stmt : LoginStmt} (hstmt : stmt.LooksUp) (s s' : AuthServer)
    (moves : List (Move ι LoginStmt AuthServer)) :
    limiterCalls (⟨.proc i stmt, s, s'⟩ :: moves) = limiterCalls moves :=
  List.filterMap_cons_none (limiterCall_look hstmt s s')

/-- What the limiter has counted after the calls. -/
def counted (l : LoginLimiter) (attempts : ι → LoginCall) (counts : LoginCounts) :
    List (LimiterCall ι) → LoginCounts
  | [] => counts
  | .allow i now :: earlier =>
    (l.allow (attempts i).name (attempts i).address now (counted l attempts counts earlier)).2
  | .recordFailure i now :: earlier =>
    l.recordFailure (attempts i).name (attempts i).address now (counted l attempts counts earlier)
  | .recordSuccess i :: earlier =>
    l.recordSuccess (attempts i).name (counted l attempts counts earlier)

/-- How long an attempt was told to wait, if it was. -/
def told [DecidableEq ι] (l : LoginLimiter) (attempts : ι → LoginCall) (counts : LoginCounts)
    (i : ι) : List (LimiterCall ι) → Option Duration
  | [] => none
  | .allow j now :: earlier =>
    if j = i then
      (l.allow (attempts j).name (attempts j).address now (counted l attempts counts earlier)).1
    else told l attempts counts i earlier
  | .recordFailure _ _ :: earlier => told l attempts counts i earlier
  | .recordSuccess _ :: earlier => told l attempts counts i earlier

end Calls

/-- Nobody changes the counters but the attempts, and no account comes to have their passwords. Time
passes, and the accounts may change otherwise. -/
def BesideLogins {ι : Type} (h : AuthHandlers) (attempts : ι → LoginCall) (s s' : AuthServer) : Prop :=
  s'.counts = s.counts ∧ ∀ i, Unmatched h (attempts i) s'

abbrev LoginConfig (ι : Type) : Type :=
  Config ι LoginStmt Unit AuthServer LoginRefusal LoginAnswer

/-- The attempts, none of which has begun. -/
def arrivedLogins {ι : Type} (h : AuthHandlers) (attempts : ι → LoginCall) (s : AuthServer) :
    LoginConfig ι :=
  { state := s, procs := fun i => answered (h.loginWithHeaders (attempts i)) }

/-- What an attempt was answered, if it was. -/
def responded {ι : Type} (c : LoginConfig ι) (i : ι) : Option LoginResponse :=
  (c.procs i).result.map loginResponse

/-- What a lost attempt is answered. -/
def lostReply (r : LoginCall) (wait : Option Duration) : LoginRefusal :=
  match r.body, wait with
  | .error e, _ => .plain e
  | .ok _, some wait => .tooMany wait
  | .ok _, none => .invalid

section Replies

variable {r : LoginCall} {body : LoginRequest}

theorem lostReply_malformed {e : ApiError} (h : r.body = .error e) (wait : Option Duration) :
    lostReply r wait = .plain e := by
  unfold lostReply
  rw [h]

theorem lostReply_refused (h : r.body = .ok body) (wait : Duration) :
    lostReply r (some wait) = .tooMany wait := by
  unfold lostReply
  rw [h]

theorem lostReply_invalid (h : r.body = .ok body) : lostReply r none = .invalid := by
  unfold lostReply
  rw [h]

end Replies

/-- An attempt that waits to ask the limiter. -/
inductive Asking (h : AuthHandlers) (l : LoginLimiter) (r : LoginCall) :
    LoginProg Unit LoginAnswer → Prop where
  | intro {body : LoginRequest} {effect : Unit → AuthServer → AuthServer}
      {next : Unit → AuthServer → LoginProg Unit LoginAnswer} (hlimiter : h.limiter = some l)
      (hbody : r.body = .ok body)
      (heffect : ∀ e s, effect e s =
        s.setCounts (l.allow r.name r.address s.world.now s.counts).2)
      (hrefused : ∀ e s wait, (l.allow r.name r.address s.world.now s.counts).1 = some wait →
        next e s = .fail (.tooMany wait))
      (hpassed : ∀ e s, (l.allow r.name r.address s.world.now s.counts).1 = none →
        Losing h r r.name (next e s)) :
      Asking h l r (.step .allow effect next)

/-- The limiter is asked first, and what it lets through goes on. -/
theorem asking_checkLimit {h : AuthHandlers} {l : LoginLimiter} {r : LoginCall} {body : LoginRequest}
    {attempt : AuthHandler LoginStmt LoginAnswer} (hlimiter : h.limiter = some l)
    (hbody : r.body = .ok body) (hattempt : Losing h r r.name (answered (attempt.mapError .plain))) :
    Asking h l r (answered (h.checkLimit r.name r.address >>= fun _ => attempt.mapError .plain)) := by
  unfold AuthHandlers.checkLimit
  rw [hlimiter]
  refine .intro hlimiter hbody (fun _ _ => rfl) ?_ ?_
  · intro e s wait hwait
    dsimp only
    rw [hwait]
    rfl
  · intro e s hnone
    dsimp only
    rw [hnone]
    exact hattempt

/-- **An attempt begins** by asking the limiter, unless there is none or its body is no login. -/
theorem login_begins (h : AuthHandlers) (r : LoginCall) :
    (∃ e, r.body = .error e ∧ answered (h.loginWithHeaders r) = .fail (.plain e)) ∨
    (∃ body, r.body = .ok body ∧ h.limiter = none ∧
      Losing h r r.name (answered (h.loginWithHeaders r))) ∨
    ∃ l, Asking h l r (answered (h.loginWithHeaders r)) := by
  cases hbody : r.body with
  | error e =>
    refine .inl ⟨e, rfl, ?_⟩
    unfold AuthHandlers.loginWithHeaders
    rw [hbody]
    rfl
  | ok body =>
    refine .inr ?_
    have hname : r.name = trimSpace body.name := by
      unfold LoginCall.name
      rw [hbody]
    have hattempt : Losing h r r.name (answered ((h.attemptLogin r r.name body.password).mapError .plain)) :=
      losing_attempt hbody
    have hlogin : h.loginWithHeaders r = h.checkLimit r.name r.address >>= fun _ =>
        (h.attemptLogin r r.name body.password).mapError .plain := by
      unfold AuthHandlers.loginWithHeaders
      rw [hbody, hname]
      rfl
    rw [hlogin]
    cases hlimiter : h.limiter with
    | none =>
      unfold AuthHandlers.checkLimit
      rw [hlimiter]
      exact .inl ⟨body, rfl, rfl, hattempt⟩
    | some l => exact .inr ⟨l, asking_checkLimit hlimiter hbody hattempt⟩

/-! ### What the calls of the limiter decide -/

section Decided

variable {ι : Type} [DecidableEq ι] {h : AuthHandlers} {attempts : ι → LoginCall}
  {counts : LoginCounts} {calls : List (LimiterCall ι)} {c c' : LoginConfig ι}

/-- How long an attempt was told to wait, if it was. -/
def waitOf (h : AuthHandlers) (attempts : ι → LoginCall) (counts : LoginCounts)
    (calls : List (LimiterCall ι)) (i : ι) : Option Duration :=
  h.limiter.bind fun l => told l attempts counts i calls

theorem waitOf_allow {l : LoginLimiter} (hlimiter : h.limiter = some l) (i j : ι) (now : Time) :
    waitOf h attempts counts (.allow i now :: calls) j =
      if i = j then
        (l.allow (attempts i).name (attempts i).address now (counted l attempts counts calls)).1
      else waitOf h attempts counts calls j := by
  unfold waitOf
  rw [hlimiter]
  rfl

theorem waitOf_record (i j : ι) (now : Time) :
    waitOf h attempts counts (.recordFailure i now :: calls) j =
      waitOf h attempts counts calls j := rfl

/-- Where an attempt is that was told to wait so long. -/
inductive LoginStage (h : AuthHandlers) (r : LoginCall) (wait : Option Duration)
    (p : LoginProg Unit LoginAnswer) : Prop where
  | asking {l : LoginLimiter} (hasking : Asking h l r p)
  | losing {body : LoginRequest} (hbody : r.body = .ok body) (hwait : wait = none)
      (hlosing : Losing h r r.name p)
  | ended (hended : p = .fail (lostReply r wait))

/-- The counters and the answers are what the calls have made them. -/
structure DecidedBy (h : AuthHandlers) (attempts : ι → LoginCall) (counts : LoginCounts)
    (calls : List (LimiterCall ι)) (c : LoginConfig ι) : Prop where
  counts_eq : ∀ l, h.limiter = some l → c.state.counts = counted l attempts counts calls
  unmatched : ∀ i, Unmatched h (attempts i) c.state
  stage : ∀ i, LoginStage h (attempts i) (waitOf h attempts counts calls i) (c.procs i)

/-- An attempt that has ended was answered what the calls say. -/
theorem LoginStage.responded {r : LoginCall} {wait : Option Duration}
    {p : LoginProg Unit LoginAnswer} (hstage : LoginStage h r wait p)
    {x : Except LoginRefusal LoginAnswer} (hresult : p.result = some x) :
    x = .error (lostReply r wait) := by
  cases hstage with
  | asking hasking =>
    cases hasking
    cases hresult
  | losing hbody hwait hlosing =>
    cases hlosing with
    | unlimited _ =>
      cases hresult
      rw [hwait, lostReply_invalid hbody]
    | record _ _ _ => cases hresult
    | look _ _ _ => cases hresult
  | ended hended =>
    rw [hended] at hresult
    cases hresult
    rfl

/-- The next step of an attempt among the others, none of whom it touches. -/
theorem LoginStage.update {waits waits' : ι → Option Duration} {i : ι}
    {p : LoginProg Unit LoginAnswer} (hothers : ∀ j, LoginStage h (attempts j) (waits j) (c.procs j))
    (hsame : ∀ j, j ≠ i → waits' j = waits j) (hi : LoginStage h (attempts i) (waits' i) p) :
    ∀ j, LoginStage h (attempts j) (waits' j) (Function.update c.procs i p j) := by
  intro j
  by_cases hj : j = i
  · rw [hj, Function.update_self]
    exact hi
  · rw [Function.update_of_ne hj, hsame j hj]
    exact hothers j

theorem unmatched_setCounts {r : LoginCall} {s : AuthServer} (hs : Unmatched h r s)
    (counts : LoginCounts) : Unmatched h r (s.setCounts counts) := hs

/-- **One move** of the attempts. -/
theorem DecidedBy.step {moves : List (Move ι LoginStmt AuthServer)} {m : Mover ι LoginStmt}
    (hc : DecidedBy h attempts counts (limiterCalls moves) c)
    (hstep : Step (BesideLogins h attempts) c m c') :
    DecidedBy h attempts counts (limiterCalls (⟨m, c.state, c'.state⟩ :: moves)) c' := by
  cases hstep with
  | @env s change => exact ⟨fun l hl => change.1.trans (hc.counts_eq l hl), change.2, hc.stage⟩
  | @exec i stmt effect next hat e =>
    have hi := hc.stage i
    rw [hat] at hi
    cases hi with
    | ended hended => cases hended
    | @asking l hasking =>
      cases hasking with
      | @intro body _ _ hlimiter hbody heffect hrefused hpassed =>
        have hnow := hc.counts_eq l hlimiter
        rw [limiterCalls_allow, heffect]
        refine ⟨fun l' hl' => ?_, fun j => unmatched_setCounts (hc.unmatched j) _,
          LoginStage.update hc.stage (fun j hj => ?_) ?_⟩
        · cases hlimiter.symm.trans hl'
          rw [counted, ← hnow]
          rfl
        · rw [waitOf_allow hlimiter, if_neg (Ne.symm hj)]
        · rw [waitOf_allow hlimiter, if_pos rfl, ← hnow]
          cases hverdict : (l.allow (attempts i).name (attempts i).address c.state.world.now
              c.state.counts).1 with
          | none => exact .losing hbody rfl (hpassed e c.state hverdict)
          | some wait =>
            refine .ended ?_
            rw [hrefused e c.state wait hverdict, lostReply_refused hbody]
    | @losing body hbody hwait hlosing =>
      cases hlosing with
      | @record l _ _ hlimiter heffect hnext =>
        rw [limiterCalls_record, heffect]
        refine ⟨fun l' hl' => ?_, fun j => unmatched_setCounts (hc.unmatched j) _,
          LoginStage.update hc.stage (fun j _ => waitOf_record i j _) ?_⟩
        · cases hlimiter.symm.trans hl'
          rw [counted, ← hc.counts_eq l hlimiter]
          rfl
        · refine .ended ?_
          rw [waitOf_record, hwait, hnext, lostReply_invalid hbody]
      | @look _ _ _ hstmt heffect hnext =>
        rw [limiterCalls_look hstmt, heffect]
        exact ⟨hc.counts_eq, hc.unmatched, LoginStage.update hc.stage (fun _ _ => rfl)
          (.losing hbody hwait (hnext e c.state (hc.unmatched i)))⟩

/-- **A run** of the attempts. -/
theorem decided_run {s : AuthServer} (hwrong : ∀ i, Unmatched h (attempts i) s)
    {moves : List (Move ι LoginStmt AuthServer)}
    (hrun : History (BesideLogins h attempts) (arrivedLogins h attempts s) moves c) :
    DecidedBy h attempts s.counts (limiterCalls moves) c := by
  induction hrun with
  | start =>
    have hwait : ∀ i, waitOf h attempts s.counts [] i = none := by
      intro i
      unfold waitOf
      cases h.limiter <;> rfl
    refine ⟨fun _ _ => rfl, hwrong, fun i => ?_⟩
    rcases login_begins h (attempts i) with ⟨e, hbody, hfail⟩ | ⟨body, hbody, -, hlosing⟩ | ⟨l, hasking⟩
    · exact .ended (hfail.trans (by rw [lostReply_malformed hbody]))
    · exact .losing hbody (hwait i) hlosing
    · exact .asking hasking
  | tail _ move ih => exact ih.step move

end Decided

/-! ### Two installations -/

section Mirrored

variable {ι : Type} [DecidableEq ι] {h : AuthHandlers} {attempts : ι → LoginCall}
  {begin c c₁ c₂ : LoginConfig ι} {moves moves₁ moves₂ : List (Move ι LoginStmt AuthServer)}

theorem Losing.going {r : LoginCall} {name : String} {p : LoginProg Unit LoginAnswer}
    (hlosing : Losing h r name p) :
    (h.limiter = none ∧ p = .fail .invalid) ∨ p.result = none := by
  cases hlosing with
  | unlimited hlimiter => exact .inl ⟨hlimiter, rfl⟩
  | record _ _ _ => exact .inr rfl
  | look _ _ _ => exact .inr rfl

/-- The server once a failure is recorded, if there is a limiter. -/
def recorded (h : AuthHandlers) (r : LoginCall) (s : AuthServer) : AuthServer :=
  match h.limiter with
  | none => s
  | some l => s.setCounts (l.recordFailure r.name r.address s.world.now s.counts)

def recordCalls (h : AuthHandlers) (i : ι) (now : Time) : List (LimiterCall ι) :=
  match h.limiter with
  | none => []
  | some _ => [.recordFailure i now]

/-- A lost attempt can go on to its end. -/
theorem Losing.finish {i : ι} {p : LoginProg Unit LoginAnswer}
    (hlosing : Losing h (attempts i) (attempts i).name p) (hat : c.procs i = p)
    (hs : Unmatched h (attempts i) c.state)
    (hrun : History (BesideLogins h attempts) begin moves c) :
    ∃ moves', History (BesideLogins h attempts) begin moves'
        { state := recorded h (attempts i) c.state
          procs := Function.update c.procs i (.fail .invalid) } ∧
      limiterCalls moves' = recordCalls h i c.state.world.now ++ limiterCalls moves := by
  induction hlosing generalizing c moves with
  | unlimited hlimiter =>
    refine ⟨moves, ?_, ?_⟩
    · rw [recorded, hlimiter, ← hat, Function.update_eq_self]
      exact hrun
    · rw [recordCalls, hlimiter]
      rfl
  | record hlimiter heffect hnext =>
    have hrun := hrun.tail (.exec hat ())
    rw [heffect, hnext] at hrun
    rw [recorded, recordCalls, hlimiter]
    exact ⟨_, hrun, rfl⟩
  | @look stmt effect next hstmt heffect hnext ih =>
    have hrun := hrun.tail (.exec hat ())
    rw [heffect] at hrun
    have hat' : Function.update c.procs i (next () c.state) i = next () c.state :=
      Function.update_self _ _ _
    obtain ⟨moves', hrun', hcalls⟩ := ih () c.state hs
      (c := ⟨c.state, Function.update c.procs i (next () c.state)⟩) hat' hs hrun
    rw [limiterCalls_look hstmt] at hcalls
    rw [Function.update_idem] at hrun'
    exact ⟨moves', hrun', hcalls⟩

/-- An attempt is at the same point in both: the same is left of it, or it has lost in both. -/
inductive SamePoint (h : AuthHandlers) (r : LoginCall) :
    LoginProg Unit LoginAnswer → LoginProg Unit LoginAnswer → Prop where
  | asking {l : LoginLimiter} {p : LoginProg Unit LoginAnswer} (hasking : Asking h l r p) :
      SamePoint h r p p
  | losing {p p' : LoginProg Unit LoginAnswer} (hlosing : Losing h r r.name p)
      (hlosing' : Losing h r r.name p') (hgoing : p.result = none) : SamePoint h r p p'
  | ended (x : LoginRefusal) : SamePoint h r (.fail x) (.fail x)

structure Mirrored (h : AuthHandlers) (attempts : ι → LoginCall) (c₁ c₂ : LoginConfig ι) :
    Prop where
  counts_eq : c₂.state.counts = c₁.state.counts
  unmatched₁ : ∀ i, Unmatched h (attempts i) c₁.state
  unmatched₂ : ∀ i, Unmatched h (attempts i) c₂.state
  points : ∀ i, SamePoint h (attempts i) (c₁.procs i) (c₂.procs i)

theorem SamePoint.update {i : ι} {p p' : LoginProg Unit LoginAnswer}
    (hothers : ∀ j, SamePoint h (attempts j) (c₁.procs j) (c₂.procs j))
    (hi : SamePoint h (attempts i) p p') :
    ∀ j, SamePoint h (attempts j) (Function.update c₁.procs i p j)
      (Function.update c₂.procs i p' j) := by
  intro j
  by_cases hj : j = i
  · rw [hj, Function.update_self, Function.update_self]
    exact hi
  · rw [Function.update_of_ne hj, Function.update_of_ne hj]
    exact hothers j

/-- The server at another time. -/
def AuthServer.at (s : AuthServer) (now : Time) : AuthServer :=
  s.setWorld { s.world with now }

/-- The other installation waits until the clock shows the same. -/
theorem sameTime (hs : ∀ i, Unmatched h (attempts i) c.state) (now : Time)
    (hrun : History (BesideLogins h attempts) begin moves c) :
    History (BesideLogins h attempts) begin (⟨.env, c.state, c.state.at now⟩ :: moves)
      { c with state := c.state.at now } :=
  hrun.tail (.env (s := c.state.at now) ⟨rfl, hs⟩)

/-- **A move of one installation** is followed by moves of the other. -/
theorem Mirrored.step {m : Mover ι LoginStmt} {c₁' : LoginConfig ι}
    (hmirror : Mirrored h attempts c₁ c₂) (hcalls : limiterCalls moves₂ = limiterCalls moves₁)
    (hrun : History (BesideLogins h attempts) begin moves₂ c₂)
    (hstep : Step (BesideLogins h attempts) c₁ m c₁') :
    ∃ moves₂' c₂', History (BesideLogins h attempts) begin moves₂' c₂' ∧
      limiterCalls moves₂' = limiterCalls (⟨m, c₁.state, c₁'.state⟩ :: moves₁) ∧
      Mirrored h attempts c₁' c₂' := by
  cases hstep with
  | @env s change =>
    exact ⟨moves₂, c₂, hrun, hcalls, hmirror.counts_eq.trans change.1.symm, change.2,
      hmirror.unmatched₂, hmirror.points⟩
  | @exec i stmt effect next hat e =>
    have hi := hmirror.points i
    have hnow := sameTime hmirror.unmatched₂ c₁.state.world.now hrun
    generalize hat₂ : c₂.procs i = p₂ at hi
    rw [hat] at hi
    cases hi with
    | @asking l _ hasking =>
      cases hasking with
      | @intro body _ _ hlimiter hbody heffect hrefused hpassed =>
        have hallow := hnow.tail (.exec (c := ⟨c₂.state.at c₁.state.world.now, c₂.procs⟩) hat₂ ())
        rw [heffect] at hallow ⊢
        refine ⟨_, _, hallow, ?_, ?_, fun j => unmatched_setCounts (hmirror.unmatched₁ j) _,
          fun j => unmatched_setCounts (hmirror.unmatched₂ j) _, SamePoint.update hmirror.points ?_⟩
        · rw [limiterCalls_allow, limiterCalls_allow, ← hcalls]
          rfl
        · show (l.allow _ _ c₁.state.world.now c₂.state.counts).2 = _
          rw [hmirror.counts_eq]
          rfl
        · have hverdict₂ : (l.allow (attempts i).name (attempts i).address
              (c₂.state.at c₁.state.world.now).world.now
              (c₂.state.at c₁.state.world.now).counts).1 =
              (l.allow (attempts i).name (attempts i).address c₁.state.world.now
                c₁.state.counts).1 := by
            rw [← hmirror.counts_eq]
            rfl
          cases hverdict : (l.allow (attempts i).name (attempts i).address c₁.state.world.now
              c₁.state.counts).1 with
          | some wait =>
            rw [hrefused e _ wait hverdict, hrefused () _ wait (hverdict₂.trans hverdict)]
            exact .ended _
          | none =>
            have hlosing := hpassed e _ hverdict
            refine .losing hlosing (hpassed () _ (hverdict₂.trans hverdict)) ?_
            rcases hlosing.going with ⟨hnone, -⟩ | hgoing
            · rw [hlimiter] at hnone
              cases hnone
            · exact hgoing
    | losing hlosing hlosing₂ =>
      obtain ⟨moves₂', hfinished, hfinishedCalls⟩ :=
        hlosing₂.finish (c := ⟨c₂.state.at c₁.state.world.now, c₂.procs⟩) hat₂
          (hmirror.unmatched₂ i) hnow
      cases hlosing with
      | record hlimiter heffect hnext =>
        refine ⟨moves₂', _, hfinished, ?_, ?_, ?_, ?_, SamePoint.update hmirror.points ?_⟩
        · rw [hfinishedCalls, limiterCalls_record, recordCalls, hlimiter, ← hcalls]
          rfl
        · rw [recorded, hlimiter, heffect, ← hmirror.counts_eq]
          rfl
        · rw [heffect]
          exact fun j => unmatched_setCounts (hmirror.unmatched₁ j) _
        · rw [recorded, hlimiter]
          exact fun j => unmatched_setCounts (hmirror.unmatched₂ j) _
        · rw [hnext]
          exact .ended _
      | look hstmt heffect hnext =>
        have hlosing := hnext e c₁.state (hmirror.unmatched₁ i)
        rw [heffect, limiterCalls_look hstmt]
        rcases hlosing.going with ⟨hlimiter, hended⟩ | hgoing
        · rw [recorded, hlimiter] at hfinished
          rw [recordCalls, hlimiter] at hfinishedCalls
          refine ⟨moves₂', _, hfinished, hfinishedCalls.trans hcalls, hmirror.counts_eq,
            hmirror.unmatched₁, hmirror.unmatched₂, SamePoint.update hmirror.points ?_⟩
          rw [hended]
          exact .ended _
        · refine ⟨moves₂, c₂, hrun, hcalls, hmirror.counts_eq, hmirror.unmatched₁,
            hmirror.unmatched₂, fun j => ?_⟩
          show SamePoint h (attempts j) (Function.update c₁.procs i (next e c₁.state) j) (c₂.procs j)
          by_cases hj : j = i
          · rw [hj, Function.update_self, hat₂]
            exact .losing hlosing hlosing₂ hgoing
          · rw [Function.update_of_ne hj]
            exact hmirror.points j

/-- **A run of one installation** has its like in the other. -/
theorem mirrored_run {s₁ s₂ : AuthServer} (hcounts : s₁.counts = s₂.counts)
    (hwrong₁ : ∀ i, Unmatched h (attempts i) s₁) (hwrong₂ : ∀ i, Unmatched h (attempts i) s₂)
    (hrun : History (BesideLogins h attempts) (arrivedLogins h attempts s₁) moves₁ c₁) :
    ∃ moves₂ c₂, History (BesideLogins h attempts) (arrivedLogins h attempts s₂) moves₂ c₂ ∧
      limiterCalls moves₂ = limiterCalls moves₁ ∧ Mirrored h attempts c₁ c₂ := by
  induction hrun with
  | start =>
    refine ⟨[], _, .start, rfl, hcounts.symm, hwrong₁, hwrong₂, fun i => ?_⟩
    show SamePoint h (attempts i) (answered (h.loginWithHeaders (attempts i)))
      (answered (h.loginWithHeaders (attempts i)))
    rcases login_begins h (attempts i) with ⟨e, -, hfail⟩ | ⟨body, -, -, hlosing⟩ | ⟨l, hasking⟩
    · rw [hfail]
      exact .ended _
    · rcases hlosing.going with ⟨-, hended⟩ | hgoing
      · rw [hended]
        exact .ended _
      · exact .losing hlosing hlosing hgoing
    · exact .asking hasking
  | tail _ move ih =>
    obtain ⟨moves₂, c₂, hrun₂, hcalls, hmirror⟩ := ih
    exact hmirror.step hcalls hrun₂ move

end Mirrored

/-- One failure is allowed in a quarter of an hour. -/
def strictAuth : AuthHandlers :=
  { plainAuth with
    limiter := some { rt := .ascii, perName := 1, perAddress := 60, window := 900 * Time.second } }

def guesses (i : Fin 2) : LoginCall :=
  match i with
  | 0 => annaWith "pizza" ⟨51⟩
  | 1 => annaWith "pasta" ⟨52⟩

/-- The same server without her account. -/
def emptyServer : AuthServer := { annasServer with world := { annasServer.world with db := Db.empty } }

/-- The second guess comes after the first is answered. -/
def guessed : LoginConfig (Fin 2) :=
  ((arrivedLogins strictAuth guesses annasServer).advance 0 [(), (), (), ()]).advance 1 [()]

end Doenerstag
