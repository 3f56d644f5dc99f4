import Doenerstag.Api.LoginWindows
import Doenerstag.Api.OneSession

/-!
# Guessing is limited (`internal/api/login.go`, `ratelimit.go`)

Any number of logins at once, each a program that asks the limiter, verifies the password and tells the
limiter what came of it; any statement of any of them may fail.

* `LoginStmt.Counts`, `login_counts` — what each step of a login does to the counters.
* `LoginPhase` — where a login stands: it has yet to ask, it was let through, or it records nothing.
* `LoginsCount.step` — every step keeps the calls orderly and the counters what the calls made them.
* `guessing_limited` — **with at most `k` failing attempts for a name under way together, an interval
  as long as the window sees fewer than `2 * (limit + k)` of them since the name last logged in.**
-/

namespace Doenerstag

open ReadCommitted Prog

/-! ## What the steps of a login do to the counters -/

/-- A step that calls the limiter. -/
def LoginStmt.Limits : LoginStmt → Prop
  | .allow => True
  | .recordFailure => True
  | .recordSuccess => True
  | _ => False

/-- What the counters are after a step of an attempt. -/
def LoginStmt.counts (l : LoginLimiter) (r : LoginCall) (s : AuthServer) : LoginStmt → LoginCounts
  | .allow => (l.allow r.name r.address s.world.now s.counts).2
  | .recordFailure => l.recordFailure r.name r.address s.world.now s.counts
  | .recordSuccess => l.recordSuccess r.name s.counts
  | _ => s.counts

theorem LoginStmt.counts_of_not {l : LoginLimiter} {r : LoginCall} {stmt : LoginStmt} {s : AuthServer}
    (hnot : ¬ stmt.Limits) : stmt.counts l r s = s.counts := by
  cases stmt with
  | allow => exact absurd trivial hnot
  | recordFailure => exact absurd trivial hnot
  | recordSuccess => exact absurd trivial hnot
  | _ => rfl

/-- A step of an attempt: what it does to the counters, and that it takes no time. -/
def LoginStmt.Counts (l : LoginLimiter) (r : LoginCall) (stmt : LoginStmt) (s s' : AuthServer) : Prop :=
  s'.counts = stmt.counts l r s ∧ s'.world.now = s.world.now

/-- The program does not call the limiter. -/
def BetweenCalls {χ α : Type} (p : Prog LoginStmt Outcome AuthServer χ α) : Prop :=
  p.Steps fun stmt s s' => ¬ stmt.Limits ∧ s'.counts = s.counts ∧ s'.world.now = s.world.now

/-- Its statements are none of the limiter's calls, and take no time. -/
def NoCall (stmt : LoginStmt) (w w' : World Db Time) : Prop := ¬ stmt.Limits ∧ w'.now = w.now

section Steps

variable {l : LoginLimiter} {r : LoginCall} {χ α : Type}

theorem BetweenCalls.counts {p : Prog LoginStmt Outcome AuthServer χ α} (hp : BetweenCalls p) :
    p.Steps (LoginStmt.Counts l r) :=
  Steps.mono hp fun _ _ _ hstep => ⟨hstep.2.1.trans (LoginStmt.counts_of_not hstep.1).symm, hstep.2.2⟩

/-- The database leaves the counters alone. -/
theorem onDb_between {p : Program LoginStmt Db Time χ α} (hp : p.Steps NoCall) :
    BetweenCalls (onDb p) :=
  .onPart hp fun _ _ _ hcall => ⟨hcall.1, rfl, hcall.2⟩

theorem reads_noCall {p : Program LoginStmt Db Time χ α} (hp : p.Reads fun stmt => ¬ stmt.Limits) :
    p.Steps NoCall :=
  Steps.mono hp fun _ _ _ hstmt => ⟨hstmt.2, by rw [hstmt.1]⟩

theorem mark_between (stmt : LoginStmt) (hnot : ¬ stmt.Limits) :
    BetweenCalls (Prog.mark stmt : Prog LoginStmt Outcome AuthServer χ Unit) :=
  .atomic fun _ => ⟨hnot, rfl, rfl⟩

namespace AuthHandlers

variable (h : AuthHandlers)

theorem rehashIfNeeded_between (user : AppUserRow) (password salt : String) :
    BetweenCalls (h.rehashIfNeeded user password salt) := by
  have hupdate : ∀ change, (updateUser LoginStmt.rehash h.rt user.id change).Steps NoCall := by
    intro change
    unfold updateUser
    split_ifs
    · exact reads_noCall (userByID_reads id user.id)
    · exact .mapError (returning_steps (fun _ => ⟨id, rfl⟩) fun _ _ _ _ => ⟨id, rfl⟩) _
  unfold rehashIfNeeded
  split_ifs
  · cases h.passwords.hash salt password with
    | error x => exact steps_done ()
    | ok upgraded => exact .bind (onDb_between (hupdate _)).succeeds fun _ => steps_done ()
  · exact steps_done ()

theorem startSession_between (r : LoginCall) (user : AppUserRow) :
    BetweenCalls (h.startSession r user) := by
  have hwrite : ∀ new, ((replaceSession r.sessionID new).within (LoginStmt.session user.id)).Steps
      NoCall := by
    intro new
    refine .within (.bind (Steps.mono (stampAt_reads (L := fun _ => True) trivial new.issuedAt)
      fun _ _ _ hstmt => ⟨id, by rw [hstmt.1]⟩) fun issued => ?_)
    exact .mapError (returning_steps (fun _ => ⟨id, rfl⟩) fun _ _ _ _ => ⟨id, rfl⟩) _
  refine .bind (onDb_between (reads_noCall (clock_reads id))) fun issued => ?_
  refine .bind (.mapError (onDb_between (hwrite _)) _) fun session => ?_
  refine .bind (.ofExcept _) fun token => steps_step.mpr fun e s => ⟨⟨id, rfl, rfl⟩, ?_⟩
  split_ifs
  · exact steps_fail _
  · exact steps_done _

theorem noteLogin_between (user : AppUserRow) : BetweenCalls (noteLogin user) := by
  refine .bind (onDb_between (reads_noCall (clock_reads id))) fun stamp =>
    .bind (onDb_between ?_).succeeds fun _ => steps_done ()
  exact .bind (.mapError (exec_steps (fun _ => ⟨id, rfl⟩) fun _ _ _ => ⟨id, rfl⟩) _) fun _ =>
    steps_done ()

theorem failLogin_counts {β : Type} {name : String} (hname : name = r.name)
    (hlimiter : h.limiter = some l) :
    (h.failLogin name r.address : AuthHandler LoginStmt β).Steps (LoginStmt.Counts l r) := by
  subst hname
  refine .bind ?_ fun _ => steps_fail _
  unfold recordLoginFailure
  rw [hlimiter]
  exact .atomic fun _ => ⟨rfl, rfl⟩

theorem loginAccount_counts {name : String} (hname : name = r.name) (hlimiter : h.limiter = some l) :
    (h.loginAccount name r.address).Steps (LoginStmt.Counts l r) := by
  have hread : (passwordHashByName LoginStmt.account h.rt name).Reads fun stmt => ¬ stmt.Limits :=
    (queryRow_reads id).mapError _
  refine .handle (onDb_between (reads_noCall hread)).counts fun e => ?_
  split_ifs
  · exact .bind (mark_between .equalise id).counts fun _ =>
      h.failLogin_counts hname hlimiter
  · exact steps_fail _

theorem verifyLogin_counts {name : String} (hname : name = r.name) (hlimiter : h.limiter = some l)
    (password : String) (user : AppUserRow) :
    (h.verifyLogin name r.address password user).Steps (LoginStmt.Counts l r) := by
  unfold verifyLogin
  split_ifs
  · exact h.failLogin_counts hname hlimiter
  · refine .bind (mark_between (.verify _) id).counts fun _ => ?_
    split_ifs
    · exact steps_done ()
    · exact h.failLogin_counts hname hlimiter

theorem acceptLogin_counts {name : String} (hname : name = r.name) (hlimiter : h.limiter = some l)
    (password : String) (user : AppUserRow) :
    (h.acceptLogin r name password user).Steps (LoginStmt.Counts l r) := by
  subst hname
  refine .bind ?_ fun _ => .bind (h.rehashIfNeeded_between user password r.salt).counts fun _ =>
    .bind (h.startSession_between r user).counts fun (session, token) =>
      .bind (noteLogin_between user).counts fun _ => steps_done _
  unfold recordLoginSuccess
  rw [hlimiter]
  exact .atomic fun _ => ⟨rfl, rfl⟩

/-- A login whose body is one: it asks, and goes on. -/
theorem login_eq_allow {body : LoginRequest} (hbody : r.body = .ok body) :
    h.login r = h.allow r.name r.address >>= fun _ => h.attemptLogin r r.name body.password := by
  have hname : r.name = trimSpace body.name := by
    unfold LoginCall.name
    rw [hbody]
  unfold login
  rw [hbody, hname]
  rfl

/-- **What a login does to the counters**, step by step. -/
theorem login_counts (hlimiter : h.limiter = some l) : (h.login r).Steps (LoginStmt.Counts l r) := by
  cases hbody : r.body with
  | error e =>
    unfold login
    rw [hbody]
    exact steps_fail _
  | ok body =>
    rw [h.login_eq_allow hbody]
    refine .bind ?_ fun _ => ?_
    · unfold allow
      rw [hlimiter]
      refine .bind (.atomic fun _ => ⟨rfl, rfl⟩) fun wait => ?_
      cases wait with
      | none => exact steps_done ()
      | some wait => exact steps_fail _
    · unfold attemptLogin
      split_ifs
      · exact h.failLogin_counts rfl hlimiter
      · exact .bind (h.loginAccount_counts rfl hlimiter) fun user =>
          .bind (h.verifyLogin_counts rfl hlimiter _ user) fun _ =>
            h.acceptLogin_counts rfl hlimiter _ user

end AuthHandlers

end Steps

/-! ## Where a login stands -/

/-- A login that has yet to ask, and records nothing if it is refused; or one that records no failure
any more. -/
inductive LoginPhase (l : LoginLimiter) (r : LoginCall) :
    AuthHandler LoginStmt LoginAnswer → Prop where
  | asking {effect : Outcome → AuthServer → AuthServer}
      {next : Outcome → AuthServer → AuthHandler LoginStmt LoginAnswer}
      (refused : ∀ e s, (l.allow r.name r.address s.world.now s.counts).1 ≠ none →
        (next e s).Steps fun stmt _ _ => stmt ≠ .recordFailure) :
      LoginPhase l r (.step .allow effect next)
  | silent {p : AuthHandler LoginStmt LoginAnswer}
      (steps : p.Steps fun stmt _ _ => stmt ≠ .recordFailure) : LoginPhase l r p

theorem login_phase (h : AuthHandlers) {l : LoginLimiter} (hlimiter : h.limiter = some l)
    (r : LoginCall) : LoginPhase l r (h.login r) := by
  cases hbody : r.body with
  | error e =>
    unfold AuthHandlers.login
    rw [hbody]
    exact .silent (steps_fail _)
  | ok body =>
    rw [h.login_eq_allow hbody]
    unfold AuthHandlers.allow
    rw [hlimiter]
    refine .asking fun e s hrefused => ?_
    dsimp only
    cases hwait : (l.allow r.name r.address s.world.now s.counts).1 with
    | none => exact absurd hwait hrefused
    | some wait => exact steps_fail _

/-! ## Any number of logins at once -/

section Runs

variable {ι : Type} [DecidableEq ι] {h : AuthHandlers} {l : LoginLimiter} {attempts : ι → LoginCall}

/-- Nobody else changes the counters, and the clock does not go back. -/
def ClockRuns (s s' : AuthServer) : Prop := s'.counts = s.counts ∧ s.world.now ≤ s'.world.now

/-- The logins, none of which has begun. -/
def beganLogins (h : AuthHandlers) (attempts : ι → LoginCall) (s : AuthServer) :
    Config ι LoginStmt Outcome AuthServer ApiError LoginAnswer :=
  { state := s, procs := fun i => h.login (attempts i) }

/-- The calls of the limiter so far, and what they tell of each login. -/
structure LoginsCount (l : LoginLimiter) (attempts : ι → LoginCall) (calls : List (LimiterCall ι))
    (c : Config ι LoginStmt Outcome AuthServer ApiError LoginAnswer) : Prop where
  counts : c.state.counts = counted l attempts .empty calls
  orderly : Orderly l attempts calls
  clocked : Clocked c.state.world.now calls
  steps : ∀ i, (c.procs i).Steps (LoginStmt.Counts l (attempts i))
  phase : ∀ i, LetThrough l attempts i calls ∨ LoginPhase l (attempts i) (c.procs i)

omit [DecidableEq ι] in
theorem LetThrough.later {calls : List (LimiterCall ι)} {i : ι} (h : LetThrough l attempts i calls)
    (later : List (LimiterCall ι)) : LetThrough l attempts i (later ++ calls) := by
  obtain ⟨since, now, earlier, rfl, hallow⟩ := h
  exact ⟨later ++ since, now, earlier, (List.append_assoc ..).symm, hallow⟩

omit [DecidableEq ι] in
theorem Orderly.cons {calls : List (LimiterCall ι)} {call : LimiterCall ι}
    (h : Orderly l attempts calls)
    (hcall : ∀ i now, call = .recordFailure i now → LetThrough l attempts i calls) :
    Orderly l attempts (call :: calls) := by
  intro later i now earlier heq
  cases later with
  | nil =>
    obtain ⟨rfl, rfl⟩ := List.cons.inj heq
    exact hcall i now rfl
  | cons _ later => exact h later i now earlier (List.cons.inj heq).2

omit [DecidableEq ι] in
theorem Clocked.cons {calls : List (LimiterCall ι)} {call : LimiterCall ι} {now : Time}
    (h : Clocked now calls) (hcall : ∀ t, call.time = some t → t = now) :
    Clocked now (call :: calls) := by
  unfold Clocked callTimes at h ⊢
  cases htime : call.time with
  | none => rwa [List.filterMap_cons_none htime]
  | some t =>
    cases hcall t htime
    rw [List.filterMap_cons_some htime]
    refine List.pairwise_cons.mpr ⟨fun t ht => ?_, h⟩
    rcases List.mem_cons.mp ht with rfl | ht
    · exact le_rfl
    · exact (List.pairwise_cons.mp h).1 t ht

omit [DecidableEq ι] in
theorem Clocked.mono {calls : List (LimiterCall ι)} {now now' : Time} (h : Clocked now calls)
    (hle : now ≤ now') : Clocked now' calls := by
  refine List.pairwise_cons.mpr ⟨fun t ht => ?_, (List.pairwise_cons.mp h).2⟩
  exact ((List.pairwise_cons.mp h).1 t ht).trans hle

omit [DecidableEq ι] in
theorem limiterCalls_not {i : ι} {stmt : LoginStmt} (hnot : ¬ stmt.Limits) (s s' : AuthServer)
    (moves : List (Move ι LoginStmt AuthServer)) :
    limiterCalls (⟨.proc i stmt, s, s'⟩ :: moves) = limiterCalls moves := by
  cases stmt with
  | allow => exact absurd trivial hnot
  | recordFailure => exact absurd trivial hnot
  | recordSuccess => exact absurd trivial hnot
  | _ => rfl

variable {moves : List (Move ι LoginStmt AuthServer)}
  {c c' : Config ι LoginStmt Outcome AuthServer ApiError LoginAnswer}

/-- Where the others stand, and the one that has moved. -/
theorem LoginsCount.phase_update {calls : List (LimiterCall ι)} {i : ι}
    {p : AuthHandler LoginStmt LoginAnswer} (h : LoginsCount l attempts calls c)
    (later : List (LimiterCall ι))
    (hi : LetThrough l attempts i (later ++ calls) ∨ LoginPhase l (attempts i) p) :
    ∀ j, LetThrough l attempts j (later ++ calls) ∨
      LoginPhase l (attempts j) (Function.update c.procs i p j) := by
  intro j
  by_cases hj : j = i
  · subst hj
    rwa [Function.update_self]
  · rw [Function.update_of_ne hj]
    exact (h.phase j).imp (fun hthrough => hthrough.later later) id

/-- A login that is no longer asking goes on as it stands. -/
theorem LoginPhase.next {r : LoginCall} {stmt : LoginStmt} {effect : Outcome → AuthServer → AuthServer}
    {next : Outcome → AuthServer → AuthHandler LoginStmt LoginAnswer}
    (h : LoginPhase l r (.step stmt effect next)) (hstmt : stmt ≠ .allow) (e : Outcome)
    (s : AuthServer) : stmt ≠ .recordFailure ∧ LoginPhase l r (next e s) := by
  cases h with
  | asking => exact absurd rfl hstmt
  | silent steps =>
    obtain ⟨hnot, hrest⟩ := steps_step.mp steps e s
    exact ⟨hnot, .silent hrest⟩

/-- **One move** of the logins. -/
theorem LoginsCount.step {m : Mover ι LoginStmt} (hc : LoginsCount l attempts (limiterCalls moves) c)
    (hstep : Step ClockRuns c m c') :
    LoginsCount l attempts (limiterCalls (⟨m, c.state, c'.state⟩ :: moves)) c' := by
  cases hstep with
  | @env s change =>
    exact ⟨change.1.trans hc.counts, hc.orderly, hc.clocked.mono change.2, hc.steps, hc.phase⟩
  | @exec i stmt effect next hat e =>
    have hi := hc.steps i
    rw [hat] at hi
    obtain ⟨⟨hcounts, hnow⟩, hrest⟩ := steps_step.mp hi e c.state
    have hsteps : ∀ j, (Function.update c.procs i (next e c.state) j).Steps
        (LoginStmt.Counts l (attempts j)) := by
      intro j
      by_cases hj : j = i
      · subst hj
        rwa [Function.update_self]
      · rw [Function.update_of_ne hj]
        exact hc.steps j
    have hphase : stmt ≠ .allow → LetThrough l attempts i (limiterCalls moves) ∨
        stmt ≠ .recordFailure ∧ LoginPhase l (attempts i) (next e c.state) := by
      intro hstmt
      rcases hc.phase i with hthrough | hphase
      · exact .inl hthrough
      · rw [hat] at hphase
        exact .inr (hphase.next hstmt e c.state)
    have hclock : ∀ call : LimiterCall ι, (∀ t, call.time = some t → t = c.state.world.now) →
        Clocked (effect e c.state).world.now (call :: limiterCalls moves) := by
      intro call htime
      rw [hnow]
      exact hc.clocked.cons htime
    by_cases hcall : stmt.Limits
    · cases stmt with
      | allow =>
        refine ⟨?_, hc.orderly.cons nofun, hclock _ ?_, hsteps,
          hc.phase_update [.allow i c.state.world.now] ?_⟩
        · rw [hcounts, LoginStmt.counts, hc.counts]
          rfl
        · rintro t ⟨⟩
          rfl
        · -- it asks: let through, or nothing that it records from now on is a failure
          have hasked := hc.phase i
          rw [hat] at hasked
          rcases hasked with hthrough | hphase
          · exact .inl (hthrough.later [_])
          · by_cases hallow : (l.allow (attempts i).name (attempts i).address c.state.world.now
                c.state.counts).1 = none
            · exact .inl ⟨[], _, _, rfl, hc.counts ▸ hallow⟩
            · cases hphase with
              | asking refused => exact .inr (.silent (refused e c.state hallow))
              | silent steps => exact .inr (.silent (steps_step.mp steps e c.state).2)
      | recordFailure =>
        have hthrough : LetThrough l attempts i (limiterCalls moves) :=
          (hphase nofun).resolve_right fun h => h.1 rfl
        refine ⟨?_, hc.orderly.cons ?_, hclock _ ?_, hsteps,
          hc.phase_update [.recordFailure i c.state.world.now] (.inl (hthrough.later [_]))⟩
        · rw [hcounts, LoginStmt.counts, hc.counts]
          rfl
        · rintro _ _ ⟨⟩
          exact hthrough
        · rintro t ⟨⟩
          rfl
      | recordSuccess =>
        refine ⟨?_, hc.orderly.cons nofun, hclock _ (fun _ htime => by cases htime), hsteps,
          hc.phase_update [.recordSuccess i] ((hphase nofun).imp (fun h => h.later [_]) And.right)⟩
        rw [hcounts, LoginStmt.counts, hc.counts]
        rfl
      | _ => exact hcall.elim
    · rw [limiterCalls_not hcall]
      refine ⟨?_, hc.orderly, hnow ▸ hc.clocked, hsteps, hc.phase_update [] ?_⟩
      · rw [hcounts, LoginStmt.counts_of_not hcall]
        exact hc.counts
      · refine (hphase ?_).imp id And.right
        rintro rfl
        exact hcall trivial

/-- **A run** of the logins. -/
theorem loginsCount_run (hlimiter : h.limiter = some l) {s : AuthServer} (hstart : s.counts = .empty)
    (hrun : History ClockRuns (beganLogins h attempts s) moves c) :
    LoginsCount l attempts (limiterCalls moves) c := by
  induction hrun with
  | start =>
    have hnone : Orderly l attempts ([] : List (LimiterCall ι)) := by
      intro later i now earlier heq
      cases List.append_ne_nil_of_right_ne_nil _ (List.cons_ne_nil _ _) heq.symm
    refine ⟨hstart, hnone, List.pairwise_singleton _ _, fun i => h.login_counts hlimiter, fun i => ?_⟩
    exact .inr (login_phase h hlimiter (attempts i))
  | tail _ move ih => exact ih.step move

/-- **Guessing is limited.** In every run of logins side by side, each of whose statements may fail, with
at most `k` of those that fail for a name (or from an address) under way together: any interval as long
as the window sees fewer than `2 * (limit + k)` failures of that name since it was last forgiven (of that
address, which never is). -/
theorem guessing_limited (hlimiter : h.limiter = some l) {which : LimitedBy} {key : String}
    (hlimit : 0 < which.limit l) (hkey : key ≠ "") {s : AuthServer} (hstart : s.counts = .empty)
    (hrun : History ClockRuns (beganLogins h attempts s) moves c) {k : Nat}
    (hconcurrent : Concurrent l attempts which key k (limiterCalls moves)) (a : Time) :
    ((failures l attempts which key (limiterCalls moves)).countP fun t => a ≤ t ∧ t < a + l.window) ≤
      2 * ((which.limit l).toNat + k - 1) := by
  have hrun' := loginsCount_run hlimiter hstart hrun
  exact failures_interval hlimit hkey hrun'.clocked hrun'.orderly hconcurrent

/-- No more failures are under way than there are. -/
theorem concurrent_of_length {which : LimitedBy} {key : String} {k : Nat}
    {calls : List (LimiterCall ι)} (hlength : (failing l attempts which key calls).length ≤ k) :
    Concurrent l attempts which key k calls := by
  rintro later earlier rfl
  rw [failing_append, List.length_append] at hlength
  exact List.countP_le_length.trans ((Nat.le_add_right _ _).trans hlength)

end Runs

/-- Somebody guesses Anna's password, and is wrong. -/
theorem guessing_limited_anna :
    ∃ c, ∃ moves : List (Move Unit LoginStmt AuthServer),
      History ClockRuns
        (beganLogins { plainAuth with limiter := some strictLimiter } guess annasServer) moves c ∧
      failures strictLimiter guess .name "anna" (limiterCalls moves) = [Time.second] ∧
      ((failures strictLimiter guess .name "anna" (limiterCalls moves)).countP fun t =>
        0 ≤ t ∧ t < 0 + strictLimiter.window) ≤ 2 * (Int.toNat 1 + 1 - 1) := by
  have hstart : History ClockRuns
      (beganLogins { plainAuth with limiter := some strictLimiter } guess annasServer) [] _ := .start
  have hrun := hstart.advance () [.ok, .ok, .ok, .ok]
  refine ⟨_, _, hrun, by decide +kernel, ?_⟩
  exact guessing_limited rfl (by decide) (by decide) rfl hrun
    (concurrent_of_length (by decide +kernel)) 0

end Doenerstag
