import Doenerstag.Api.Browser

/-!
# Answers that come late (`internal/api/authenticate.go`, `internal/api/cookies.go`)

A request that bears a dead session cookie is answered with headers that expire the session's cookies. They
name the cookies and not the session, so they take away whatever session the browser has when they arrive.

* `Jar.apply_made` — what an answer does to the cookies of a session.
* `login_sticks_iff` — **a login sticks, exactly when nothing late takes it away**: no answer that refuses
  another session's cookie arrives after it.
-/

namespace Doenerstag

open ReadCommitted Prog

/-! ## What the browser is to have -/

/-- A session, by its token and its CSRF token. -/
structure SignedIn where
  token : String
  csrf : String
  deriving DecidableEq, Repr

/-- The session of the last login that was answered, until a logout is answered or the session itself refused. -/
def lastLogin {ι : Type} : List (Mover ι PageStmt) → Option SignedIn
  | [] => none
  | .proc _ (.arrive a) :: earlier =>
    match a.reply.session with
    | .signedIn token csrf => some { token, csrf }
    | .signedOut => none
    | .kept => if a.ended.isSome && (lastLogin earlier).any fun s => s.token == a.bore then none else lastLogin earlier
  | _ :: earlier => lastLogin earlier

/-- The cookies of the session are there. -/
def Jar.Holds (jar : Jar) (s : SignedIn) : Prop :=
  jar sessionCookieName = some s.token ∧ jar csrfCookieName = some s.csrf

/-- After every move, the browser has the session that it is to have. -/
def LoginSticks {ι : Type} : List (Move ι PageStmt Page) → Prop
  | [] => True
  | m :: earlier =>
    (∀ s ∈ lastLogin ((m :: earlier).map Move.mover), m.after.jar.Holds s) ∧ LoginSticks earlier

/-- An answer that takes a login away: it refuses the cookie of another session. A cookie whose lifetime is a
second below zero, or more, is gone at once. -/
def takesAway {ι : Type} (h : Backend) (earlier : List (Mover ι PageStmt)) (a : Answer) : Bool :=
  match a.reply.session with
  | .signedIn _ _ => decide (Int.tdiv h.auth.absoluteTimeout Time.second < 0)
  | .signedOut => false
  | .kept => a.ended.isSome && (lastLogin earlier).any fun s => s.token != a.bore

/-- No answer that has arrived takes a login away. -/
def nothingLate {ι : Type} (h : Backend) : List (Mover ι PageStmt) → Bool
  | [] => true
  | .proc _ (.arrive a) :: earlier => !takesAway h earlier a && nothingLate h earlier
  | _ :: earlier => nothingLate h earlier

/-! ## One answer -/

section Answers

variable {h : Backend} {jar jar' : Jar} {r : PageRequest} {a : Answer}

theorem cookie_names : sessionCookieName ≠ csrfCookieName ∧ sessionEndedCookieName ≠ sessionCookieName ∧
    sessionEndedCookieName ≠ csrfCookieName := by
  decide

theorem Jar.apply_append (cookies more : List Cookie) :
    jar.apply (cookies ++ more) = (jar.apply cookies).apply more := List.foldl_append

/-- Cookies of another name leave the cookies of the session alone. -/
theorem Jar.set_other {c : Cookie} (hname : c.name = sessionEndedCookieName) :
    (jar.set c) sessionCookieName = jar sessionCookieName ∧ (jar.set c) csrfCookieName = jar csrfCookieName := by
  obtain ⟨-, hsession, hcsrf⟩ := cookie_names
  unfold Jar.set
  rw [hname]
  exact ⟨Function.update_of_ne hsession.symm .., Function.update_of_ne hcsrf.symm ..⟩

/-- Two cookies, of the names that those of the session have -/
theorem Jar.apply_two {c d : Cookie} (hc : c.name = sessionCookieName) (hd : d.name = csrfCookieName) :
    (jar.apply [c, d]) sessionCookieName = (if c.maxAge < 0 then none else some c.value) ∧
      (jar.apply [c, d]) csrfCookieName = if d.maxAge < 0 then none else some d.value := by
  show (jar.set c).set d sessionCookieName = _ ∧ (jar.set c).set d csrfCookieName = _
  unfold Jar.set
  rw [hc, hd, Function.update_self, Function.update_of_ne cookie_names.1, Function.update_self]
  exact ⟨rfl, rfl⟩

theorem Jar.apply_clear (secure : Bool) : (jar.apply (clearSessionCookies secure)) sessionCookieName = none ∧
    (jar.apply (clearSessionCookies secure)) csrfCookieName = none := by
  have htwo := jar.apply_two
    (c := { name := sessionCookieName, value := "", path := "/", maxAge := -1, httpOnly := true, secure })
    (d := { name := csrfCookieName, value := "", path := "/", maxAge := -1, httpOnly := false, secure }) rfl rfl
  exact htwo

theorem Jar.apply_session (token csrf : String) (lifetime : Duration) (secure : Bool) (s : SignedIn) :
    (jar.apply (setSessionCookies token csrf lifetime secure)).Holds s ↔
      ¬ Int.tdiv lifetime Time.second < 0 ∧ s = { token, csrf } := by
  unfold setSessionCookies Jar.Holds
  dsimp only
  obtain ⟨hsession, hcsrf⟩ := jar.apply_two
    (c := { name := sessionCookieName, value := token, path := "/", maxAge := Int.tdiv lifetime Time.second
            httpOnly := true, secure })
    (d := { name := csrfCookieName, value := csrf, path := "/", maxAge := Int.tdiv lifetime Time.second
            httpOnly := false, secure }) rfl rfl
  rw [hsession, hcsrf]
  dsimp only
  split_ifs with hpast
  · exact iff_of_false (fun h => by cases h.1) fun h => h.1 hpast
  · obtain ⟨token', csrf'⟩ := s
    rw [Option.some.injEq, Option.some.injEq, SignedIn.mk.injEq, and_iff_right hpast, eq_comm, @eq_comm _ csrf]

/-- What the middleware does to the cookies of a session -/
theorem Jar.apply_refusal (ended : Option Code) :
    (jar.apply (h.refusalCookies ended)) sessionCookieName = (if ended.isSome then none else jar sessionCookieName) ∧
      (jar.apply (h.refusalCookies ended)) csrfCookieName = if ended.isSome then none else jar csrfCookieName := by
  cases ended with
  | none => exact ⟨rfl, rfl⟩
  | some code =>
    obtain ⟨hsession, hcsrf⟩ := jar.apply_clear h.doorman.secure
    obtain ⟨hsession', hcsrf'⟩ := (jar.apply (clearSessionCookies h.doorman.secure)).set_other
      (c := setSessionEndedCookie code h.doorman.secure) rfl
    unfold Backend.refusalCookies
    dsimp only
    rw [Jar.apply_append]
    exact ⟨hsession'.trans hsession, hcsrf'.trans hcsrf⟩

/-- An answer that neither signs in nor signs out -/
theorem holds_refused {last : Option SignedIn} {ended : Option Code} {bore : String}
    (hsession : jar' sessionCookieName = if ended.isSome then none else jar sessionCookieName)
    (hcsrf : jar' csrfCookieName = if ended.isSome then none else jar csrfCookieName)
    (hnow : ∀ s ∈ last, jar.Holds s) :
    (∀ s ∈ (if ended.isSome && last.any (fun s => s.token == bore) then none else last), jar'.Holds s) ↔
      (ended.isSome && last.any fun s => s.token != bore) = false := by
  cases ended with
  | none =>
    refine iff_of_true (fun s hs => ?_) rfl
    obtain ⟨hs₁, hs₂⟩ := hnow s hs
    exact ⟨hsession.trans hs₁, hcsrf.trans hs₂⟩
  | some code =>
    cases last with
    | none => exact iff_of_true (fun s hs => (by cases hs)) rfl
    | some s =>
      by_cases htoken : s.token = bore
      · have hequal : (s.token == bore) = true := beq_iff_eq.mpr htoken
        have hsame : (s.token != bore) = false := by rw [bne, hequal]; rfl
        simp only [Option.isSome_some, Option.any_some, Bool.true_and, hequal, hsame, if_true]
        exact iff_of_true (fun s hs => by cases hs) trivial
      · have hequal : (s.token == bore) = false := beq_eq_false_iff_ne.mpr htoken
        have hother : (s.token != bore) = true := by rw [bne, hequal]; rfl
        simp only [Option.isSome_some, Option.any_some, Bool.true_and, hequal, hother]
        refine iff_of_false (fun hholds => ?_) (by decide)
        have hgone := (hholds s rfl).1
        rw [hsession] at hgone
        cases hgone

/-- **What an answer does to the cookies of a session**: those that are to be there then are there, unless the answer
takes them away. -/
theorem Jar.apply_made {ι : Type} {movers : List (Mover ι PageStmt)} {i : ι} (made : a.Made h jar' r)
    (hnow : ∀ s ∈ lastLogin movers, jar.Holds s) :
    (∀ s ∈ lastLogin (.proc i (.arrive a) :: movers), (jar.apply a.cookies).Holds s) ↔
      takesAway h movers a = false := by
  obtain ⟨bore, ended, reply, cookies⟩ := a
  have hcookies := made.cookies
  have hreply := made.reply
  dsimp only at hcookies hreply
  subst hcookies
  obtain ⟨hsession, hcsrf⟩ := jar.apply_refusal (h := h) ended
  unfold lastLogin takesAway
  dsimp only
  rw [Jar.apply_append]
  generalize jar.apply (h.refusalCookies ended) = refused at hsession hcsrf
  cases hreply with
  | plain => exact holds_refused hsession hcsrf hnow
  | signIn token csrf =>
    dsimp only
    rw [decide_eq_false_iff_not]
    constructor
    · intro hholds
      exact ((Jar.apply_session token csrf _ _ _).mp (hholds _ rfl)).1
    · intro hlife s hs
      cases hs
      exact (Jar.apply_session token csrf _ _ _).mpr ⟨hlife, rfl⟩
  | signOut => exact iff_of_true (fun s hs => by cases hs) rfl
  | news code =>
    obtain ⟨hsession', hcsrf'⟩ := refused.set_other (c := clearSessionEndedCookie h.doorman.secure) rfl
    exact holds_refused (hsession'.trans hsession) (hcsrf'.trans hcsrf) hnow

end Answers

/-! ## Any number of requests -/

/-- What a step of a request does to the cookies -/
def CookieStep (h : Backend) (l : PageStmt) (p p' : Page) : Prop :=
  match l with
  | .arrive a => (∃ jar r, a.Made h jar r) ∧ p'.jar = p.jar.apply a.cookies
  | _ => p'.jar = p.jar

theorem exchange_steps (h : Backend) (r : PageRequest) : (exchange h r).Steps (CookieStep h) := by
  refine steps_step.mpr fun _ p => ⟨rfl, ?_⟩
  refine Steps.bind_returns ?_ (.within (.onPart (h.serve_made p.jar r) fun _ _ => trivial) _) fun a made => ?_
  · exact .within (.onPart (.trivially _) fun _ _ _ _ => rfl)
  · exact steps_step.mpr fun _ _ => ⟨⟨⟨_, _, made⟩, rfl⟩, steps_done _⟩

/-- The cookies that there are to be are there, as long as nothing late has taken them away. -/
def Sticking {ι : Type} (h : Backend) (moves : List (Move ι PageStmt Page)) (p : Page) : Prop :=
  (LoginSticks moves ↔ nothingLate h (moves.map Move.mover) = true) ∧
    (LoginSticks moves → ∀ s ∈ lastLogin (moves.map Move.mover), p.jar.Holds s)

/-- A move that no answer arrives with. -/
theorem Sticking.quiet {ι : Type} {h : Backend} {moves : List (Move ι PageStmt Page)} {p p' : Page}
    {mover : Mover ι PageStmt} (hsticking : Sticking h moves p) (hjar : p'.jar = p.jar)
    (hlast : lastLogin (mover :: moves.map Move.mover) = lastLogin (moves.map Move.mover))
    (hlate : nothingLate h (mover :: moves.map Move.mover) = nothingLate h (moves.map Move.mover)) :
    Sticking h (⟨mover, p, p'⟩ :: moves) p' := by
  obtain ⟨hiff, hnow⟩ := hsticking
  refine ⟨?_, fun hsticks => hsticks.1⟩
  show ((∀ s ∈ lastLogin (mover :: moves.map Move.mover), p'.jar.Holds s) ∧ LoginSticks moves) ↔
    nothingLate h (mover :: moves.map Move.mover) = true
  rw [hlast, hlate, hjar, ← hiff]
  exact ⟨fun hboth => hboth.2, fun hsticks => ⟨hnow hsticks, hsticks⟩⟩

theorem Sticking.arrive {ι : Type} {h : Backend} {moves : List (Move ι PageStmt Page)} {p p' : Page} {i : ι}
    {a : Answer} {jar : Jar} {r : PageRequest} (hsticking : Sticking h moves p) (made : a.Made h jar r)
    (hjar : p'.jar = p.jar.apply a.cookies) :
    Sticking h (⟨.proc i (.arrive a), p, p'⟩ :: moves) p' := by
  obtain ⟨hiff, hnow⟩ := hsticking
  refine ⟨?_, fun hsticks => hsticks.1⟩
  show ((∀ s ∈ lastLogin (.proc i (.arrive a) :: moves.map Move.mover), p'.jar.Holds s) ∧ LoginSticks moves) ↔
    (!takesAway h (moves.map Move.mover) a && nothingLate h (moves.map Move.mover)) = true
  rw [Bool.and_eq_true, Bool.not_eq_true', ← hiff, hjar]
  exact and_congr_left fun hsticks => Jar.apply_made made (hnow hsticks)

/-- **A login sticks**, exactly when nothing late takes it away. -/
theorem login_sticks_iff {ι : Type} [DecidableEq ι] (h : Backend) (requests : ι → PageRequest) {Env : Page → Page → Prop}
    {p : Page} {moves : List (Move ι PageStmt Page)} {c : Config ι PageStmt Outcome Page Empty Unit}
    (henv : ∀ p p', Env p p' → p'.jar = p.jar)
    (history : History Env { state := p, procs := fun i => exchange h (requests i) } moves c) :
    LoginSticks moves ↔ nothingLate h (moves.map Move.mover) = true := by
  have hinv := history.invariant (P := CookieStep h) (J := Sticking h) (C := fun _ => True)
    (fun i => exchange_steps h (requests i)) ?_ ?_ ?_ fun _ _ => trivial
  · exact hinv.1
  · exact ⟨iff_of_true trivial rfl, fun _ s hs => by cases hs⟩
  · intro moves p p' i l hsticking hstep _
    cases l with
    | send => exact hsticking.quiet hstep rfl rfl
    | server s => exact hsticking.quiet hstep rfl rfl
    | arrive a =>
      obtain ⟨⟨jar, r, made⟩, hjar⟩ := hstep
      exact hsticking.arrive made hjar
  · exact fun moves p p' hsticking change => hsticking.quiet (henv p p' change) rfl rfl

/-! ## Two requests with one dead cookie -/

theorem LoginSticks.head? {ι : Type} {moves : List (Move ι PageStmt Page)} (h : LoginSticks moves) :
    ∀ m ∈ moves.head?, ∀ s ∈ lastLogin (moves.map Move.mover), m.after.jar.Holds s := by
  cases moves with
  | nil => exact fun m hm => by cases hm
  | cons m earlier =>
    intro m' hm'
    cases hm'
    exact h.1

def plainBackend : Backend where
  auth := plainAuth
  doorman :=
    { signer := plainSigner, idleTimeout := Time.hour, secure := true, hashAPIToken := fun value => value }

/-- Anna's page asks for something, and she logs in. -/
def annasTab (loggingIn : Bool) : PageRequest where
  authorization := ""
  csrfToken := ""
  asked :=
    if loggingIn then .login (annaWith "kebab" ⟨8⟩) "csrf"
    else .other true fun _ => Prog.done false

/-- Her browser has the cookie of a session that there is no longer. -/
def deadTab : Page where
  server := annasServer
  jar := fun name => if name = sessionCookieName then some (⟨7⟩ : UUID).string else none

def tabsStart : Config Bool PageStmt Outcome Page Empty Unit :=
  { state := deadTab, procs := fun i => exchange plainBackend (annasTab i) }

def allWell : List Outcome := List.replicate 20 .ok

/-- She logs in when the page has loaded. -/
def tabsInTurn : List (Move Bool PageStmt Page) :=
  (tabsStart.advance false allWell).movesOf true allWell ++ (tabsStart.movesOf false allWell ++ [])

theorem login_sticks_inTurn :
    (LoginSticks tabsInTurn ↔ nothingLate plainBackend (tabsInTurn.map Move.mover) = true) ∧
      nothingLate plainBackend (tabsInTurn.map Move.mover) = true :=
  ⟨login_sticks_iff plainBackend annasTab (fun _ _ change => (change : False).elim)
    ((History.advance .start false allWell).advance true allWell), by decide +kernel⟩

/-- What the page has asked for comes when she has logged in. -/
def tabsAcross : List (Move Bool PageStmt Page) :=
  ((tabsStart.advance false [.ok]).advance true allWell).movesOf false allWell ++
    ((tabsStart.advance false [.ok]).movesOf true allWell ++ (tabsStart.movesOf false [.ok] ++ []))

/-- The login does not stick. -/
theorem login_lost : ¬ ∀ (h : Backend) (requests : Bool → PageRequest) (p : Page)
    (moves : List (Move Bool PageStmt Page)) (c : Config Bool PageStmt Outcome Page Empty Unit),
    History (fun _ _ => False) { state := p, procs := fun i => exchange h (requests i) } moves c →
    LoginSticks moves := by
  intro hevery
  have hhistory : History (fun _ _ => False) tabsStart tabsAcross _ :=
    ((History.advance .start false [.ok]).advance true allWell).advance false allWell
  have hsticks := (hevery plainBackend annasTab deadTab tabsAcross _ hhistory).head?
  have hlast : lastLogin (tabsAcross.map Move.mover) = some { token := (⟨8⟩ : UUID).string, csrf := "csrf" } := by
    decide +kernel
  have hjar : tabsAcross.head?.map (fun m => m.after.jar sessionCookieName) = some none := by decide +kernel
  obtain ⟨m, hm, hgone⟩ := Option.map_eq_some_iff.mp hjar
  have hheld := (hsticks m hm _ hlast).1
  rw [hgone] at hheld
  cases hheld

end Doenerstag
