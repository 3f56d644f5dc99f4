import Doenerstag.Api.ResetOnce

/-!
# A reset that fails (`internal/api/passwordreset.go`)

The password is checked before the token is spent, so that one that is refused costs no link. The token
is spent before the hash is made and stored.

* `AcceptedAt`, `acceptReset_acceptedAt` — a token that a completion is let in with and may spend.
* `FailedResetHarmless` — whatever goes wrong with a reset, its token is accepted until it expires.
* `failedReset_harmless_iff` — **that is so if and only if the body cannot be decoded or the password is
  refused.**
-/

namespace Doenerstag

open ReadCommitted Prog

/-! ## Tokens that are accepted -/

/-- The token is genuine, has not expired and is not spent. -/
def AcceptedAt (signer : ResetSigner) (token : String) (s : AuthServer) : Prop :=
  (∃ userID, signer.parseReset token s.world.now = .ok (userID, signer.identity token)) ∧
    (spendReset (signer.identity token) s.world.now s.spent).1 = false

/-- What others do meanwhile: they do not spend the token, and the clock goes on. -/
def LeavesToken (id : String) (s s' : AuthServer) : Prop :=
  (∀ e, s'.spent id = some e → s.spent id = some e) ∧ s.world.now ≤ s'.world.now

theorem LeavesToken.refl (id : String) (s : AuthServer) : LeavesToken id s s :=
  ⟨fun _ h => h, Int.le_refl _⟩

theorem LeavesToken.trans {id : String} {s₁ s₂ s₃ : AuthServer} (h : LeavesToken id s₁ s₂)
    (h' : LeavesToken id s₂ s₃) : LeavesToken id s₁ s₃ :=
  ⟨fun e he => h.1 e (h'.1 e he), Int.le_trans h.2 h'.2⟩

/-- The token is accepted whenever it has not expired. -/
def StaysAccepted (signer : ResetSigner) (token : String) (s : AuthServer) : Prop :=
  ∀ s', LeavesToken (signer.identity token) s s' →
    (∀ user expires, signer.readReset token = some (user, expires) → s'.world.now < expires) →
      AcceptedAt signer token s'

section Tokens

variable {signer : ResetSigner} {passwords : Passwords} {r : ResetCall} {token password hash : String}
  {s s' : AuthServer}

theorem AcceptedAt.inTime (h : AcceptedAt signer token s) {user : UUID} {expires : Time}
    (hreads : signer.readReset token = some (user, expires)) : s.world.now < expires := by
  obtain ⟨⟨userID, hparse⟩, -⟩ := h
  unfold ResetSigner.parseReset at hparse
  rw [hreads] at hparse
  dsimp only at hparse
  split_ifs at hparse with hexpired
  exact Int.not_le.mp hexpired

theorem AcceptedAt.stays (h : AcceptedAt signer token s) : StaysAccepted signer token s := by
  intro s' hleaves htime
  obtain ⟨⟨userID, hparse⟩, hfresh⟩ := h
  constructor
  · unfold ResetSigner.parseReset at hparse ⊢
    cases hreads : signer.readReset token with
    | none =>
      rw [hreads] at hparse
      cases hparse
    | some found =>
      obtain ⟨user, expires⟩ := found
      exact ⟨user, if_neg (Int.not_le.mpr (htime user expires hreads))⟩
  · by_contra hused
    rw [Bool.not_eq_false, spendReset_used] at hused
    obtain ⟨e, he, hlate⟩ := hused
    have hbefore : (spendReset (signer.identity token) s.world.now s.spent).1 = true :=
      spendReset_used.mpr ⟨e, hleaves.1 e he, Int.lt_of_le_of_lt hleaves.2 hlate⟩
    rw [hbefore] at hfresh
    cases hfresh

theorem ResetHandlers.checkReset_ok {h : ResetHandlers} {now : Time} {userID : UUID} {id : String}
    (hparse : h.parseReset r.token now = .ok (userID, id))
    (hgood : h.passwords.complexity password = none) :
    h.checkReset r password now = h.spendFrom r password userID id := by
  unfold checkReset
  rw [hparse]
  dsimp only
  rw [hgood]

/-- A completion with the token and an acceptable password comes to store it. -/
theorem complete_acceptedAt (h : AcceptedAt signer r.token s) (hbody : r.body = .ok password)
    (hgood : passwords.complexity password = none) (ω : ResetStmt → Outcome) :
    ∃ userID spent, ((signer.handlers passwords).complete r).run ω s =
      ((signer.handlers passwords).storeReset r password userID).run ω { s with spent } := by
  obtain ⟨⟨userID, hparse⟩, hfresh⟩ := h
  refine ⟨userID, (spendReset (signer.identity r.token) s.world.now s.spent).2, ?_⟩
  have hcheck := ResetHandlers.checkReset_ok (h := signer.handlers passwords) (r := r) hparse hgood
  rw [ResetHandlers.complete_eq, hbody, run_step, hcheck, ResetHandlers.spendFrom, run_step,
    ResetHandlers.spendAt, run_step, hfresh, if_neg Bool.false_ne_true]

end Tokens

/-! ## A completion among others -/

abbrev OneReset := ResetConfig Unit

/-- Whatever goes wrong with a reset that changes no password, its token is still accepted until it expires. -/
def FailedResetHarmless (signer : ResetSigner) (passwords : Passwords) (r : ResetCall)
    (s₀ : AuthServer) : Prop :=
  ∀ moves c x, History (LeavesToken (signer.identity r.token))
      (arrivedResets (signer.handlers passwords) (fun _ : Unit => r) s₀) moves c →
    c.procs () = .fail x →
    (∀ m ∈ moves, ∀ l, m.mover = .proc () l → m.after.world.db.appUsers = m.before.world.db.appUsers) →
    StaysAccepted signer r.token c.state

/-- The body cannot be decoded, or its password is refused. -/
def RefusedBody (passwords : Passwords) (r : ResetCall) : Prop :=
  ∀ password, r.body = .ok password → passwords.complexity password ≠ none

section Runs

variable {signer : ResetSigner} {passwords : Passwords} {r : ResetCall} {password hash : String}
  {userID : UUID} {s s₀ : AuthServer}

/-- A completion whose body is refused changes nothing. -/
theorem complete_refused_steps (hrefused : RefusedBody passwords r) :
    ((signer.handlers passwords).complete r).Steps fun _ s s' => s' = s := by
  rw [ResetHandlers.complete_eq]
  cases hbody : r.body with
  | error x => exact steps_fail x
  | ok password =>
    refine steps_step.mpr fun _ s => ⟨rfl, ?_⟩
    obtain ⟨detail, hdetail⟩ := Option.ne_none_iff_exists'.mp (hrefused password hbody)
    unfold ResetHandlers.checkReset
    split
    · exact steps_fail _
    · rw [show (signer.handlers passwords).passwords.complexity password = some detail from hdetail]
      exact steps_fail _

/-- **Every run** of it leaves the token alone. -/
theorem refused_leavesToken {moves : ResetMoves Unit} {c : OneReset} (hrefused : RefusedBody passwords r)
    (hrun : History (LeavesToken (signer.identity r.token))
      (arrivedResets (signer.handlers passwords) (fun _ : Unit => r) s₀) moves c) :
    LeavesToken (signer.identity r.token) s₀ c.state := by
  refine hrun.invariant (J := fun _ s => LeavesToken (signer.identity r.token) s₀ s)
    (C := fun _ => True) (fun _ => complete_refused_steps hrefused) (.refl _ _) ?_ ?_ fun _ _ => trivial
  · intro _ s s' _ _ hleaves hsame _
    rw [hsame]
    exact hleaves
  · intro _ s s' hleaves henv
    exact hleaves.trans henv

/-- The database fails when the password is to be stored: nothing is changed. -/
theorem storeReset_failure (h : ResetHandlers) (userID : UUID) (hhash : h.passwords.hash r.salt password = .ok hash) :
    ∃ effect next, h.storeReset r password userID = .step .update effect next ∧
      ∀ s, effect .failure s = s ∧ next .failure s = .fail (.of codeDatabaseUnavailable) := by
  have hchanges : { UserUpdate.empty with passwordHash := some hash } ≠ UserUpdate.empty := fun hempty =>
    Option.some_ne_none hash (congrArg UserUpdate.passwordHash hempty)
  have hupdate : updateUser ResetStmt.update h.rt userID { UserUpdate.empty with passwordHash := some hash } =
      (returning .update fun _ => Db.updateUser h.rt userID
        { UserUpdate.empty with passwordHash := some hash }).mapError updateUserError := if_neg hchanges
  have hstore : h.storeReset r password userID = (do
      let _ ← (onDb (updateUser .update h.rt userID
        { UserUpdate.empty with passwordHash := some hash })).mapError storePasswordError
      let _ ← (onDb (deleteSessionsForUser (.delete userID) userID)).succeeds) := by
    unfold ResetHandlers.storeReset
    rw [hhash]
    rfl
  rw [hstore, hupdate]
  exact ⟨_, _, rfl, fun s => ⟨rfl, rfl⟩⟩

theorem storeReset_noHash {h : ResetHandlers} {x : Unit}
    (hhash : h.passwords.hash r.salt password = .error x) :
    h.storeReset r password userID = .fail (.of codeInternal) := by
  unfold ResetHandlers.storeReset
  rw [hhash]
  rfl

/-- A token that was spent is not accepted. -/
theorem AcceptedAt.spend (h : AcceptedAt signer r.token s) : ¬ AcceptedAt signer r.token
    { s with spent := (spendReset (signer.identity r.token) s.world.now s.spent).2 } := by
  rintro ⟨-, hfresh⟩
  have hused : (spendReset (signer.identity r.token) s.world.now
      (spendReset (signer.identity r.token) s.world.now s.spent).2).1 = true :=
    spendReset_used.mpr ⟨_, (spendReset_fresh h.2).1, Int.lt_add_of_pos_right _ (by decide)⟩
  exact absurd (hused.symm.trans hfresh) (by decide)

/-- **A run that burns the token**: the password is acceptable, and is not stored. -/
theorem failed_burns (haccepted : AcceptedAt signer r.token s₀) (hbody : r.body = .ok password)
    (hgood : passwords.complexity password = none) :
    ∃ moves c x, History (LeavesToken (signer.identity r.token))
        (arrivedResets (signer.handlers passwords) (fun _ : Unit => r) s₀) moves c ∧
      c.procs () = .fail x ∧ (∀ m ∈ moves, m.after.world = m.before.world) ∧
      c.state.world = s₀.world ∧ ¬ AcceptedAt signer r.token c.state := by
  have hburnt := haccepted.spend
  obtain ⟨⟨userID, hparse⟩, hfresh⟩ := haccepted
  have hcheck := ResetHandlers.checkReset_ok (h := signer.handlers passwords) (r := r) hparse hgood
  have hcomplete := ResetHandlers.complete_eq (signer.handlers passwords) r
  rw [hbody] at hcomplete
  have hstart : History (LeavesToken (signer.identity r.token))
      (arrivedResets (signer.handlers passwords) (fun _ : Unit => r) s₀) []
      (arrivedResets (signer.handlers passwords) (fun _ : Unit => r) s₀) := .start
  have hread := hstart.exec_alone hcomplete .ok
  have hspend := (hread.exec_alone (hcheck.trans rfl) .ok).exec_alone rfl .ok
  rw [hfresh, if_neg Bool.false_ne_true] at hspend
  cases hhash : passwords.hash r.salt password with
  | error x =>
    refine ⟨_, _, _, hspend, storeReset_noHash hhash, ?_, rfl, hburnt⟩
    simp
  | ok hash =>
    obtain ⟨effect, next, hstore, hfails⟩ :=
      storeReset_failure (signer.handlers passwords) userID hhash
    refine ⟨_, _, _, hspend.exec_alone hstore .failure, (hfails _).2, ?_, ?_⟩
    · simp [(hfails _).1]
    · rw [(hfails _).1]
      exact ⟨rfl, hburnt⟩

theorem not_harmless (haccepted : AcceptedAt signer r.token s₀) (hbody : r.body = .ok password)
    (hgood : passwords.complexity password = none) : ¬ FailedResetHarmless signer passwords r s₀ := by
  intro hharmless
  obtain ⟨moves, c, x, hrun, hfail, hunchanged, hworld, hburnt⟩ := failed_burns haccepted hbody hgood
  refine hburnt (hharmless moves c x hrun hfail (fun m hm _ _ => ?_) c.state (.refl _ _) ?_)
  · rw [hunchanged m hm]
  · intro user expires hreads
    rw [hworld]
    exact haccepted.inTime hreads

end Runs

/-- **A failed reset is harmless if and only if** its body is refused. Otherwise the token is spent before
what may fail. -/
theorem failedReset_harmless_iff {signer : ResetSigner} {passwords : Passwords} {r : ResetCall}
    {s₀ : AuthServer} (haccepted : AcceptedAt signer r.token s₀) :
    FailedResetHarmless signer passwords r s₀ ↔ RefusedBody passwords r := by
  constructor
  · intro hharmless password hbody hgood
    exact not_harmless haccepted hbody hgood hharmless
  · intro hrefused moves c x hrun _ _ s' hleaves htime
    exact haccepted.stays s' ((refused_leavesToken hrefused hrun).trans hleaves) htime

/-! ## Anna's reset fails -/

/-- Her link is accepted in the first second. -/
theorem annasReset_accepted : AcceptedAt plainResetSigner annasReset.token annasServer := by
  refine ⟨⟨⟨1⟩, ?_⟩, ?_⟩ <;> decide +kernel

/-- A body that cannot be decoded costs no link. -/
theorem failedReset_harmless_anna : FailedResetHarmless plainResetSigner plainPasswords
    { annasReset with body := .error (.of codeInvalidField) } annasServer :=
  (failedReset_harmless_iff (r := { annasReset with body := .error (.of codeInvalidField) })
    annasReset_accepted).mpr fun _ hbody => nomatch hbody

/-- The database fails when her password is to be stored. Nothing is stored, and the link is spent. -/
theorem failedReset_burns_anna :
    AcceptedAt plainResetSigner annasReset.token annasServer ∧
      ¬ FailedResetHarmless plainResetSigner plainPasswords annasReset annasServer :=
  ⟨annasReset_accepted, not_harmless annasReset_accepted rfl rfl⟩

end Doenerstag
