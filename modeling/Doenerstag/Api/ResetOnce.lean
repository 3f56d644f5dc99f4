import Doenerstag.Api.ResetTokens
import Doenerstag.Lib.Interleaving

/-!
# A reset token works once (`internal/api/passwordreset.go`)

A used token is remembered for an hour from the reading of the clock that spent it, and forgotten by
the first completion whose own reading comes after that. The expiry of the token is judged by another
reading, before the password is looked at.

* `complete_eq`, `checkReset`, `spendFrom`, `spendAt`, `storeReset` — `complete`, cut at its steps.
* `ResetStage` — how far a completion has come; `ResetInv` — **the invariant of every run.**
* `reset_once` — **at most one completion with a token stores a password, if no token is forgotten
  while it can still be spent.**
* `reset_twice` — a completion is slow, and its token was forgotten in the meantime.
-/

namespace Doenerstag

open ReadCommitted Prog

/-- The handlers with the tokens of a signer. -/
def ResetSigner.handlers (signer : ResetSigner) (passwords : Passwords) : ResetHandlers :=
  { rt := signer.rt, parseReset := signer.parseReset, passwords }

/-! ## `complete`, cut at its steps -/

namespace ResetHandlers

variable (h : ResetHandlers) (r : ResetCall)

/-- Once the token is spent. -/
def storeReset (password : String) (userID : UUID) : AuthHandler ResetStmt Unit := do
  let hash ← .ofExcept ((h.passwords.hash r.salt password).mapError fun _ => .of codeInternal)
  let _ ← (onDb (updateUser .update h.rt userID
    { UserUpdate.empty with passwordHash := some hash })).mapError storePasswordError
  let _ ← (onDb (deleteSessionsForUser (.delete userID) userID)).succeeds

/-- `Spend`, at the instant that was read for it. -/
def spendAt (password : String) (userID : UUID) (id : String) (now : Time) :
    AuthHandler ResetStmt Unit :=
  .step .spend (fun _ s => { s with spent := (spendReset id now s.spent).2 }) fun _ s =>
    if (spendReset id now s.spent).1 then .fail (.of codeResetInvalid)
    else h.storeReset r password userID

/-- The reading for `Spend`. -/
def spendFrom (password : String) (userID : UUID) (id : String) : AuthHandler ResetStmt Unit :=
  .step .spendNow (fun _ s => s) fun _ s => h.spendAt r password userID id s.world.now

/-- The token and the password, at the first reading. -/
def checkReset (password : String) (now : Time) : AuthHandler ResetStmt Unit :=
  match h.parseReset r.token now with
  | .error x => .fail (parseResetError x)
  | .ok (userID, id) =>
    match h.passwords.complexity password with
    | some detail => .fail { code := codePasswordTooWeak, field := "password", detail }
    | none => h.spendFrom r password userID id

theorem complete_eq : h.complete r =
    match r.body with
    | .error x => .fail x
    | .ok password => .step .now (fun _ s => s) fun _ s => h.checkReset r password s.world.now := by
  unfold complete acceptReset
  cases r.body with
  | error x => rfl
  | ok password =>
    show Prog.step ResetStmt.now _ _ = Prog.step _ _ _
    congr 1
    funext e s
    unfold checkReset
    show ((Prog.ofExcept ((h.parseReset r.token s.world.now).mapError parseResetError) >>= _) >>= _ :
      AuthHandler ResetStmt Unit) = _
    cases h.parseReset r.token s.world.now with
    | error x => rfl
    | ok found =>
      obtain ⟨userID, id⟩ := found
      show ((match h.passwords.complexity password with
        | some detail => _
        | none => _ : AuthHandler ResetStmt (UUID × String)) >>= _) = _
      cases h.passwords.complexity password with
      | some detail => rfl
      | none =>
        show Prog.step ResetStmt.spendNow _ _ = Prog.step _ _ _
        congr 1
        funext e s
        show Prog.step ResetStmt.spend _ _ = Prog.step _ _ _
        congr 1
        funext e s'
        dsimp only
        cases (spendReset id s.world.now s'.spent).1 with
        | true => rfl
        | false =>
          unfold storeReset
          cases h.passwords.hash r.salt password <;> rfl

end ResetHandlers

/-! ## Runs -/

/-- Any number of completions, in a server that goes on. -/
def arrivedResets {ι : Type} (h : ResetHandlers) (calls : ι → ResetCall) (s₀ : AuthServer) :
    Config ι ResetStmt Outcome AuthServer ApiError Unit :=
  { state := s₀, procs := fun i => h.complete (calls i) }

/-- What others do: the clock goes on, and only completions spend tokens. -/
def ServerGoesOn (s s' : AuthServer) : Prop := s'.spent = s.spent ∧ s.world.now ≤ s'.world.now

abbrev ResetConfig (ι : Type) := Config ι ResetStmt Outcome AuthServer ApiError Unit

abbrev ResetMoves (ι : Type) := List (Move ι ResetStmt AuthServer)

/-- What a completion has read for `Spend`. -/
def readAt {ι : Type} [DecidableEq ι] (i : ι) : ResetMoves ι → Option Time
  | [] => none
  | m :: earlier =>
    match m.mover with
    | .proc j .spendNow => if j = i then some m.before.world.now else readAt i earlier
    | _ => readAt i earlier

/-- **No token is forgotten that can still be spent**: when the reading of a `Spend` has come to the
moment at which a used token is forgotten, that token has expired, and no completion is left that was
let in with it and has not spent it. -/
def ForgetsInTime {ι : Type} [DecidableEq ι] (signer : ResetSigner) (calls : ι → ResetCall)
    (moves : ResetMoves ι) (c : ResetConfig ι)
    (m : Mover ι ResetStmt) : Prop :=
  ∀ i t, m = .proc i .spend → readAt i moves = some t →
    ∀ j e, c.state.spent (signer.identity (calls j).token) = some e → e ≤ t →
      (∀ user expires, signer.readReset (calls j).token = some (user, expires) →
        expires ≤ c.state.world.now) ∧
      c.waits j ≠ some .spendNow ∧ c.waits j ≠ some .spend

section Runs

variable {ι : Type} [DecidableEq ι] {signer : ResetSigner} {passwords : Passwords}
  {calls : ι → ResetCall}

/-! ## How far a completion has come -/

/-- The completion was let in before its token expired. -/
def LetIn (signer : ResetSigner) (calls : ι → ResetCall) (i : ι) (moves : ResetMoves ι) : Prop :=
  ∃ m ∈ moves, m.mover = .proc i .now ∧ ∃ user expires,
    signer.readReset (calls i).token = some (user, expires) ∧ m.before.world.now < expires

/-- The completion has spent its token. -/
def Spent (signer : ResetSigner) (calls : ι → ResetCall) (i : ι) (moves : ResetMoves ι) : Prop :=
  ∃ m ∈ moves, m.mover = .proc i .spend ∧
    m.after.spent (signer.identity (calls i).token) ≠ m.before.spent (signer.identity (calls i).token)

/-- A statement once the token is spent. -/
def StoreStep (l : ResetStmt) (s s' : AuthServer) : Prop :=
  (l = .update ∨ ∃ u, l = .delete u) ∧ s'.spent = s.spent ∧ s'.world.now = s.world.now

/-- How far a completion has come. -/
inductive ResetStage (signer : ResetSigner) (passwords : Passwords) (calls : ι → ResetCall)
    (moves : ResetMoves ι) (i : ι) : AuthHandler ResetStmt Unit → Prop where
  | arrived : ResetStage signer passwords calls moves i
      ((signer.handlers passwords).complete (calls i))
  | letIn {password : String} {userID : UUID} (letIn : LetIn signer calls i moves) :
      ResetStage signer passwords calls moves i ((signer.handlers passwords).spendFrom (calls i)
        password userID (signer.identity (calls i).token))
  | read {password : String} {userID : UUID} {t : Time} (letIn : LetIn signer calls i moves)
      (read : readAt i moves = some t) :
      ResetStage signer passwords calls moves i ((signer.handlers passwords).spendAt (calls i)
        password userID (signer.identity (calls i).token) t)
  | spent {p : AuthHandler ResetStmt Unit} (steps : p.Steps StoreStep)
      (letIn : LetIn signer calls i moves) (spent : Spent signer calls i moves) :
      ResetStage signer passwords calls moves i p
  | refused (x : ApiError) : ResetStage signer passwords calls moves i (.fail x)

/-! ## One step -/

/-- What a completion does in one step, and what is left of it. -/
inductive ResetMove (signer : ResetSigner) (passwords : Passwords) (calls : ι → ResetCall)
    (moves : ResetMoves ι) (i : ι) (s : AuthServer) :
    ResetStmt → AuthServer → AuthHandler ResetStmt Unit → Prop where
  | turnedAway (x : ApiError) : ResetMove signer passwords calls moves i s .now s (.fail x)
  | letIn {password : String} {userID user : UUID} {expires : Time}
      (reads : signer.readReset (calls i).token = some (user, expires))
      (inTime : s.world.now < expires) :
      ResetMove signer passwords calls moves i s .now s ((signer.handlers passwords).spendFrom
        (calls i) password userID (signer.identity (calls i).token))
  | read {password : String} {userID : UUID} (letIn : LetIn signer calls i moves) :
      ResetMove signer passwords calls moves i s .spendNow s ((signer.handlers passwords).spendAt
        (calls i) password userID (signer.identity (calls i).token) s.world.now)
  | used {t : Time} (read : readAt i moves = some t) {x : ApiError}
      (used : (spendReset (signer.identity (calls i).token) t s.spent).1 = true) :
      ResetMove signer passwords calls moves i s .spend
        { s with spent := (spendReset (signer.identity (calls i).token) t s.spent).2 } (.fail x)
  | spends {t : Time} {p : AuthHandler ResetStmt Unit} (letIn : LetIn signer calls i moves)
      (read : readAt i moves = some t)
      (fresh : (spendReset (signer.identity (calls i).token) t s.spent).1 = false)
      (steps : p.Steps StoreStep) :
      ResetMove signer passwords calls moves i s .spend
        { s with spent := (spendReset (signer.identity (calls i).token) t s.spent).2 } p
  | stores {l : ResetStmt} {s' : AuthServer} {p : AuthHandler ResetStmt Unit}
      (store : StoreStep l s s') (steps : p.Steps StoreStep) (letIn : LetIn signer calls i moves)
      (spent : Spent signer calls i moves) : ResetMove signer passwords calls moves i s l s' p

theorem onDb_storeStep {χ α : Type} {p : Program ResetStmt Db Time χ α}
    (hp : p.Steps fun l w w' => (l = .update ∨ ∃ u, l = .delete u) ∧ w'.now = w.now) :
    (onDb p).Steps StoreStep :=
  .onPart hp fun _ _ _ h => ⟨h.1, rfl, h.2⟩

/-- The two statements of `complete` store something, and leave the clock and the table of spent
tokens alone. -/
theorem storeReset_steps (h : ResetHandlers) (r : ResetCall) (password : String) (userID : UUID) :
    (h.storeReset r password userID).Steps StoreStep := by
  unfold ResetHandlers.storeReset
  refine .bind (.ofExcept _) fun hash => .bind (.mapError (onDb_storeStep ?_) _) fun _ =>
    .bind (.succeeds (onDb_storeStep ?_)) fun _ => steps_done ()
  · unfold updateUser
    split_ifs
    · exact .mapError (read_steps fun _ => ⟨.inl rfl, rfl⟩) _
    · exact .mapError (write_steps fun _ _ => ⟨.inl rfl, World.after_now _ _⟩) _
  · refine .bind (.mapError (write_steps fun _ _ => ⟨.inr ⟨userID, rfl⟩, World.after_now _ _⟩) _)
      fun _ => steps_done ()

/-- **One step of a completion.** -/
theorem ResetStage.move {moves : ResetMoves ι} {i : ι} {p : AuthHandler ResetStmt Unit}
    (h : ResetStage signer passwords calls moves i p) {l : ResetStmt}
    {effect : Outcome → AuthServer → AuthServer}
    {next : Outcome → AuthServer → AuthHandler ResetStmt Unit} (hat : p = .step l effect next)
    (e : Outcome) (s : AuthServer) :
    ResetMove signer passwords calls moves i s l (effect e s) (next e s) := by
  cases h with
  | arrived =>
    rw [ResetHandlers.complete_eq] at hat
    cases hbody : (calls i).body with
    | error x =>
      rw [hbody] at hat
      cases hat
    | ok password =>
      rw [hbody] at hat
      cases hat
      show ResetMove signer passwords calls moves i s .now s
        ((signer.handlers passwords).checkReset (calls i) password s.world.now)
      unfold ResetHandlers.checkReset
      show ResetMove signer passwords calls moves i s .now s
        (match signer.parseReset (calls i).token s.world.now with
          | .error x => .fail (parseResetError x)
          | .ok (userID, id) => _)
      unfold ResetSigner.parseReset
      cases hreads : signer.readReset (calls i).token with
      | none => exact .turnedAway _
      | some found =>
        obtain ⟨user, expires⟩ := found
        by_cases hexpired : expires ≤ s.world.now
        · simp only [if_pos hexpired]
          exact .turnedAway _
        · simp only [if_neg hexpired]
          cases (signer.handlers passwords).passwords.complexity password with
          | some detail => exact .turnedAway _
          | none => exact .letIn hreads (Int.not_le.mp hexpired)
  | letIn hletIn =>
    unfold ResetHandlers.spendFrom at hat
    cases hat
    exact .read hletIn
  | @read password userID t hletIn hread =>
    unfold ResetHandlers.spendAt at hat
    cases hat
    cases hused : (spendReset (signer.identity (calls i).token) t s.spent).1 with
    | true =>
      dsimp only
      rw [if_pos hused]
      exact .used hread hused
    | false =>
      dsimp only
      rw [if_neg (by rw [hused]; exact Bool.false_ne_true)]
      exact .spends hletIn hread hused (storeReset_steps _ _ _ _)
  | spent hsteps hletIn hspent =>
    subst hat
    obtain ⟨hstore, hrest⟩ := steps_step.mp hsteps e s
    exact .stores hstore hrest hletIn hspent
  | refused x => cases hat

/-! ## The table of spent tokens -/

section Table

variable {id key : String} {t e : Time} {spent : String → Option Time}

/-- An entry whose time has not come is kept. -/
theorem spendReset_keeps (h : spent key = some e) (hte : t < e) :
    (spendReset id t spent).2 key = some e := by
  have hkept : (spent key).filter (fun expires => t < expires) = some e := by
    rw [h, Option.filter_some, if_pos (decide_eq_true hte)]
  unfold spendReset
  dsimp only
  split_ifs with hused
  · exact hkept
  · by_cases hkey : key = id
    · subst hkey
      rw [hkept] at hused
      exact absurd rfl hused
    · dsimp only
      rw [Function.update_of_ne hkey]
      exact hkept

/-- A token is used when its entry is there and its time has not come. -/
theorem spendReset_used : (spendReset id t spent).1 = true ↔ ∃ e, spent id = some e ∧ t < e := by
  unfold spendReset
  dsimp only
  split_ifs with hused
  · obtain ⟨e, he⟩ := Option.isSome_iff_exists.mp hused
    obtain ⟨he, hte⟩ := Option.filter_eq_some_iff.mp he
    exact iff_of_true rfl ⟨e, he, of_decide_eq_true hte⟩
  · refine iff_of_false not_false ?_
    rintro ⟨e, he, hte⟩
    rw [he, Option.filter_some, if_pos (decide_eq_true hte)] at hused
    exact hused rfl

/-- A token that is not used gets an entry of its own. -/
theorem spendReset_fresh (h : (spendReset id t spent).1 = false) :
    (spendReset id t spent).2 id = some (t + resetLifetime) ∧
      spent id ≠ some (t + resetLifetime) := by
  have hlifetime : t < t + resetLifetime := Int.lt_add_of_pos_right t (by decide)
  constructor
  · unfold spendReset at h ⊢
    dsimp only at h ⊢
    split_ifs at h ⊢ with hused
    dsimp only
    rw [Function.update_self]
  · intro hentry
    rw [spendReset_used.mpr ⟨_, hentry, hlifetime⟩] at h
    cases h

end Table

/-! ## The invariant -/

/-- A used token is remembered, or nobody can spend it any more. -/
def Known (signer : ResetSigner) (calls : ι → ResetCall)
    (c : ResetConfig ι) (token : String) : Prop :=
  (∃ e, c.state.spent (signer.identity token) = some e) ∨
    (∀ user expires, signer.readReset token = some (user, expires) →
      expires ≤ c.state.world.now) ∧
      ∀ j, (calls j).token = token → c.waits j ≠ some .spendNow ∧ c.waits j ≠ some .spend

/-- **The invariant**: how far each completion has come, and that no token is spent twice. -/
structure ResetInv (signer : ResetSigner) (passwords : Passwords) (calls : ι → ResetCall)
    (moves : ResetMoves ι) (c : ResetConfig ι) : Prop where
  stage : ∀ i, ResetStage signer passwords calls moves i (c.procs i)
  stored : ∀ m ∈ moves, ∀ i, m.mover = .proc i .update →
    LetIn signer calls i moves ∧ Spent signer calls i moves
  once : ∀ i j, Spent signer calls i moves → Spent signer calls j moves →
    (calls i).token = (calls j).token → i = j
  known : ∀ i, Spent signer calls i moves → Known signer calls c (calls i).token

section Moves

variable {moves : ResetMoves ι} {m : Move ι ResetStmt AuthServer} {i j : ι}

omit [DecidableEq ι] in
theorem LetIn.later (h : LetIn signer calls i moves) : LetIn signer calls i (m :: moves) := by
  obtain ⟨m', hm', hrest⟩ := h
  exact ⟨m', List.mem_cons_of_mem _ hm', hrest⟩

omit [DecidableEq ι] in
theorem spent_cons : Spent signer calls i (m :: moves) ↔
    (m.mover = .proc i .spend ∧ m.after.spent (signer.identity (calls i).token) ≠
      m.before.spent (signer.identity (calls i).token)) ∨ Spent signer calls i moves := by
  constructor
  · rintro ⟨m', hm', hrest⟩
    rcases List.mem_cons.mp hm' with rfl | hm'
    · exact .inl hrest
    · exact .inr ⟨m', hm', hrest⟩
  · rintro (hrest | ⟨m', hm', hrest⟩)
    · exact ⟨m, List.mem_cons_self, hrest⟩
    · exact ⟨m', List.mem_cons_of_mem _ hm', hrest⟩

theorem readAt_cons_of_ne (h : m.mover ≠ .proc i .spendNow) :
    readAt i (m :: moves) = readAt i moves := by
  conv_lhs => unfold readAt
  split
  · rename_i j hmover
    have hj : j ≠ i := fun heq => h (heq ▸ hmover)
    exact if_neg hj
  · rfl

/-- A completion stays where it is while others move. -/
theorem ResetStage.others {p : AuthHandler ResetStmt Unit}
    (h : ResetStage signer passwords calls moves i p) (hm : m.mover ≠ .proc i .spendNow) :
    ResetStage signer passwords calls (m :: moves) i p := by
  cases h with
  | arrived => exact .arrived
  | letIn hletIn => exact .letIn hletIn.later
  | read hletIn hread => exact .read hletIn.later ((readAt_cons_of_ne hm).trans hread)
  | spent hsteps hletIn hspent => exact .spent hsteps hletIn.later (spent_cons.mpr (.inr hspent))
  | refused x => exact .refused x

/-- Where a completion is after its step. -/
theorem ResetMove.stage {s s' : AuthServer} {l : ResetStmt} {p : AuthHandler ResetStmt Unit}
    (h : ResetMove signer passwords calls moves i s l s' p) :
    ResetStage signer passwords calls (⟨.proc i l, s, s'⟩ :: moves) i p := by
  cases h with
  | turnedAway x => exact .refused x
  | letIn hreads htime => exact .letIn ⟨_, List.mem_cons_self, rfl, _, _, hreads, htime⟩
  | read hletIn =>
    refine .read hletIn.later ?_
    unfold readAt
    exact if_pos rfl
  | used hread hused => exact .refused _
  | spends hletIn hread hfresh hsteps =>
    obtain ⟨hentry, hold⟩ := spendReset_fresh hfresh
    refine .spent hsteps hletIn.later (spent_cons.mpr (.inl ⟨rfl, ?_⟩))
    show (spendReset _ _ _).2 _ ≠ _
    rw [hentry]
    exact hold.symm
  | stores hstore hsteps hletIn hspent =>
    exact .spent hsteps hletIn.later (spent_cons.mpr (.inr hspent))

/-- What is left of a completion that has spent its token does not spend it again. -/
theorem storing_waits {p : AuthHandler ResetStmt Unit} (h : p.Steps StoreStep) (s : AuthServer) :
    p.waitsAt ≠ some .spendNow ∧ p.waitsAt ≠ some .spend := by
  cases p with
  | done a => exact ⟨nofun, nofun⟩
  | fail x => exact ⟨nofun, nofun⟩
  | step l effect next =>
    rcases (steps_step.mp h .ok s).1.1 with rfl | ⟨u, rfl⟩
    · exact ⟨nofun, nofun⟩
    · exact ⟨nofun, nofun⟩

end Moves

section Steps

variable {moves : ResetMoves ι} {c : ResetConfig ι} {i j k : ι} {l : ResetStmt} {s' : AuthServer}
  {p : AuthHandler ResetStmt Unit}

/-- A token that nobody can spend stays one, when no completion is let in with it. -/
theorem Known.stays {token : String} (h : Known signer calls c token)
    (hspent : s'.spent = c.state.spent) (hnow : c.state.world.now ≤ s'.world.now)
    (hwaits : (calls i).token = token →
      (c.waits i ≠ some .spendNow ∧ c.waits i ≠ some .spend →
        (∀ user expires, signer.readReset token = some (user, expires) →
          expires ≤ c.state.world.now) → p.waitsAt ≠ some .spendNow ∧ p.waitsAt ≠ some .spend)) :
    Known signer calls { state := s', procs := Function.update c.procs i p } token := by
  rcases h with ⟨e, he⟩ | ⟨hexpired, hnobody⟩
  · exact .inl ⟨e, (congrFun hspent _).trans he⟩
  · refine .inr ⟨fun user expires hreads => Int.le_trans (hexpired user expires hreads) hnow,
      fun j hj => ?_⟩
    by_cases hji : j = i
    · subst hji
      show (Function.update c.procs j p j).waitsAt ≠ _ ∧ (Function.update c.procs j p j).waitsAt ≠ _
      rw [Function.update_self]
      exact hwaits hj (hnobody j hj) hexpired
    · show (Function.update c.procs i p j).waitsAt ≠ _ ∧ (Function.update c.procs i p j).waitsAt ≠ _
      rw [Function.update_of_ne hji]
      exact hnobody j hj

/-- After a `Spend` that forgets no token too early. -/
theorem Known.spend {t : Time} (h : Known signer calls c (calls k).token)
    (hread : readAt i moves = some t) (htime : ForgetsInTime signer calls moves c (.proc i .spend))
    (hp : p.waitsAt ≠ some .spendNow ∧ p.waitsAt ≠ some .spend) :
    Known signer calls
      { state := { c.state with
          spent := (spendReset (signer.identity (calls i).token) t c.state.spent).2 }
        procs := Function.update c.procs i p } (calls k).token := by
  have hnobody : (∀ j, (calls j).token = (calls k).token →
      c.waits j ≠ some .spendNow ∧ c.waits j ≠ some .spend) → ∀ j, (calls j).token = (calls k).token →
        (Function.update c.procs i p j).waitsAt ≠ some .spendNow ∧
          (Function.update c.procs i p j).waitsAt ≠ some .spend := by
    intro hnone j hj
    by_cases hji : j = i
    · rw [hji, Function.update_self]
      exact hp
    · rw [Function.update_of_ne hji]
      exact hnone j hj
  rcases h with ⟨e, he⟩ | ⟨hexpired, hnone⟩
  · by_cases hte : t < e
    · exact .inl ⟨e, spendReset_keeps he hte⟩
    · -- it is forgotten now, and can no longer be spent
      have hforgotten := htime i t rfl hread
      refine .inr ⟨(hforgotten k e he (Int.not_lt.mp hte)).1, hnobody fun j hj => ?_⟩
      exact (hforgotten j e (by rw [hj]; exact he) (Int.not_lt.mp hte)).2
  · exact .inr ⟨hexpired, hnobody hnone⟩

/-- **A token that is known stays known.** -/
theorem ResetMove.known (h : ResetMove signer passwords calls moves i c.state l s' p)
    (hat : c.waits i = some l) (htime : ForgetsInTime signer calls moves c (.proc i l))
    (hknown : Known signer calls c (calls k).token) :
    Known signer calls { state := s', procs := Function.update c.procs i p } (calls k).token := by
  cases h with
  | turnedAway x => exact hknown.stays rfl (Int.le_refl _) fun _ _ _ => ⟨nofun, nofun⟩
  | letIn hreads hearly =>
    refine hknown.stays rfl (Int.le_refl _) fun htoken _ hexpired => ?_
    exact absurd hearly (Int.not_lt.mpr (hexpired _ _ (htoken ▸ hreads)))
  | read hletIn =>
    refine hknown.stays rfl (Int.le_refl _) fun _ hwaits _ => ?_
    exact absurd hat hwaits.1
  | used hread hused => exact hknown.spend hread htime ⟨nofun, nofun⟩
  | spends hletIn hread hfresh hsteps =>
    exact hknown.spend hread htime (storing_waits hsteps c.state)
  | stores hstore hsteps hletIn hspent =>
    exact hknown.stays hstore.2.1 (Int.le_of_eq hstore.2.2.symm) fun _ _ _ =>
      storing_waits hsteps c.state

/-- **Who spends a token is the first.** -/
theorem ResetMove.first (h : ResetMove signer passwords calls moves i c.state l s' p)
    (hat : c.waits i = some l) (htime : ForgetsInTime signer calls moves c (.proc i l))
    (hl : l = .spend) (hspends : s'.spent (signer.identity (calls i).token) ≠
      c.state.spent (signer.identity (calls i).token)) :
    ¬ Known signer calls c (calls i).token := by
  have hused : ∀ {t}, readAt i moves = some t → Known signer calls c (calls i).token →
      ∃ e, c.state.spent (signer.identity (calls i).token) = some e ∧ t < e := by
    intro t hread hknown
    rcases hknown with ⟨e, he⟩ | ⟨-, hnobody⟩
    · refine ⟨e, he, Int.not_le.mp fun hle => ?_⟩
      exact (htime i t (congrArg _ hl) hread i e he hle).2.2 (hl ▸ hat)
    · exact absurd (hl ▸ hat) (hnobody i rfl).2
  intro hknown
  cases h with
  | turnedAway x => cases hl
  | letIn hreads hearly => cases hl
  | read hletIn => cases hl
  | used hread _ =>
    obtain ⟨e, he, hte⟩ := hused hread hknown
    exact hspends ((spendReset_keeps he hte).trans he.symm)
  | spends hletIn hread hfresh hsteps =>
    obtain ⟨e, he, hte⟩ := hused hread hknown
    rw [spendReset_used.mpr ⟨e, he, hte⟩] at hfresh
    cases hfresh
  | stores hstore hsteps hletIn hspent =>
    rcases hstore.1 with rfl | ⟨u, rfl⟩
    · cases hl
    · cases hl

/-- **One move of a completion** keeps the invariant. -/
theorem ResetInv.exec (h : ResetInv signer passwords calls moves c)
    (hmove : ResetMove signer passwords calls moves i c.state l s' p)
    (hat : c.waits i = some l) (htime : ForgetsInTime signer calls moves c (.proc i l)) :
    ResetInv signer passwords calls (⟨.proc i l, c.state, s'⟩ :: moves)
      { state := s', procs := Function.update c.procs i p } := by
  -- who has spent a token had done so before, or does so now
  have hspent : ∀ j, Spent signer calls j (⟨.proc i l, c.state, s'⟩ :: moves) →
      Spent signer calls j moves ∨ j = i ∧ l = .spend ∧
        s'.spent (signer.identity (calls i).token) ≠
          c.state.spent (signer.identity (calls i).token) := by
    intro j hj
    rcases spent_cons.mp hj with ⟨hmover, hchanged⟩ | hj
    · cases hmover
      exact .inr ⟨rfl, rfl, hchanged⟩
    · exact .inl hj
  refine ⟨fun j => ?_, ?_, ?_, ?_⟩
  · by_cases hji : j = i
    · subst hji
      show ResetStage signer passwords calls _ j (Function.update c.procs j p j)
      rw [Function.update_self]
      exact hmove.stage
    · show ResetStage signer passwords calls _ j (Function.update c.procs i p j)
      rw [Function.update_of_ne hji]
      refine (h.stage j).others fun hmover => ?_
      cases hmover
      exact hji rfl
  · intro m hm j hmover
    rcases List.mem_cons.mp hm with rfl | hm
    · cases hmover
      cases hmove with
      | stores hstore hsteps hletIn hstored =>
        exact ⟨hletIn.later, spent_cons.mpr (.inr hstored)⟩
    · obtain ⟨hletIn, hstored⟩ := h.stored m hm j hmover
      exact ⟨hletIn.later, spent_cons.mpr (.inr hstored)⟩
  · intro j j' hj hj' htoken
    rcases hspent j hj with hold | ⟨rfl, hl, hnew⟩
    · rcases hspent j' hj' with hold' | ⟨rfl, hl, hnew⟩
      · exact h.once j j' hold hold' htoken
      · exact absurd (htoken ▸ h.known j hold) (hmove.first hat htime hl hnew)
    · rcases hspent j' hj' with hold' | ⟨rfl, -, -⟩
      · exact absurd (htoken ▸ h.known j' hold') (hmove.first hat htime hl hnew)
      · rfl
  · intro j hj
    rcases hspent j hj with hold | ⟨rfl, hl, hnew⟩
    · exact hmove.known hat htime (h.known j hold)
    · subst hl
      cases hmove with
      | used hread hused =>
        obtain ⟨e, he, hte⟩ := spendReset_used.mp hused
        exact absurd ((spendReset_keeps he hte).trans he.symm) hnew
      | spends hletIn hread hfresh hsteps => exact .inl ⟨_, (spendReset_fresh hfresh).1⟩
      | stores hstore _ _ _ =>
        rcases hstore.1 with hl | ⟨u, hl⟩
        · cases hl
        · cases hl

/-- **What others do** keeps the invariant. -/
theorem ResetInv.env (h : ResetInv signer passwords calls moves c)
    (henv : ServerGoesOn c.state s') :
    ResetInv signer passwords calls (⟨.env, c.state, s'⟩ :: moves) { c with state := s' } := by
  have hspent : ∀ j, Spent signer calls j (⟨.env, c.state, s'⟩ :: moves) →
      Spent signer calls j moves := by
    intro j hj
    rcases spent_cons.mp hj with ⟨hmover, -⟩ | hj
    · cases hmover
    · exact hj
  refine ⟨fun j => (h.stage j).others fun hmover => (by cases hmover), ?_, ?_, ?_⟩
  · intro m hm j hmover
    rcases List.mem_cons.mp hm with rfl | hm
    · cases hmover
    · obtain ⟨hletIn, hstored⟩ := h.stored m hm j hmover
      exact ⟨hletIn.later, spent_cons.mpr (.inr hstored)⟩
  · exact fun j j' hj hj' => h.once j j' (hspent j hj) (hspent j' hj')
  · intro j hj
    rcases h.known j (hspent j hj) with ⟨e, he⟩ | ⟨hexpired, hnobody⟩
    · exact .inl ⟨e, (congrFun henv.1 _).trans he⟩
    · exact .inr ⟨fun user expires hreads => Int.le_trans (hexpired user expires hreads) henv.2,
        hnobody⟩

end Steps

end Runs

/-- **Every run** in which no token is forgotten too early keeps the invariant. -/
theorem resetInv_run {ι : Type} [DecidableEq ι] {signer : ResetSigner} {passwords : Passwords}
    {calls : ι → ResetCall} {s₀ : AuthServer} {moves : ResetMoves ι} {c : ResetConfig ι}
    (hrun : HistoryWhen ServerGoesOn (ForgetsInTime signer calls)
      (arrivedResets (signer.handlers passwords) calls s₀) moves c) :
    ResetInv signer passwords calls moves c := by
  induction hrun with
  | start =>
    have hnone : ∀ i, ¬ Spent signer calls i [] := fun i ⟨m, hm, _⟩ => nomatch hm
    exact ⟨fun i => .arrived, fun m hm => (nomatch hm), fun i _ hi => absurd hi (hnone i),
      fun i hi => absurd hi (hnone i)⟩
  | tail _ move htime ih =>
    cases move with
    | env henv => exact ih.env henv
    | @exec i l effect next hat e =>
      refine ih.exec ((ih.stage i).move hat e _) ?_ htime
      rw [Config.waits, hat]
      rfl

/-- **A reset token works once.** In every run of completions in which no token is forgotten while it
can still be spent: at most one completion with a token comes to store a password, and none does that
was not let in before the token expired. -/
theorem reset_once {ι : Type} [DecidableEq ι] (signer : ResetSigner) (passwords : Passwords)
    (calls : ι → ResetCall) (s₀ : AuthServer) {moves : ResetMoves ι} {c : ResetConfig ι}
    (hrun : HistoryWhen ServerGoesOn (ForgetsInTime signer calls)
      (arrivedResets (signer.handlers passwords) calls s₀) moves c) :
    (∀ m ∈ moves, ∀ m' ∈ moves, ∀ i j, m.mover = .proc i .update → m'.mover = .proc j .update →
      (calls i).token = (calls j).token → i = j) ∧
    ∀ m ∈ moves, ∀ i, m.mover = .proc i .update → LetIn signer calls i moves := by
  have hinv := resetInv_run hrun
  refine ⟨fun m hm m' hm' i j hi hj htoken => ?_, fun m hm i hi => (hinv.stored m hm i hi).1⟩
  exact hinv.once i j (hinv.stored m hm i hi).2 (hinv.stored m' hm' j hj).2 htoken

/-! ## A slow completion -/

/-- A completion with the link that Anna was sent at the epoch. -/
def annasReset : ResetCall :=
  { token := plainResetSigner.issueReset ⟨1⟩ 0, body := .ok "falafel", salt := "" }

/-- A completion comes to its statement. -/
def storesPassword {ι : Type} [DecidableEq ι] (i : ι) (m : Move ι ResetStmt AuthServer) : Bool :=
  match m.mover with
  | .proc j .update => j = i
  | _ => false

theorem exists_stores {ι : Type} [DecidableEq ι] {i : ι} {moves : ResetMoves ι}
    (h : moves.any (storesPassword i) = true) : ∃ m ∈ moves, m.mover = .proc i .update := by
  obtain ⟨m, hm, hstores⟩ := List.any_eq_true.mp h
  refine ⟨m, hm, ?_⟩
  unfold storesPassword at hstores
  split at hstores
  · rename_i j hmover
    rw [hmover, of_decide_eq_true hstores]
  · cases hstores

/-- Anna's reset, as far as its steps have come. -/
def annaResets : Nat → ResetConfig Unit
  | 0 => arrivedResets (plainResetSigner.handlers plainPasswords) (fun _ => annasReset) annasServer
  | n + 1 => (annaResets n).advance () [.ok]

/-- It is the only completion with her token that stores a password. -/
theorem reset_once_anna : ∃ moves, HistoryWhen ServerGoesOn
    (ForgetsInTime plainResetSigner fun _ => annasReset) (annaResets 0) moves (annaResets 4) ∧
      (∃ m ∈ moves, m.mover = .proc () .update) ∧
      LetIn plainResetSigner (fun _ => annasReset) () moves := by
  obtain ⟨hnow, hread, hspend, hupdate, hfresh⟩ : (annaResets 0).waits () = some .now ∧
      (annaResets 1).waits () = some .spendNow ∧ (annaResets 2).waits () = some .spend ∧
      (annaResets 3).waits () = some .update ∧
      ((annaResets 1).advance () [.ok]).state.spent (plainResetSigner.identity annasReset.token) = none := by
    decide +kernel
  have hrun : HistoryWhen ServerGoesOn (ForgetsInTime plainResetSigner fun _ => annasReset)
      (annaResets 0) _ (annaResets 4) :=
    .tail (.tail (.tail (.tail .start (step_advance hnow .ok) fun _ _ h => by cases h)
      (step_advance hread .ok) fun _ _ h => by cases h)
      (step_advance hspend .ok) fun _ _ _ _ _ _ he => nomatch hfresh.symm.trans he)
      (step_advance hupdate .ok) fun _ _ h => by cases h
  refine ⟨_, hrun, ⟨_, List.mem_cons_self, rfl⟩, ?_⟩
  exact (reset_once plainResetSigner plainPasswords (fun _ => annasReset) annasServer hrun).2 _
    List.mem_cons_self () rfl

/-- The clock has come to a second. -/
def atSecond {ι : Type} (t : Int) (c : ResetConfig ι) : ResetConfig ι :=
  { c with state := { c.state with world := { c.state.world with now := t * Time.second } } }

theorem atSecond_step {ι : Type} [DecidableEq ι] {t : Int} {c : ResetConfig ι}
    (h : c.state.world.now ≤ t * Time.second) : Step ServerGoesOn c .env (atSecond t c) :=
  .env ⟨rfl, h⟩

/-- Two completions with Anna's token. -/
def annaTwice : ResetConfig Bool :=
  arrivedResets (plainResetSigner.handlers plainPasswords) (fun _ => annasReset) annasServer

/-- One goes through in the first second. -/
def annaOnce : ResetConfig Bool := annaTwice.advance true (.replicate 5 .ok)

/-- The other is let in a second before the token expires. -/
def annaLetIn : ResetConfig Bool := (atSecond 3599 annaOnce).advance false [.ok]

/-- It goes on two seconds later, and both store a password. -/
theorem reset_twice :
    ¬ ∀ (signer : ResetSigner) (passwords : Passwords) (calls : Bool → ResetCall) (s₀ : AuthServer)
      (moves : ResetMoves Bool) (c : ResetConfig Bool),
      History ServerGoesOn (arrivedResets (signer.handlers passwords) calls s₀) moves c →
      ∀ m ∈ moves, ∀ m' ∈ moves, ∀ i j, m.mover = .proc i .update → m'.mover = .proc j .update →
        (calls i).token = (calls j).token → i = j := by
  intro hall
  have honce : History ServerGoesOn annaTwice _ annaOnce :=
    History.advance .start true (List.replicate 5 Outcome.ok)
  have hletIn : History ServerGoesOn annaTwice _ annaLetIn :=
    (honce.tail (atSecond_step (by decide +kernel))).advance false [Outcome.ok]
  have hlate : annaLetIn.state.world.now ≤ 3601 * Time.second := by decide +kernel
  have htwice := (hletIn.tail (atSecond_step hlate)).advance false (List.replicate 3 Outcome.ok)
  obtain ⟨moves, c, htwice, htrue, hfalse⟩ : ∃ moves c, History ServerGoesOn annaTwice moves c ∧
      moves.any (storesPassword true) = true ∧ moves.any (storesPassword false) = true :=
    ⟨_, _, htwice, by decide +kernel, by decide +kernel⟩
  obtain ⟨m, hm, hm₁⟩ := exists_stores htrue
  obtain ⟨m', hm', hm₂⟩ := exists_stores hfalse
  have hsame := hall plainResetSigner plainPasswords (fun _ => annasReset) annasServer moves c htwice
    m hm m' hm' true false hm₁ hm₂ rfl
  cases hsame

end Doenerstag
