import Doenerstag.Api.LoginReplies

/-!
# Waiting as long as a refused login is told to (`internal/api/login.go`, `ratelimit.go`)

The wait is what is left of the window of the counter that refuses. The header has it in whole seconds,
rounded to the nearest one.

* `LimitedBy.blocks` — what one of the two counters says to an attempt.
* `counted_apart` — others leave the counters of an attempt alone, but for dropping them.
* `retryAfter_suffices_iff` — **after that wait the counter does not refuse again if and only if the
  window has no more than a second left, or whole seconds, or at least half a second besides.**
-/

namespace Doenerstag

/-! ## The counters -/

/-- The counter of the name, and that of the address -/
inductive LimitedBy where
  | name
  | address
  deriving DecidableEq, Repr

namespace LimitedBy

variable (l : LoginLimiter) (r : LoginCall)

def key : LimitedBy → String
  | name => l.loginKey r.name
  | address => r.address

def limit : LimitedBy → Int
  | name => l.perName
  | address => l.perAddress

def counters (counts : LoginCounts) : LimitedBy → LoginCounters
  | name => counts.names
  | address => counts.addresses

@[simp] theorem key_name : name.key l r = l.loginKey r.name := rfl
@[simp] theorem key_address : address.key l r = r.address := rfl
@[simp] theorem counters_name (counts : LoginCounts) : name.counters counts = counts.names := rfl
@[simp] theorem counters_address (counts : LoginCounts) : address.counters counts = counts.addresses := rfl

/-- What the counter says to an attempt, once the windows that have elapsed are dropped. -/
def blocks (which : LimitedBy) (now : Time) (counts : LoginCounts) : Option Duration :=
  LoginLimiter.blockedLocked (which.counters (LoginLimiter.expireLocked now counts)) (which.key l r)
    (which.limit l) now

/-- The counter refuses an attempt: it is the first one that does. -/
def Refuses (which : LimitedBy) (now : Time) (counts : LoginCounts) (wait : Duration) : Prop :=
  which.blocks l r now counts = some wait ∧ (which = address → name.blocks l r now counts = none)

end LimitedBy

section Counters

variable {l : LoginLimiter} {r : LoginCall} {which : LimitedBy} {now : Time} {counts : LoginCounts}
  {wait : Duration}

/-- A refusal is one of the two counters'. -/
theorem allow_refused_iff : (l.allow r.name r.address now counts).1 = some wait ↔
    ∃ which : LimitedBy, which.Refuses l r now counts wait := by
  have hallow : (l.allow r.name r.address now counts).1 =
      (LimitedBy.name.blocks l r now counts).or (LimitedBy.address.blocks l r now counts) := by
    unfold LoginLimiter.allow LimitedBy.blocks
    dsimp only [LimitedBy.counters, LimitedBy.key, LimitedBy.limit]
    generalize LoginLimiter.blockedLocked _ (l.loginKey r.name) _ _ = byName
    cases byName with
    | none => rw [Option.none_or]
    | some retry => rw [Option.some_or]
  rw [hallow]
  cases hname : LimitedBy.name.blocks l r now counts with
  | some retry =>
    constructor
    · intro h
      exact ⟨.name, hname.trans h, by intro hother; cases hother⟩
    · rintro ⟨which | which, hblocks, hfirst⟩
      · exact hname.symm.trans hblocks
      · rw [hfirst rfl] at hname
        cases hname
  | none =>
    constructor
    · intro h
      exact ⟨.address, h, fun _ => hname⟩
    · rintro ⟨which | which, hblocks, -⟩
      · rw [hname] at hblocks
        cases hblocks
      · exact hblocks

/-- A counter refuses when it is in use, is full and its window has not elapsed. -/
theorem blocks_eq_some_iff : which.blocks l r now counts = some wait ↔
    (0 < which.limit l ∧ which.key l r ≠ "") ∧ ∃ c, which.counters counts (which.key l r) = some c ∧
      now < c.expires ∧ which.limit l ≤ c.failures ∧ wait = c.expires - now := by
  have hexpired : which.counters (LoginLimiter.expireLocked now counts) =
      LoginLimiter.expireCounters now (which.counters counts) := by cases which <;> rfl
  unfold LimitedBy.blocks LoginLimiter.blockedLocked
  rw [hexpired]
  unfold LoginLimiter.expireCounters
  by_cases hoff : which.limit l ≤ 0 ∨ which.key l r = ""
  · rw [if_pos hoff]
    refine iff_of_false (fun h => nomatch h) ?_
    rintro ⟨⟨hlimit, hkey⟩, -⟩
    exact hoff.elim (fun h => absurd hlimit (not_lt.mpr h)) hkey
  rw [if_neg hoff]
  obtain ⟨hlimit, hkey⟩ := not_or.mp hoff
  have hused : 0 < which.limit l ∧ which.key l r ≠ "" := ⟨not_le.mp hlimit, hkey⟩
  cases hcounter : which.counters counts (which.key l r) with
  | none =>
    refine iff_of_false (fun h => nomatch h) ?_
    rintro ⟨-, c, hc, -⟩
    cases hc
  | some c =>
    by_cases htime : now < c.expires
    · rw [Option.filter_some, if_pos (decide_eq_true htime)]
      dsimp only
      constructor
      · intro h
        split_ifs at h with hfull
        exact ⟨hused, c, rfl, htime, not_lt.mp hfull, (Option.some.inj h).symm⟩
      · rintro ⟨-, c', hc', -, hfull, rfl⟩
        cases hc'
        rw [if_neg (not_lt.mpr hfull)]
    · rw [Option.filter_some, if_neg (by simpa using htime)]
      refine iff_of_false (fun h => nomatch h) ?_
      rintro ⟨-, c', hc', htime', -⟩
      cases hc'
      exact htime htime'

end Counters

/-! ## What others do meanwhile -/

/-- The attempt that makes a call -/
def LimiterCall.maker {ι : Type} : LimiterCall ι → ι
  | .allow i _ => i
  | .recordFailure i _ => i
  | .recordSuccess i => i

/-- An attempt for another name and from another address -/
def Apart (l : LoginLimiter) (r other : LoginCall) : Prop :=
  l.loginKey other.name ≠ l.loginKey r.name ∧ other.address ≠ r.address

section Apart

variable {ι : Type} {l : LoginLimiter} {attempts : ι → LoginCall} {r : LoginCall} {which : LimitedBy}
  {counts : LoginCounts} {call : LimiterCall ι} {calls later : List (LimiterCall ι)} {c : LoginCounter}

theorem expireCounters_eq_some {now : Time} {counters : LoginCounters} {key : String}
    (h : LoginLimiter.expireCounters now counters key = some c) : counters key = some c :=
  (Option.filter_eq_some_iff.mp h).1

theorem expireLocked_some {now : Time} {key : String}
    (h : which.counters (LoginLimiter.expireLocked now counts) key = some c) :
    which.counters counts key = some c := by
  cases which <;> exact expireCounters_eq_some h

theorem expireLocked_counters (which : LimitedBy) (counts : LoginCounts) {now : Time} {key : String}
    (h : which.counters counts key = some c) (htime : now < c.expires) :
    which.counters (LoginLimiter.expireLocked now counts) key = some c := by
  have hkept : ∀ {counters : LoginCounters}, counters key = some c →
      LoginLimiter.expireCounters now counters key = some c := by
    intro counters hc
    exact Option.filter_eq_some_iff.mpr ⟨hc, decide_eq_true htime⟩
  cases which <;> exact hkept h

theorem bumpLocked_other {now : Time} {counters : LoginCounters} {key other : String} (hne : key ≠ other) :
    l.bumpLocked counters other now key = counters key := by
  unfold LoginLimiter.bumpLocked
  split_ifs
  · rfl
  · exact Function.update_of_ne hne _ _

theorem allow_counts {name address : String} {now : Time} :
    (l.allow name address now counts).2 = LoginLimiter.expireLocked now counts := by
  unfold LoginLimiter.allow
  dsimp only
  split <;> rfl

theorem recordFailure_names {name address : String} {now : Time} :
    (l.recordFailure name address now counts).names =
      l.bumpLocked (LoginLimiter.expireCounters now counts.names) (l.loginKey name) now := by
  rw [LoginLimiter.recordFailure]
  dsimp only
  rw [LoginLimiter.expireLocked]

theorem recordFailure_addresses {name address : String} {now : Time} :
    (l.recordFailure name address now counts).addresses =
      l.bumpLocked (LoginLimiter.expireCounters now counts.addresses) address now := by
  rw [LoginLimiter.recordFailure]
  dsimp only
  rw [LoginLimiter.expireLocked]

theorem recordSuccess_names {name : String} : (l.recordSuccess name counts).names =
    Function.update counts.names (l.loginKey name) none := by
  rw [LoginLimiter.recordSuccess]

theorem recordSuccess_addresses {name : String} : (l.recordSuccess name counts).addresses =
    counts.addresses := by
  rw [LoginLimiter.recordSuccess]

/-- One call of another attempt -/
theorem counted_apart_step (hapart : Apart l r (attempts call.maker))
    (h : which.counters (counted l attempts counts (call :: calls)) (which.key l r) = some c) :
    which.counters (counted l attempts counts calls) (which.key l r) = some c := by
  obtain ⟨hname, haddress⟩ := hapart
  cases call with
  | allow j now =>
    rw [counted, allow_counts] at h
    cases which <;> exact expireCounters_eq_some h
  | recordFailure j now =>
    rw [counted] at h
    dsimp only [LimiterCall.maker] at hname haddress
    cases which with
    | name =>
      rw [LimitedBy.counters_name, recordFailure_names, LimitedBy.key_name,
        bumpLocked_other (Ne.symm hname)] at h
      exact expireCounters_eq_some h
    | address =>
      rw [LimitedBy.counters_address, recordFailure_addresses, LimitedBy.key_address,
        bumpLocked_other (Ne.symm haddress)] at h
      exact expireCounters_eq_some h
  | recordSuccess j =>
    rw [counted] at h
    dsimp only [LimiterCall.maker] at hname haddress
    cases which with
    | name =>
      rw [LimitedBy.counters_name, recordSuccess_names, LimitedBy.key_name,
        Function.update_of_ne (Ne.symm hname)] at h
      exact h
    | address =>
      rw [LimitedBy.counters_address, recordSuccess_addresses] at h
      exact h

/-- **Any calls of others**: what is counted of an attempt afterwards was counted before. -/
theorem counted_apart (hapart : ∀ call ∈ later, Apart l r (attempts call.maker))
    (h : which.counters (counted l attempts counts (later ++ calls)) (which.key l r) = some c) :
    which.counters (counted l attempts counts calls) (which.key l r) = some c := by
  induction later with
  | nil => exact h
  | cons call later ih =>
    exact ih (fun call hcall => hapart call (List.mem_cons_of_mem _ hcall))
      (counted_apart_step (hapart call List.mem_cons_self) h)

end Apart

/-! ## The wait -/

/-- Rounding to whole seconds does not shorten the wait. -/
def NotShortened (wait : Duration) : Prop :=
  wait ≤ Time.second ∨ wait % Time.second = 0 ∨ Time.second ≤ 2 * (wait % Time.second)

theorem retryAfterSeconds_of_pos {wait : Int} (hpos : 0 < wait) : retryAfterSeconds wait =
    if 2 * (wait % 1000000000) < 1000000000 then max (wait / 1000000000) 1
    else wait / 1000000000 + 1 := by
  have hmod : Int.tmod wait Time.second = wait % 1000000000 := Int.tmod_eq_emod_of_nonneg hpos.le
  have hround : Duration.round wait Time.second =
      if 2 * (wait % 1000000000) < 1000000000 then (wait / 1000000000) * 1000000000
      else (wait / 1000000000 + 1) * 1000000000 := by
    unfold Duration.round
    rw [if_neg (not_lt.mpr hpos.le)]
    dsimp only
    rw [hmod]
    show (if wait % 1000000000 + wait % 1000000000 < 1000000000 then wait - wait % 1000000000
      else wait + 1000000000 - wait % 1000000000) = _
    split_ifs <;> omega
  unfold retryAfterSeconds
  rw [hround]
  unfold Time.second
  dsimp only
  by_cases hdown : 2 * (wait % 1000000000) < 1000000000
  · rw [if_pos hdown, if_pos hdown, Int.mul_tdiv_cancel _ (by decide), max_def]
    split_ifs <;> omega
  · rw [if_neg hdown, if_neg hdown, Int.mul_tdiv_cancel _ (by decide)]
    split_ifs <;> omega

theorem retryAfterSeconds_covers_iff {wait : Int} (hpos : 0 < wait) :
    wait ≤ retryAfterSeconds wait * Time.second ↔ NotShortened wait := by
  rw [retryAfterSeconds_of_pos hpos]
  show wait ≤ _ * 1000000000 ↔ wait ≤ 1000000000 ∨ wait % 1000000000 = 0 ∨
    1000000000 ≤ 2 * (wait % 1000000000)
  split_ifs with hdown
  · omega
  · omega

/-- Whatever others do meanwhile, an attempt that comes after the wait is not refused by the counter again. -/
def WaitSuffices {ι : Type} (l : LoginLimiter) (attempts : ι → LoginCall) (earlier : List (LimiterCall ι))
    (i : ι) (now : Time) (which : LimitedBy) (wait : Duration) : Prop :=
  ∀ later again, (∀ call ∈ later, Apart l (attempts i) (attempts call.maker)) →
    now + retryAfterSeconds wait * Time.second ≤ again →
    which.blocks l (attempts i) again
      (counted l attempts .empty (later ++ .allow i now :: earlier)) = none

/-- **A refused login that waits as it is told is not refused again by the same counter if and only if**
the rounding does not shorten what is left of the window. Before it there may be any calls of any
attempts. -/
theorem retryAfter_suffices_iff {ι : Type} {l : LoginLimiter} {attempts : ι → LoginCall}
    {earlier : List (LimiterCall ι)} {i : ι} {now : Time} {wait : Duration}
    (hrefused : (l.allow (attempts i).name (attempts i).address now
      (counted l attempts .empty earlier)).1 = some wait) :
    ∃ which : LimitedBy, which.Refuses l (attempts i) now (counted l attempts .empty earlier) wait ∧
      ∃ c, which.counters (counted l attempts .empty earlier) (which.key l (attempts i)) = some c ∧
        (WaitSuffices l attempts earlier i now which wait ↔ NotShortened (c.expires - now)) := by
  obtain ⟨which, hrefuses⟩ := allow_refused_iff.mp hrefused
  refine ⟨which, hrefuses, ?_⟩
  obtain ⟨⟨hlimit, hkey⟩, c, hc, htime, hfull, rfl⟩ := blocks_eq_some_iff.mp hrefuses.1
  refine ⟨c, hc, ?_⟩
  rw [← retryAfterSeconds_covers_iff (Int.sub_pos_of_lt htime)]
  have hswept : counted l attempts .empty (.allow i now :: earlier) =
      LoginLimiter.expireLocked now (counted l attempts .empty earlier) := by
    rw [counted, allow_counts]
  constructor
  · intro hsuffices
    have hnone := hsuffices [] (now + retryAfterSeconds (c.expires - now) * Time.second)
      (List.forall_mem_nil _) (Int.le_refl _)
    rw [List.nil_append, hswept] at hnone
    by_contra hshort
    have hkept := expireLocked_counters which (counted l attempts .empty earlier) hc htime
    have hagain := blocks_eq_some_iff.mpr
      ⟨⟨hlimit, hkey⟩, c, hkept, Int.add_lt_of_lt_sub_left (not_le.mp hshort), hfull, rfl⟩
    rw [hnone] at hagain
    cases hagain
  · intro henough later again hapart hwait
    by_contra hblocked
    obtain ⟨left, hleft⟩ := Option.ne_none_iff_exists'.mp hblocked
    obtain ⟨-, c', hc', htime', -⟩ := blocks_eq_some_iff.mp hleft
    have hbefore := counted_apart hapart hc'
    rw [hswept] at hbefore
    have hsame : c' = c := by
      have h := expireLocked_some hbefore
      rw [hc] at h
      exact (Option.some.inj h).symm
    subst hsame
    have hover : c'.expires ≤ again := le_trans (Int.le_add_of_sub_left_le henough) hwait
    exact absurd htime' (not_lt.mpr hover)

/-! ## Anna's password is guessed at again -/

/-- One failure is allowed in a quarter of an hour. -/
def strictLimiter : LoginLimiter :=
  { rt := .ascii, perName := 1, perAddress := 60, window := 900 * Time.second }

/-- A guess -/
def guess (_ : Unit) : LoginCall := annaWith "pizza" ⟨51⟩

/-- The first guess is wrong. -/
def guessedOnce : List (LimiterCall Unit) := [.recordFailure () 0, .allow () 0]

/-- At once, a quarter of an hour is left: it is told in full. -/
theorem retryAfter_suffices_anna :
    (strictLimiter.allow (guess ()).name (guess ()).address 0
      (counted strictLimiter guess .empty guessedOnce)).1 = some (900 * Time.second) ∧
    WaitSuffices strictLimiter guess guessedOnce () 0 .name (900 * Time.second) := by
  have hrefused : (strictLimiter.allow (guess ()).name (guess ()).address 0
      (counted strictLimiter guess .empty guessedOnce)).1 = some (900 * Time.second) := by
    decide +kernel
  refine ⟨hrefused, ?_⟩
  obtain ⟨which, ⟨hblocks, hfirst⟩, c, hc, hsuffices⟩ := retryAfter_suffices_iff hrefused
  have hname : LimitedBy.name.blocks strictLimiter (guess ()) 0
      (counted strictLimiter guess .empty guessedOnce) = some (900 * Time.second) := by
    decide +kernel
  cases which with
  | address =>
    rw [hfirst rfl] at hname
    cases hname
  | name =>
    have hcounter : LimitedBy.name.counters (counted strictLimiter guess .empty guessedOnce)
        (LimitedBy.name.key strictLimiter (guess ())) = some ⟨1, 900 * Time.second⟩ := by
      decide +kernel
    rw [hcounter] at hc
    cases hc
    exact hsuffices.mpr (.inr (.inl (by decide)))

/-- With 1.4 s left of it the header says one second, after which the name is refused again. -/
theorem retryAfter_short_anna :
    LimitedBy.name.Refuses strictLimiter (guess ()) (898600 * Time.second / 1000)
      (counted strictLimiter guess .empty guessedOnce) (1400 * Time.second / 1000) ∧
    retryAfterSeconds (1400 * Time.second / 1000) = 1 ∧
    ¬ WaitSuffices strictLimiter guess guessedOnce () (898600 * Time.second / 1000) .name
      (1400 * Time.second / 1000) := by
  refine ⟨⟨by decide +kernel, by decide⟩, by decide, fun hsuffices => ?_⟩
  have hnone := hsuffices [] (899600 * Time.second / 1000) (List.forall_mem_nil _) (by decide)
  have hblocked : LimitedBy.name.blocks strictLimiter (guess ()) (899600 * Time.second / 1000)
      (counted strictLimiter guess .empty
        (.allow () (898600 * Time.second / 1000) :: guessedOnce)) = some (400 * Time.second / 1000) := by
    decide +kernel
  rw [List.nil_append, hblocked] at hnone
  cases hnone

end Doenerstag
