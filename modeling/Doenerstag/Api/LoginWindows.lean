import Doenerstag.Api.RetryAfter
import Doenerstag.Lib.FixedWindow
import Mathlib.Algebra.Order.Group.Int

/-!
# What the login limiter counts (`internal/api/ratelimit.go`)

The limiter holds two maps, which every call sweeps. What it is for is said here of the calls alone:
of one key, the failures are counted in fixed windows (`Lib/FixedWindow`).

* `failures` — when the failures of a key were recorded, since it was last forgiven.
* `counters_eq_window` — the map holds, of every key, the window of its failures that has not elapsed.
* `allow_eq_refusals` — **the limiter answers what the two windows of the attempt say.**
* `Overrun`, `overrun_calls` — what is recorded once a window is full had been let through before.
* `failures_interval` — how many failures any interval as long as the window can see.
-/

namespace Doenerstag

open FixedWindow

section Failures

variable {ι : Type}

/-- When a call found the clock. -/
def LimiterCall.time : LimiterCall ι → Option Time
  | .allow _ now => some now
  | .recordFailure _ now => some now
  | .recordSuccess _ => none

/-- The times at which the calls found the clock, the last one first. -/
def callTimes (calls : List (LimiterCall ι)) : List Time := calls.filterMap LimiterCall.time

/-- The clock does not go back, and has come to `now`. -/
def Clocked (now : Time) (calls : List (LimiterCall ι)) : Prop :=
  (now :: callTimes calls).Pairwise (· ≥ ·)

/-- When the failures of a key were recorded, the last one first, since a success last forgave it. An
address is not forgiven. -/
def failures (l : LoginLimiter) (attempts : ι → LoginCall) (which : LimitedBy) (key : String) :
    List (LimiterCall ι) → List Time
  | [] => []
  | .allow _ _ :: earlier => failures l attempts which key earlier
  | .recordFailure i now :: earlier =>
    if which.key l (attempts i) = key then now :: failures l attempts which key earlier
    else failures l attempts which key earlier
  | .recordSuccess i :: earlier =>
    if which = .name ∧ l.loginKey (attempts i).name = key then []
    else failures l attempts which key earlier

/-- What a window says to an attempt. -/
def refusal (w : Duration) (limit : Int) (key : String) (now : Time) (last : Option (Window Time)) :
    Option Duration :=
  if limit ≤ 0 ∨ key = "" then none
  else last.bind fun v =>
    if v.Has w now ∧ limit ≤ (v.marks : Int) then some (v.opened + w - now) else none

end Failures

section Refinement

variable {ι : Type} {l : LoginLimiter} {attempts : ι → LoginCall} {which : LimitedBy} {key : String}
  {now t : Time} {call : LimiterCall ι} {calls : List (LimiterCall ι)}

theorem Clocked.of_cons (h : Clocked now (call :: calls)) : Clocked now calls := by
  unfold Clocked callTimes at h ⊢
  cases call with
  | allow i t => exact h.sublist (.cons_cons _ (List.sublist_cons_self _ _))
  | recordFailure i t => exact h.sublist (.cons_cons _ (List.sublist_cons_self _ _))
  | recordSuccess i => exact h

/-- The time of the last call is one to which the clock had come. -/
theorem Clocked.at_call (h : Clocked now (call :: calls)) (htime : call.time = some t) :
    t ≤ now ∧ Clocked t calls := by
  unfold Clocked callTimes at h
  rw [List.filterMap_cons_some htime] at h
  exact ⟨(List.pairwise_cons.mp h).1 t List.mem_cons_self, (List.pairwise_cons.mp h).2⟩

/-- The counter of a window. -/
def counterOf (w : Duration) (v : Window Time) : LoginCounter where
  failures := v.marks
  expires := v.opened + w

/-- The counter of the window, if that has not elapsed. -/
def openCounter (w : Duration) (now : Time) (last : Option (Window Time)) : Option LoginCounter :=
  (last.map (counterOf w)).filter fun c => now < c.expires

theorem openCounter_has {w : Duration} {v : Window Time} (h : v.Has w now) :
    openCounter w now (some v) = some (counterOf w v) :=
  (Option.filter_some).trans (if_pos (decide_eq_true h))

theorem openCounter_elapsed {w : Duration} {last : Option (Window Time)}
    (h : ∀ v, last = some v → ¬ v.Has w now) : openCounter w now last = none := by
  cases last with
  | none => rfl
  | some v =>
    refine (Option.filter_some).trans (if_neg fun hopen => h v rfl ?_)
    exact of_decide_eq_true hopen

/-- A sweep makes no difference to a later one. -/
theorem openCounter_filter {w : Duration} {last : Option (Window Time)} (hle : t ≤ now) :
    ((openCounter w t last).filter fun c => now < c.expires) = openCounter w now last := by
  unfold openCounter
  rw [Option.filter_filter]
  congr 1
  funext c
  rw [Bool.and_eq_right_iff_imp]
  intro hnow
  exact decide_eq_true (hle.trans_lt (of_decide_eq_true hnow))

/-- One more failure: the open window counts it, or it opens one. -/
theorem bumpLocked_window {counters : LoginCounters} {last : Option (Window Time)} (hkey : key ≠ "")
    (h : counters key = openCounter l.window t last) :
    l.bumpLocked counters key t key = some (counterOf l.window (mark l.window t last)) := by
  unfold LoginLimiter.bumpLocked
  rw [if_neg hkey, Function.update_self, h]
  rcases mark_cases l.window t last with ⟨v, rfl, hhas, hmark⟩ | ⟨helapsed, hmark⟩
  · rw [hmark, openCounter_has hhas]
    rfl
  · rw [hmark, openCounter_elapsed helapsed]
    rfl

/-- **What the maps hold.** At every time from the last call on, a key's counter is that of the last
window of its failures, until that has elapsed. -/
theorem counters_eq_window (hkey : key ≠ "") (hclock : Clocked now calls) :
    LoginLimiter.expireCounters now (which.counters (counted l attempts .empty calls)) key =
      openCounter l.window now (window l.window (failures l attempts which key calls)) := by
  induction calls generalizing now with
  | nil => cases which <;> rfl
  | cons call earlier ih =>
    cases call with
    | allow i t =>
      obtain ⟨hle, hclock'⟩ := hclock.at_call rfl
      have hcounted : which.counters (counted l attempts .empty (.allow i t :: earlier)) =
          LoginLimiter.expireCounters t (which.counters (counted l attempts .empty earlier)) := by
        rw [counted, allow_counts]
        cases which <;> rfl
      rw [hcounted, LoginLimiter.expireCounters, ih hclock']
      exact openCounter_filter hle
    | recordFailure i t =>
      obtain ⟨hle, hclock'⟩ := hclock.at_call rfl
      have hcounted : which.counters (counted l attempts .empty (.recordFailure i t :: earlier)) =
          l.bumpLocked (LoginLimiter.expireCounters t
            (which.counters (counted l attempts .empty earlier))) (which.key l (attempts i)) t := by
        rw [counted]
        cases which with
        | name => exact recordFailure_names
        | address => exact recordFailure_addresses
      have hbefore := ih hclock'
      rw [hcounted, LoginLimiter.expireCounters]
      by_cases hsame : which.key l (attempts i) = key
      · rw [hsame, bumpLocked_window hkey hbefore, failures, if_pos hsame]
        rfl
      · rw [bumpLocked_other (Ne.symm hsame), hbefore, failures, if_neg hsame]
        exact openCounter_filter hle
    | recordSuccess i =>
      have hbefore := ih hclock.of_cons
      cases which with
      | address =>
        rw [counted, LimitedBy.counters_address, recordSuccess_addresses]
        exact hbefore
      | name =>
        rw [counted, LimitedBy.counters_name, recordSuccess_names, LoginLimiter.expireCounters, failures]
        by_cases hsame : l.loginKey (attempts i).name = key
        · rw [if_pos ⟨rfl, hsame⟩, hsame, Function.update_self]
          rfl
        · rw [if_neg (fun h => hsame h.2), Function.update_of_ne (Ne.symm hsame)]
          exact hbefore

/-- What one of the counters says to an attempt is what the window of its key says. -/
theorem blocks_eq_refusal (which : LimitedBy) (r : LoginCall) (hclock : Clocked now calls) :
    which.blocks l r now (counted l attempts .empty calls) =
      refusal l.window (which.limit l) (which.key l r) now
        (window l.window (failures l attempts which (which.key l r) calls)) := by
  have hexpired : which.counters (LoginLimiter.expireLocked now (counted l attempts .empty calls)) =
      LoginLimiter.expireCounters now (which.counters (counted l attempts .empty calls)) := by
    cases which <;> rfl
  unfold LimitedBy.blocks LoginLimiter.blockedLocked refusal
  rw [hexpired]
  split_ifs with hoff
  · rfl
  · rw [counters_eq_window (fun hkey => hoff (.inr hkey)) hclock]
    cases window l.window (failures l attempts which (which.key l r) calls) with
    | none => rfl
    | some v =>
      by_cases hhas : v.Has l.window now
      · rw [openCounter_has hhas, Option.bind_some]
        by_cases hfull : which.limit l ≤ (v.marks : Int)
        · simp [counterOf, hhas, hfull, not_lt.mpr hfull]
        · simp [counterOf, hfull, not_le.mp hfull]
      · have helapsed : ∀ v', some v = some v' → ¬ v'.Has l.window now := by
          rintro _ ⟨⟩
          exact hhas
        rw [openCounter_elapsed helapsed, Option.bind_some, if_neg (fun h => hhas h.1)]

/-- **The limiter answers** an attempt what the window of its name's failures says, and if that lets
it through what the window of its address's failures says: after any calls of any attempts, no other
key and no sweep of the maps makes a difference. -/
theorem allow_eq_refusals (r : LoginCall) (hclock : Clocked now calls) :
    (l.allow r.name r.address now (counted l attempts .empty calls)).1 =
      (refusal l.window l.perName (l.loginKey r.name) now
          (window l.window (failures l attempts .name (l.loginKey r.name) calls))).or
        (refusal l.window l.perAddress r.address now
          (window l.window (failures l attempts .address r.address calls))) := by
  have hwindows : ∀ which : LimitedBy, which.blocks l r now (counted l attempts .empty calls) = _ :=
    fun which => blocks_eq_refusal which r hclock
  have hname := hwindows .name
  have haddress := hwindows .address
  dsimp only [LimitedBy.limit, LimitedBy.key] at hname haddress
  refine Option.ext fun wait => ?_
  rw [allow_refused_iff, ← hname, ← haddress, Option.or_eq_some_iff]
  constructor
  · rintro ⟨which | which, hblocks, hfirst⟩
    · exact .inl hblocks
    · exact .inr ⟨hfirst rfl, hblocks⟩
  · rintro (hblocks | ⟨hfirst, hblocks⟩)
    · exact ⟨.name, hblocks, nofun⟩
    · exact ⟨.address, hblocks, fun _ => hfirst⟩

end Refinement

/-- After one wrong guess Anna's name is refused, for the rest of the window. -/
theorem allow_eq_refusals_anna :
    (strictLimiter.allow (guess ()).name (guess ()).address Time.second
      (counted strictLimiter guess .empty guessedOnce)).1 = some (899 * Time.second) := by
  have hclock : Clocked Time.second guessedOnce := by
    unfold Clocked callTimes guessedOnce
    decide
  rw [allow_eq_refusals (guess ()) hclock]
  decide +kernel

/-! ## How many failures get through -/

section Bound

variable {ι : Type} [DecidableEq ι] {l : LoginLimiter} {attempts : ι → LoginCall} {which : LimitedBy}
  {key : String} {now t a : Time} {i : ι} {calls later earlier : List (LimiterCall ι)}
  {v : Window Time} {k : Nat}

/-- An attempt has asked the limiter. -/
def LimiterCall.Asks (i : ι) : LimiterCall ι → Prop
  | .allow j _ => j = i
  | .recordFailure _ _ => False
  | .recordSuccess _ => False

instance (i : ι) (call : LimiterCall ι) : Decidable (call.Asks i) := by
  cases call <;> unfold LimiterCall.Asks <;> infer_instance

def HasAsked (i : ι) (calls : List (LimiterCall ι)) : Prop := ∃ call ∈ calls, call.Asks i

instance (i : ι) (calls : List (LimiterCall ι)) : Decidable (HasAsked i calls) :=
  inferInstanceAs (Decidable (∃ call ∈ calls, call.Asks i))

/-- The limiter has let an attempt through. -/
def LetThrough (l : LoginLimiter) (attempts : ι → LoginCall) (i : ι) (calls : List (LimiterCall ι)) :
    Prop :=
  ∃ later now earlier, calls = later ++ .allow i now :: earlier ∧
    (l.allow (attempts i).name (attempts i).address now (counted l attempts .empty earlier)).1 = none

/-- Whoever records a failure was let through before. -/
def Orderly (l : LoginLimiter) (attempts : ι → LoginCall) (calls : List (LimiterCall ι)) : Prop :=
  ∀ later i now earlier, calls = later ++ .recordFailure i now :: earlier →
    LetThrough l attempts i earlier

/-- Whose failures for a key the calls record. -/
def failing (l : LoginLimiter) (attempts : ι → LoginCall) (which : LimitedBy) (key : String) :
    List (LimiterCall ι) → List ι
  | [] => []
  | .recordFailure i _ :: earlier =>
    if which.key l (attempts i) = key then i :: failing l attempts which key earlier
    else failing l attempts which key earlier
  | .allow _ _ :: earlier => failing l attempts which key earlier
  | .recordSuccess _ :: earlier => failing l attempts which key earlier

/-- How many failures for a key are under way between two parts of a history: they are recorded in
the later one, for attempts that had asked in the earlier one. -/
def underway (l : LoginLimiter) (attempts : ι → LoginCall) (which : LimitedBy) (key : String)
    (later earlier : List (LimiterCall ι)) : Nat :=
  (failing l attempts which key later).countP fun i => HasAsked i earlier

/-- At most `k` failures for a key are under way at any moment. -/
def Concurrent (l : LoginLimiter) (attempts : ι → LoginCall) (which : LimitedBy) (key : String)
    (k : Nat) (calls : List (LimiterCall ι)) : Prop :=
  ∀ later earlier, calls = later ++ earlier → underway l attempts which key later earlier ≤ k

omit [DecidableEq ι] in
theorem Orderly.of_append (h : Orderly l attempts (later ++ earlier)) : Orderly l attempts earlier := by
  intro later' i now earlier' heq
  exact h (later ++ later') i now earlier' (by rw [heq, List.append_assoc])

omit [DecidableEq ι] in
theorem failing_append (later earlier : List (LimiterCall ι)) :
    failing l attempts which key (later ++ earlier) =
      failing l attempts which key later ++ failing l attempts which key earlier := by
  induction later with
  | nil => rfl
  | cons call later ih =>
    cases call with
    | allow i t => exact ih
    | recordSuccess i => exact ih
    | recordFailure i t =>
      simp only [List.cons_append, failing]
      split_ifs
      · rw [ih, List.cons_append]
      · exact ih

theorem Concurrent.of_append (h : Concurrent l attempts which key k (later ++ earlier)) :
    Concurrent l attempts which key k earlier := by
  intro later' earlier' heq
  refine le_trans ?_ (h (later ++ later') earlier' (by rw [heq, List.append_assoc]))
  unfold underway
  rw [failing_append, List.countP_append]
  exact Nat.le_add_left _ _

omit [DecidableEq ι] in
theorem Clocked.of_append (h : Clocked now (later ++ earlier)) : Clocked now earlier := by
  induction later with
  | nil => exact h
  | cons call later ih => exact ih h.of_cons

/-- The calls since the window of a key became full: each failure they record was let through
before, and all the while the window is open and full. -/
structure Overrun (l : LoginLimiter) (attempts : ι → LoginCall) (which : LimitedBy) (key : String)
    (v : Window Time) (later earlier : List (LimiterCall ι)) : Prop where
  marks : (v.marks : Int) + 1 = which.limit l + (failing l attempts which key later).length
  asked : ∀ i ∈ failing l attempts which key later, HasAsked i earlier
  first : ∃ later' i t, later = later' ++ [.recordFailure i t]
  full : ∀ since before, later = since ++ before → before ≠ [] →
    ∃ v', window l.window (failures l attempts which key (before ++ earlier)) = some v' ∧
      v'.opened = v.opened ∧ which.limit l ≤ v'.marks

omit [DecidableEq ι] in
theorem LetThrough.asked (h : LetThrough l attempts i calls) : HasAsked i calls := by
  obtain ⟨later, now, earlier, rfl, -⟩ := h
  exact ⟨.allow i now, List.mem_append_right _ List.mem_cons_self, rfl⟩

omit [DecidableEq ι] in
/-- Neither counter blocks an attempt that is let through. -/
theorem blocks_of_allow (which : LimitedBy) {r : LoginCall} {counts : LoginCounts}
    (h : (l.allow r.name r.address now counts).1 = none) : which.blocks l r now counts = none := by
  have hnone : ∀ other : LimitedBy, ∀ wait, ¬ other.Refuses l r now counts wait := by
    intro other wait hrefuses
    have hsome := allow_refused_iff.mpr ⟨other, hrefuses⟩
    rw [h] at hsome
    cases hsome
  have hname : LimitedBy.name.blocks l r now counts = none := by
    cases hblocks : LimitedBy.name.blocks l r now counts with
    | none => rfl
    | some wait => exact absurd ⟨hblocks, nofun⟩ (hnone .name wait)
  cases which with
  | name => exact hname
  | address =>
    cases hblocks : LimitedBy.address.blocks l r now counts with
    | none => rfl
    | some wait => exact absurd ⟨hblocks, fun _ => hname⟩ (hnone .address wait)

omit [DecidableEq ι] in
/-- An attempt is let through only while the window of its key is not full, or has elapsed. -/
theorem window_of_allow (hlimit : 0 < which.limit l) (hkey : which.key l (attempts i) ≠ "")
    (hclock : Clocked now calls)
    (hallow : (l.allow (attempts i).name (attempts i).address now
      (counted l attempts .empty calls)).1 = none)
    (hwindow : window l.window (failures l attempts which (which.key l (attempts i)) calls) = some v)
    (hfull : which.limit l ≤ v.marks) : ¬ v.Has l.window now := by
  have hblocks := blocks_of_allow which hallow
  rw [blocks_eq_refusal which _ hclock, hwindow, refusal] at hblocks
  intro hhas
  rw [if_neg (by simp [hkey, hlimit]), Option.bind_some, if_pos ⟨hhas, hfull⟩] at hblocks
  cases hblocks

omit [DecidableEq ι] in
/-- A call that records no failure of the key and does not forgive it. -/
theorem Overrun.cons_quiet {call : LimiterCall ι} (h : Overrun l attempts which key v later earlier)
    (hwindow : window l.window (failures l attempts which key (later ++ earlier)) = some v)
    (hfull : which.limit l ≤ v.marks)
    (hfailures : ∀ calls, failures l attempts which key (call :: calls) =
      failures l attempts which key calls)
    (hfailing : failing l attempts which key (call :: later) = failing l attempts which key later) :
    Overrun l attempts which key v (call :: later) earlier where
  marks := by rw [hfailing, h.marks]
  asked := by
    rw [hfailing]
    exact h.asked
  first := by
    obtain ⟨later', i, t, rfl⟩ := h.first
    exact ⟨call :: later', i, t, rfl⟩
  full := by
    intro since before heq hbefore
    cases since with
    | nil =>
      cases heq
      refine ⟨v, ?_, rfl, hfull⟩
      rw [List.cons_append, hfailures]
      exact hwindow
    | cons _ since =>
      obtain ⟨rfl, hlater⟩ := List.cons.inj heq
      exact h.full since before hlater hbefore

omit [DecidableEq ι] in
/-- The failure that makes the window full. -/
theorem Overrun.begin (hkey : which.key l (attempts i) = key)
    (hwindow : window l.window (failures l attempts which key (.recordFailure i t :: calls)) = some v)
    (hmarks : (v.marks : Int) = which.limit l) (hasked : HasAsked i calls) :
    Overrun l attempts which key v [.recordFailure i t] calls where
  marks := by
    rw [failing, if_pos hkey, hmarks]
    rfl
  asked := by
    intro j hj
    rw [failing, if_pos hkey] at hj
    cases List.mem_singleton.mp hj
    exact hasked
  first := ⟨[], i, t, rfl⟩
  full := by
    intro since before heq hbefore
    cases since with
    | nil =>
      cases heq
      exact ⟨v, hwindow, rfl, hmarks.ge⟩
    | cons _ since =>
      obtain ⟨-, hnil⟩ := List.cons.inj heq
      exact absurd (List.append_eq_nil_iff.mp hnil.symm).2 hbefore

omit [DecidableEq ι] in
/-- A failure in a window that was full: its attempt was let through before that. -/
theorem Overrun.cons_failure (hlimit : 0 < which.limit l) (hkey : key ≠ "")
    (hsame : which.key l (attempts i) = key) (h : Overrun l attempts which key v later earlier)
    (hwindow : window l.window (failures l attempts which key (later ++ earlier)) = some v)
    (hfull : which.limit l ≤ v.marks) (hhas : v.Has l.window t)
    (hclock : Clocked t (later ++ earlier)) (hthrough : LetThrough l attempts i (later ++ earlier)) :
    Overrun l attempts which key { v with marks := v.marks + 1 } (.recordFailure i t :: later)
      earlier where
  marks := by
    have hmarks := h.marks
    rw [failing, if_pos hsame]
    push_cast [List.length_cons]
    omega
  asked := by
    intro j hj
    rw [failing, if_pos hsame] at hj
    rcases List.mem_cons.mp hj with rfl | hj
    · obtain ⟨since, t', before, heq, hallow⟩ := hthrough
      rcases List.append_eq_append_iff.mp heq with ⟨c, rfl, rfl⟩ | ⟨c, rfl, hcons⟩
      · exact ⟨.allow j t', List.mem_append_right _ List.mem_cons_self, rfl⟩
      · -- let through while the window is full: it cannot have been open
        cases c with
        | nil =>
          have hmem : .allow j t' ∈ [] ++ earlier := hcons ▸ List.mem_cons_self
          exact ⟨.allow j t', hmem, rfl⟩
        | cons call c =>
          obtain ⟨rfl, rfl⟩ := List.cons.inj hcons
          have hbefore : c ≠ [] := by
            rintro rfl
            obtain ⟨later', i', t'', hlast⟩ := h.first
            cases (List.append_inj' hlast rfl).2
          obtain ⟨v', hv', hopened, hfull'⟩ :=
            h.full (since ++ [.allow j t']) c (by rw [List.append_assoc]; rfl) hbefore
          have hsuffix : since ++ .allow j t' :: c ++ earlier =
              since ++ .allow j t' :: (c ++ earlier) := by rw [List.append_assoc]; rfl
          rw [hsuffix] at hclock
          obtain ⟨hle, hclock'⟩ := hclock.of_append.at_call rfl
          subst hsame
          refine absurd ?_ (window_of_allow hlimit hkey hclock' hallow hv' hfull')
          show t' < v'.opened + l.window
          rw [hopened]
          exact hle.trans_lt hhas
    · exact h.asked j hj
  first := by
    obtain ⟨later', i', t', rfl⟩ := h.first
    exact ⟨.recordFailure i t :: later', i', t', rfl⟩
  full := by
    intro since before heq hbefore
    cases since with
    | nil =>
      cases heq
      refine ⟨{ v with marks := v.marks + 1 }, ?_, rfl, ?_⟩
      · rw [List.cons_append, failures, if_pos hsame, window_cons, hwindow, mark, if_pos hhas]
      · push_cast
        omega
    | cons _ since =>
      obtain ⟨rfl, hlater⟩ := List.cons.inj heq
      exact h.full since before hlater hbefore

omit [DecidableEq ι] in
/-- **Every full window has its overrun**: what was recorded since it became full had been let
through before. -/
theorem overrun_calls (hlimit : 0 < which.limit l) (hkey : key ≠ "") (hclock : Clocked now calls)
    (horderly : Orderly l attempts calls)
    (hwindow : window l.window (failures l attempts which key calls) = some v)
    (hfull : which.limit l ≤ v.marks) :
    ∃ later earlier, calls = later ++ earlier ∧ Overrun l attempts which key v later earlier := by
  induction calls generalizing now v with
  | nil => cases hwindow
  | cons call rest ih =>
    have horderly' : Orderly l attempts rest :=
      Orderly.of_append (show Orderly l attempts ([call] ++ rest) from horderly)
    have hquiet : (∀ calls, failures l attempts which key (call :: calls) =
          failures l attempts which key calls) →
        (∀ calls, failing l attempts which key (call :: calls) = failing l attempts which key calls) →
        ∃ later earlier, call :: rest = later ++ earlier ∧
          Overrun l attempts which key v later earlier := by
      intro hfailures hfailing
      rw [hfailures] at hwindow
      obtain ⟨later, earlier, rfl, h⟩ := ih hclock.of_cons horderly' hwindow hfull
      exact ⟨call :: later, earlier, rfl, h.cons_quiet hwindow hfull hfailures (hfailing later)⟩
    cases call with
    | allow i t => exact hquiet (fun _ => rfl) fun _ => rfl
    | recordSuccess i =>
      by_cases hforgiven : which = .name ∧ l.loginKey (attempts i).name = key
      · rw [failures, if_pos hforgiven] at hwindow
        cases hwindow
      · exact hquiet (fun _ => if_neg hforgiven) fun _ => rfl
    | recordFailure i t =>
      by_cases hsame : which.key l (attempts i) = key
      · have hthrough : LetThrough l attempts i rest := horderly [] i t rest rfl
        have hbegin : (v.marks : Int) = which.limit l → ∃ later earlier,
            .recordFailure i t :: rest = later ++ earlier ∧
              Overrun l attempts which key v later earlier := fun hmarks =>
          ⟨[.recordFailure i t], rest, rfl, .begin hsame hwindow hmarks hthrough.asked⟩
        have hmark := hwindow
        rw [failures, if_pos hsame, window_cons, Option.some.injEq] at hmark
        rcases mark_cases l.window t (window l.window (failures l attempts which key rest))
          with ⟨v₀, hbefore, hhas, hgrown⟩ | ⟨-, hopened⟩
        · rw [hgrown] at hmark
          subst hmark
          by_cases hwas : which.limit l ≤ v₀.marks
          · obtain ⟨-, hclock'⟩ := hclock.at_call rfl
            obtain ⟨later, earlier, rfl, h⟩ := ih hclock' horderly' hbefore hwas
            exact ⟨.recordFailure i t :: later, earlier, rfl,
              h.cons_failure hlimit hkey hsame hbefore hwas hhas hclock' hthrough⟩
          · refine hbegin ?_
            push_cast at hfull ⊢
            omega
        · rw [hopened] at hmark
          subst hmark
          refine hbegin ?_
          push_cast at hfull ⊢
          omega
      · exact hquiet (fun _ => if_neg hsame) fun _ => if_neg hsame

/-- **A window** has fewer marks than the limit and what may be under way together. -/
theorem window_bounded (hlimit : 0 < which.limit l) (hkey : key ≠ "") (hclock : Clocked now calls)
    (horderly : Orderly l attempts calls) (hconcurrent : Concurrent l attempts which key k calls)
    (hwindow : window l.window (failures l attempts which key calls) = some v) :
    v.marks ≤ (which.limit l).toNat + k - 1 := by
  by_cases hfull : which.limit l ≤ v.marks
  · obtain ⟨later, earlier, rfl, h⟩ := overrun_calls hlimit hkey hclock horderly hwindow hfull
    have hmarks := h.marks
    have hk : (failing l attempts which key later).length ≤ k := by
      have hall : underway l attempts which key later earlier =
          (failing l attempts which key later).length :=
        List.countP_eq_length.mpr fun i hi => decide_eq_true (h.asked i hi)
      exact hall ▸ hconcurrent later earlier rfl
    omega
  · omega

omit [DecidableEq ι] in
/-- The failures before some of them were the failures at some time. -/
theorem failures_split {recent before : List Time}
    (h : failures l attempts which key calls = recent ++ before) :
    before = [] ∨ ∃ later earlier, calls = later ++ earlier ∧
      failures l attempts which key earlier = before := by
  induction calls generalizing recent with
  | nil => exact .inl (List.append_eq_nil_iff.mp h.symm).2
  | cons call rest ih =>
    have hrest : failures l attempts which key (call :: rest) = failures l attempts which key rest →
        before = [] ∨ ∃ later earlier, call :: rest = later ++ earlier ∧
          failures l attempts which key earlier = before := by
      intro hsame
      rcases ih (hsame ▸ h) with hnil | ⟨later, earlier, rfl, hbefore⟩
      · exact .inl hnil
      · exact .inr ⟨call :: later, earlier, rfl, hbefore⟩
    cases call with
    | allow i t => exact hrest rfl
    | recordSuccess i =>
      by_cases hforgiven : which = .name ∧ l.loginKey (attempts i).name = key
      · rw [failures, if_pos hforgiven] at h
        exact .inl (List.append_eq_nil_iff.mp h.symm).2
      · exact hrest (if_neg hforgiven)
    | recordFailure i t =>
      by_cases hsame : which.key l (attempts i) = key
      · cases recent with
        | nil => exact .inr ⟨[], _, rfl, h⟩
        | cons t' recent =>
          rw [failures, if_pos hsame] at h
          rcases ih (List.cons.inj h).2 with hnil | ⟨later, earlier, rfl, hbefore⟩
          · exact .inl hnil
          · exact .inr ⟨.recordFailure i t :: later, earlier, rfl, hbefore⟩
      · exact hrest (if_neg hsame)

omit [DecidableEq ι] in
theorem failures_sublist (calls : List (LimiterCall ι)) :
    (failures l attempts which key calls).Sublist (callTimes calls) := by
  induction calls with
  | nil => exact .refl _
  | cons call rest ih =>
    cases call with
    | allow i t => exact ih.cons t
    | recordFailure i t =>
      unfold failures
      split_ifs
      · exact ih.cons_cons t
      · exact ih.cons t
    | recordSuccess i =>
      unfold failures
      split_ifs
      · exact List.nil_sublist _
      · exact ih

/-- **Any interval as long as the window** sees fewer than twice as many failures of a key, since it
was last forgiven, as its limit and what may be under way together. -/
theorem failures_interval (hlimit : 0 < which.limit l) (hkey : key ≠ "") (hclock : Clocked now calls)
    (horderly : Orderly l attempts calls) (hconcurrent : Concurrent l attempts which key k calls) :
    ((failures l attempts which key calls).countP fun t => a ≤ t ∧ t < a + l.window) ≤
      2 * ((which.limit l).toNat + k - 1) := by
  refine count_interval ?_ fun recent before v hsplit hwindow => ?_
  · exact (List.pairwise_cons.mp hclock).2.sublist (failures_sublist calls)
  · rcases failures_split hsplit with rfl | ⟨later, earlier, rfl, rfl⟩
    · cases hwindow
    · exact window_bounded hlimit hkey hclock.of_append horderly.of_append hconcurrent.of_append hwindow

end Bound

end Doenerstag
