import Doenerstag.Go

/-!
# The limit on failed logins (`internal/api/ratelimit.go`)

Two counters, one per account name and one per client address, each a fixed window of failures that
begins with the first of them. The maps are functions from their keys; every method locks them, so
that it is one step.
-/

namespace Doenerstag

/-- `counter` -/
structure LoginCounter where
  failures : Int
  expires : Time
  deriving DecidableEq, Repr

/-- `map[string]*counter` -/
abbrev LoginCounters := String → Option LoginCounter

/-- What `LoginLimiter` is set up with. A limit of zero or less disables its counter. -/
structure LoginLimiter where
  rt : Runtime
  perName : Int
  perAddress : Int
  window : Duration

/-- What it counts. -/
structure LoginCounts where
  names : LoginCounters
  addresses : LoginCounters

def LoginCounts.empty : LoginCounts := { names := fun _ => none, addresses := fun _ => none }

namespace LoginLimiter

variable (l : LoginLimiter)

/-- The key a name is counted under. -/
def loginKey (name : String) : String := l.rt.toLower (trimSpace name)

def expireCounters (now : Time) (counters : LoginCounters) : LoginCounters := fun key =>
  (counters key).filter fun c => now < c.expires

def expireLocked (now : Time) (counts : LoginCounts) : LoginCounts where
  names := expireCounters now counts.names
  addresses := expireCounters now counts.addresses

/-- How long the caller has to wait, if it has to. -/
def blockedLocked (counters : LoginCounters) (key : String) (limit : Int) (now : Time) :
    Option Duration :=
  if limit ≤ 0 ∨ key = "" then none
  else match counters key with
    | none => none
    | some c => if c.failures < limit then none else some (c.expires - now)

def bumpLocked (counters : LoginCounters) (key : String) (now : Time) : LoginCounters :=
  if key = "" then counters
  else
    let c := (counters key).getD { failures := 0, expires := now + l.window }
    Function.update counters key (some { c with failures := c.failures + 1 })

/-- `Allow`: nothing, or how long to wait. -/
def allow (name address : String) (now : Time) (counts : LoginCounts) :
    Option Duration × LoginCounts :=
  let counts := expireLocked now counts
  match blockedLocked counts.names (l.loginKey name) l.perName now with
  | some retry => (some retry, counts)
  | none => (blockedLocked counts.addresses address l.perAddress now, counts)

def recordFailure (name address : String) (now : Time) (counts : LoginCounts) : LoginCounts :=
  let counts := expireLocked now counts
  { names := l.bumpLocked counts.names (l.loginKey name) now
    addresses := l.bumpLocked counts.addresses address now }

/-- The name is forgiven, the address is not. -/
def recordSuccess (name : String) (counts : LoginCounts) : LoginCounts :=
  { counts with names := Function.update counts.names (l.loginKey name) none }

end LoginLimiter

end Doenerstag
