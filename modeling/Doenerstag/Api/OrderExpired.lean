import Doenerstag.Api.Orders
import Doenerstag.Lib.Interleaving
import Doenerstag.Lib.Transition

/-!
# The end of an order, as its open pages hear of it (`internal/api/events.go`)

Nothing is written when a deadline passes, so every stream watches the deadline of its own order: it
arms a timer when it opens and sends `order.expired` when the timer goes off. The deadline is the one
the stream read when it opened, and `PATCH` may have moved it since.

* `Step` — any number of `PATCH` requests and of streams, statement by statement.
* `expired_on_time` — **as long as no timer goes off on a deadline that was put off**, every
  `order.expired` comes after the deadline, and each stream sends one at most.
* `expires_early_iff` — a timer that goes off at its moment is early exactly on such a deadline.
* `expired_early` — a `PATCH` puts the deadline off, and the open page hears of the old one.
-/

namespace Doenerstag

open ReadCommitted Prog

/-! ## The timer -/

/-- `never` -/
def expiryNever : Duration := 100 * 365 * 24 * Time.hour

/-- `expiryTimer`: the moment at which it goes off. `Sub` is kept within a `Duration`, and what it
cannot hold is beyond `never` as well. -/
def expiryTimer (order : Order) (now : Time) : Time :=
  let remaining := order.deadlineAt - now
  if remaining ≤ 0 ∨ expiryNever < remaining then now + expiryNever else now + remaining

/-- A deadline to come, within a hundred years, is the moment of its timer. -/
theorem expiryTimer_ahead {order : Order} {now : Time} (hahead : now < order.deadlineAt)
    (hnear : order.deadlineAt - now ≤ expiryNever) : expiryTimer order now = order.deadlineAt := by
  have hremains : ¬ (order.deadlineAt - now ≤ 0 ∨ expiryNever < order.deadlineAt - now) := by
    rintro (hpast | hfar)
    · exact absurd hahead (Int.not_lt.mpr (Int.le_of_sub_nonpos hpast))
    · exact absurd hfar (Int.not_lt.mpr hnear)
  show (if _ then _ else now + (order.deadlineAt - now)) = _
  rw [if_neg hremains, Int.add_comm, Int.sub_add_cancel]

/-- A timer goes off after the deadline it was armed for, unless that is too far away. -/
theorem deadline_le_expiryTimer {order : Order} {now : Time}
    (hnear : order.deadlineAt - now ≤ expiryNever) : order.deadlineAt ≤ expiryTimer order now := by
  by_cases hahead : now < order.deadlineAt
  · rw [expiryTimer_ahead hahead hnear]
  · -- the order was over when the stream opened
    have hpast : order.deadlineAt - now ≤ 0 := Int.sub_nonpos_of_le (Int.not_lt.mp hahead)
    have hnever : (0 : Int) ≤ expiryNever := by decide
    show _ ≤ (if _ then now + expiryNever else _)
    rw [if_pos (.inl hpast)]
    exact Int.le_trans (Int.not_lt.mp hahead) (Int.le_add_of_nonneg_right hnever)

/-! ## The streams -/

/-- A stream, from the request that opens it on. -/
inductive OrderStream where
  /-- `lookupOrder`, or what is left of it -/
  | opening (lookup : Handler OrderStmt Order)
  /-- the loop, with the order as it was read and the moment at which the timer was armed -/
  | watching (order : Order) (armed : Time)
  /-- the loop, once the timer has gone off -/
  | expired (order : Order)
  | closed

/-- An `order.expired`: who sent it about which order, and when. -/
structure Expiry (κ : Type) where
  stream : κ
  orderID : UUID
  world : World Db Time

/-- A server with `PATCH` requests under way and streams. -/
structure LiveOrders (ι κ : Type) where
  patches : Config ι OrderStmt Outcome (World Db Time) ApiError OrderResponse
  streams : κ → OrderStream
  expiries : List (Expiry κ)

namespace LiveOrders

variable {ι κ : Type} [DecidableEq κ]

def world (s : LiveOrders ι κ) : World Db Time := s.patches.state

def setWorld (s : LiveOrders ι κ) (w : World Db Time) : LiveOrders ι κ :=
  { s with patches := { s.patches with state := w } }

def setStream (s : LiveOrders ι κ) (k : κ) (stream : OrderStream) : LiveOrders ι κ :=
  { s with streams := Function.update s.streams k stream }

/-- Stream `k` sends `order.expired`. -/
def expire (s : LiveOrders ι κ) (k : κ) (order : Order) : LiveOrders ι κ :=
  { s.setStream k (.expired order) with expiries := ⟨k, order.id, s.world⟩ :: s.expiries }

/-- All requests at their start: the ones to change an order, and the ones to watch one. -/
def start (h : OrderHandlers) (patches : ι → Request OrderHandlers.PatchOrderRequest) (opens : κ → Request Unit)
    (w : World Db Time) : LiveOrders ι κ where
  patches := { state := w, procs := fun i => h.patch (patches i) }
  streams := fun k => .opening (h.lookupOrder (opens k))
  expiries := []

/-- One step of a `PATCH` or of a stream, or a move of the environment. -/
inductive Step [DecidableEq ι] (h : OrderHandlers) (Env : World Db Time → World Db Time → Prop) :
    LiveOrders ι κ → LiveOrders ι κ → Prop where
  | patch {s : LiveOrders ι κ} {m : Mover ι OrderStmt}
      {patches : Config ι OrderStmt Outcome (World Db Time) ApiError OrderResponse}
      (move : Prog.Step Env s.patches m patches) : Step h Env s { s with patches }
  | lookup {s : LiveOrders ι κ} {k : κ} {l : OrderStmt}
      {effect : Outcome → World Db Time → World Db Time}
      {next : Outcome → World Db Time → Handler OrderStmt Order}
      (opening : s.streams k = .opening (.step l effect next)) (e : Outcome) :
      Step h Env s ((s.setStream k (.opening (next e s.world))).setWorld (effect e s.world))
  | arm {s : LiveOrders ι κ} {k : κ} {order : Order} (opening : s.streams k = .opening (.done order))
      (wired : h.events = true) : Step h Env s (s.setStream k (.watching order s.world.now))
  /-- the timer's turn in the `select` -/
  | expiry {s : LiveOrders ι κ} {k : κ} {order : Order} {armed : Time}
      (watching : s.streams k = .watching order armed)
      (due : expiryTimer order armed ≤ s.world.now) : Step h Env s (s.expire k order)
  /-- an event of the hub, or a ping: the timer is as it was -/
  | other (s : LiveOrders ι κ) : Step h Env s s
  /-- the request is refused, the client goes away, or nothing can be written to it -/
  | close (s : LiveOrders ι κ) (k : κ) : Step h Env s (s.setStream k .closed)

/-! ## What goes off when -/

/-- The timer of stream `k` goes off in this step. -/
def GoesOff (k : κ) (order : Order) (armed : Time) (s s' : LiveOrders ι κ) : Prop :=
  s.streams k = .watching order armed ∧ s'.streams k = .expired order

/-- The order's deadline is later than when the stream opened. -/
def PutOff (s : LiveOrders ι κ) (order : Order) : Prop :=
  ∃ o, s.world.db.foodOrder order.id = some o ∧ order.deadlineAt < o.deadlineAt

/-- No timer goes off on a deadline that was put off, and none for a deadline a hundred years away. -/
def OnOldDeadline (s s' : LiveOrders ι κ) : Prop :=
  ∀ k order armed, GoesOff k order armed s s' →
    ¬ s.PutOff order ∧ order.deadlineAt - armed ≤ expiryNever

end LiveOrders

/-- The order's deadline had passed. An order that is gone has none. -/
def Expiry.Passed {κ : Type} (x : Expiry κ) : Prop :=
  ∀ o, x.world.db.foodOrder x.orderID = some o → o.deadlineAt ≤ x.world.now

instance {κ : Type} (x : Expiry κ) : Decidable x.Passed :=
  match h : x.world.db.foodOrder x.orderID with
  | none => .isTrue fun _ ho => by rw [h] at ho; cases ho
  | some o => decidable_of_iff (o.deadlineAt ≤ x.world.now)
      ⟨fun hle _ ho => by rw [h] at ho; cases ho; exact hle, fun hall => hall o h⟩

/-! ## Never early, and never twice -/

/-- What holds of the `order.expired` that were sent. -/
structure Heard {ι κ : Type} (s : LiveOrders ι κ) : Prop where
  passed : ∀ x ∈ s.expiries, x.Passed
  /-- who has sent one is past its timer -/
  past : ∀ x ∈ s.expiries, s.streams x.stream = .closed ∨
    ∃ order, s.streams x.stream = .expired order
  once : (s.expiries.map Expiry.stream).Nodup

section Steps

variable {ι κ : Type} {s s' : LiveOrders ι κ}

open LiveOrders

/-- A stream that is not past its timer has sent nothing. -/
theorem Heard.not_sent (hheard : Heard s) {k : κ} {stream : OrderStream}
    (hk : s.streams k = stream) (hclosed : stream ≠ .closed)
    (hexpired : ∀ order, stream ≠ .expired order) : ∀ x ∈ s.expiries, x.stream ≠ k := by
  rintro x hx rfl
  rcases hheard.past x hx with hpast | ⟨order, hpast⟩
  · exact hclosed (hk.symm.trans hpast)
  · exact hexpired order (hk.symm.trans hpast)

/-- Another stream goes on, or one closes: what was sent was sent by streams past their timers. -/
theorem Heard.setStream [DecidableEq κ] (hheard : Heard s) {k : κ} {stream : OrderStream}
    (hk : stream = .closed ∨ ∀ x ∈ s.expiries, x.stream ≠ k) : Heard (s.setStream k stream) where
  passed := hheard.passed
  once := hheard.once
  past := by
    intro x hx
    show Function.update s.streams k stream x.stream = _ ∨
      ∃ order, Function.update s.streams k stream x.stream = _
    by_cases hxk : x.stream = k
    · rw [hxk, Function.update_self]
      exact .inl (hk.resolve_right fun hothers => hothers x hx hxk)
    · rw [Function.update_of_ne hxk]
      exact hheard.past x hx

/-- **One step.** -/
theorem Heard.step [DecidableEq ι] [DecidableEq κ] {h : OrderHandlers}
    {Env : World Db Time → World Db Time → Prop} (hheard : Heard s) (hstep : Step h Env s s') (hold : OnOldDeadline s s') :
    Heard s' := by
  cases hstep with
  | patch _ => exact ⟨hheard.passed, hheard.past, hheard.once⟩
  | other => exact hheard
  | close k => exact hheard.setStream (.inl rfl)
  | @lookup k l effect next opening e =>
    have hnext : Heard (s.setStream k (.opening (next e s.world))) :=
      hheard.setStream (.inr (hheard.not_sent opening (by simp) (by simp)))
    exact ⟨hnext.passed, hnext.past, hnext.once⟩
  | @arm k order opening wired =>
    exact hheard.setStream (.inr (hheard.not_sent opening (by simp) (by simp)))
  | @expiry k order armed watching due =>
    have hnone := hheard.not_sent watching (by simp) (by simp)
    have hgone : (s.expire k order).streams k = .expired order := Function.update_self ..
    obtain ⟨hkept, hnear⟩ := hold k order armed ⟨watching, hgone⟩
    have hset : Heard (s.setStream k (.expired order)) := hheard.setStream (.inr hnone)
    refine ⟨?_, ?_, ?_⟩
    · intro x hx
      rcases List.mem_cons.mp hx with rfl | hx
      · -- the order's deadline is at most the one the timer was armed for
        intro o ho
        have hnow : o.deadlineAt ≤ order.deadlineAt := Int.not_lt.mp fun hlater => hkept ⟨o, ho, hlater⟩
        exact Int.le_trans hnow (Int.le_trans (deadline_le_expiryTimer hnear) due)
      · exact hheard.passed x hx
    · intro x hx
      rcases List.mem_cons.mp hx with rfl | hx
      · exact .inr ⟨order, hgone⟩
      · exact hset.past x hx
    · show (k :: s.expiries.map Expiry.stream).Nodup
      refine List.nodup_cons.mpr ⟨fun hmem => ?_, hheard.once⟩
      obtain ⟨x, hx, hxk⟩ := List.mem_map.mp hmem
      exact hnone x hx hxk

end Steps

/-- **`order.expired` is on time**, in a run in which no timer goes off on a deadline that was put
off: each comes when the order's deadline of that moment has passed, and none comes twice. -/
theorem expired_on_time {ι κ : Type} [DecidableEq ι] [DecidableEq κ] (h : OrderHandlers)
    (Env : World Db Time → World Db Time → Prop)
    (patches : ι → Request OrderHandlers.PatchOrderRequest) (opens : κ → Request Unit)
    (w : World Db Time) {s : LiveOrders ι κ}
    (hrun : Transition.Run (LiveOrders.Step h Env) LiveOrders.OnOldDeadline
      (.start h patches opens w) s) :
    (∀ x ∈ s.expiries, x.Passed) ∧ (s.expiries.map Expiry.stream).Nodup := by
  have hstart : Heard (LiveOrders.start h patches opens w) :=
    ⟨fun x hx => (by cases hx), fun x hx => (by cases hx), List.nodup_nil⟩
  have hheard : Heard s :=
    hrun.invariant (fun _ _ hstep hold hheard => Heard.step hheard hstep hold) hstart
  exact ⟨hheard.passed, hheard.once⟩

/-- **When it is early.** A timer that goes off at its own moment is early if and only if the deadline
was put off. -/
theorem expires_early_iff {ι κ : Type} (s : LiveOrders ι κ) (k : κ) {order : Order} {armed : Time}
    (hahead : armed < order.deadlineAt) (hnear : order.deadlineAt - armed ≤ expiryNever)
    (hmoment : s.world.now = expiryTimer order armed) :
    ¬ (Expiry.mk k order.id s.world).Passed ↔ s.PutOff order := by
  rw [expiryTimer_ahead hahead hnear] at hmoment
  constructor
  · intro hearly
    by_contra hkept
    refine hearly fun o ho => ?_
    rw [hmoment]
    exact Int.not_lt.mp fun hlater => hkept ⟨o, ho, hlater⟩
  · rintro ⟨o, ho, hlater⟩ hpassed
    have hnow : o.deadlineAt ≤ s.world.now := hpassed o ho
    rw [hmoment] at hnow
    exact Int.not_lt.mpr hnow hlater

/-! ## An open page -/

namespace LiveOrders

section Script

variable {ι κ : Type} [DecidableEq κ] (s : LiveOrders ι κ) (k : κ)

/-- The next statement of the stream's `lookupOrder` goes well. -/
def look : LiveOrders ι κ :=
  match s.streams k with
  | .opening (.step _ effect next) =>
    (s.setStream k (.opening (next .ok s.world))).setWorld (effect .ok s.world)
  | _ => s

/-- The stream goes into its loop. -/
def enter : LiveOrders ι κ :=
  match s.streams k with
  | .opening (.done order) => s.setStream k (.watching order s.world.now)
  | _ => s

/-- The timer goes off if it is due. -/
def ring : LiveOrders ι κ :=
  match s.streams k with
  | .watching order armed =>
    if expiryTimer order armed ≤ s.world.now then s.expire k order else s
  | _ => s

def wait (now : Time) : LiveOrders ι κ := s.setWorld { s.world with now }

/-- A `PATCH` makes its next statements, with these outcomes. -/
def patchOn [DecidableEq ι] (i : ι) (es : List Outcome) : LiveOrders ι κ :=
  { s with patches := s.patches.advance i es }

variable [DecidableEq ι] {h : OrderHandlers} {Env : World Db Time → World Db Time → Prop}

theorem step_look : Step h Env s (s.look k) := by
  unfold look
  split
  · exact .lookup (by assumption) .ok
  · exact .other s

theorem step_enter (hwired : h.events = true) : Step h Env s (s.enter k) := by
  unfold enter
  split
  · exact .arm (by assumption) hwired
  · exact .other s

theorem step_ring : Step h Env s (s.ring k) := by
  unfold ring
  split
  · split_ifs with hdue
    · exact .expiry (by assumption) hdue
    · exact .other s
  · exact .other s

theorem step_wait (now : Time) (hchange : Env s.world { s.world with now }) :
    Step h Env s (s.wait now) :=
  .patch (.env hchange)

theorem run_patchOn (i : ι) (es : List Outcome) :
    Transition.Run (Step h Env) (fun _ _ => True) s (s.patchOn i es) := by
  induction es generalizing s with
  | nil => exact .refl s
  | cons e rest ih =>
    unfold patchOn Config.advance
    split
    · rename_i l effect next hat
      have hfirst : Transition.Run (Step h Env) (fun _ _ => True) s _ :=
        (Transition.Run.refl s).tail (.patch (.exec hat e)) trivial
      exact hfirst.trans (ih _)
    · exact .refl s

end Script

end LiveOrders

/-- The order a stream has its timer armed for, and since when. -/
def OrderStream.watched : OrderStream → Option (Order × Time)
  | .watching order armed => some (order, armed)
  | _ => none

/-- Anna puts the deadline of the order of `lunch` off by half an hour. -/
def putOff : Request OrderHandlers.PatchOrderRequest :=
  { id := (UUID.mk 6).string
    iid := ""
    principal := some { userID := ⟨1⟩, isAdmin := false }
    body := .ok { restaurantID := none, fulfilment := none
                  fulfilmentAt := some "1970-01-01T01:00:00Z"
                  deadlineAt := some "1970-01-01T00:30:00Z"
                  moneyCollectorID := none, pickupPersonID := none } }

def openPage : Request Unit :=
  { id := (UUID.mk 6).string, iid := "", principal := none, body := .ok () }

def streamingHandlers : OrderHandlers := { plainHandlers with events := true }

/-- Somebody opens the page of the order. -/
def pageOpened : LiveOrders Unit Unit :=
  ((LiveOrders.start streamingHandlers (fun _ => putOff) (fun _ => openPage)
    { db := lunch, now := 0 }).look ()).enter ()

/-- The deadline passes. -/
def pageExpired : LiveOrders Unit Unit := (pageOpened.wait 100000).ring ()

/-- Anna puts the deadline off, and then the old one passes. -/
def pageMisled : LiveOrders Unit Unit := ((pageOpened.patchOn () (.replicate 9 .ok)).wait 100000).ring ()

theorem pageOpened_run {C : LiveOrders Unit Unit → LiveOrders Unit Unit → Prop}
    (hC : ∀ s s' : LiveOrders Unit Unit, (s.streams ()).watched = none → C s s') :
    Transition.Run (LiveOrders.Step streamingHandlers OnlyTime) C
      (.start streamingHandlers (fun _ => putOff) (fun _ => openPage) { db := lunch, now := 0 })
      pageOpened := by
  have hlooked : Transition.Run (LiveOrders.Step streamingHandlers OnlyTime) C
      (.start streamingHandlers (fun _ => putOff) (fun _ => openPage) { db := lunch, now := 0 }) _ :=
    (Transition.Run.refl _).tail (LiveOrders.step_look _ ()) (hC _ _ rfl)
  exact hlooked.tail (LiveOrders.step_enter _ () rfl) (hC _ _ rfl)

/-- Left alone, the order expires on the page when its deadline passes. -/
theorem expired_on_time_lunch :
    pageExpired.expiries.map Expiry.stream = [()] ∧ ∀ x ∈ pageExpired.expiries, x.Passed := by
  have hopened : Transition.Run (LiveOrders.Step streamingHandlers OnlyTime) LiveOrders.OnOldDeadline
      (.start streamingHandlers (fun _ => putOff) (fun _ => openPage) { db := lunch, now := 0 })
      pageOpened :=
    pageOpened_run fun s s' hnone k order armed hoff => by
      rw [show s.streams () = _ from hoff.1] at hnone
      cases hnone
  have hwaited := hopened.tail (LiveOrders.step_wait pageOpened 100000 rfl)
    fun k order armed hoff => by
      have hsame : OrderStream.watching order armed = .expired order := hoff.1.symm.trans hoff.2
      cases hsame
  have hrung := hwaited.tail (LiveOrders.step_ring _ ()) fun k order armed hoff => by
    have hread : (pageOpened.streams ()).watched.map (fun p => (p.1.id, p.1.deadlineAt, p.2)) =
        some (⟨6⟩, 100000, 0) := by decide +kernel
    rw [show pageOpened.streams () = .watching order armed from hoff.1] at hread
    obtain ⟨hid, hdeadline, harmed⟩ : order.id = ⟨6⟩ ∧ order.deadlineAt = 100000 ∧ armed = 0 := by
      simpa [OrderStream.watched] using hread
    have hrow : ((pageOpened.wait 100000).world.db.foodOrder ⟨6⟩).map FoodOrderRow.deadlineAt =
        some 100000 := by decide +kernel
    refine ⟨?_, by rw [hdeadline, harmed]; decide⟩
    rintro ⟨o, ho, hlater⟩
    rw [hid] at ho
    rw [ho, Option.map_some, Option.some.injEq] at hrow
    rw [hrow, hdeadline] at hlater
    exact Int.lt_irrefl 100000 hlater
  exact ⟨by decide +kernel, (expired_on_time _ _ _ _ _ hrung).1⟩

/-- **The page hears of a deadline that was put off.** -/
theorem expired_early :
    ¬ ∀ (h : OrderHandlers) (patches : Unit → Request OrderHandlers.PatchOrderRequest)
      (opens : Unit → Request Unit) (w : World Db Time) (s : LiveOrders Unit Unit),
      Transition.Run (LiveOrders.Step h OnlyTime) (fun _ _ => True) (.start h patches opens w) s →
      (∀ x ∈ s.expiries, x.Passed) ∧ (s.expiries.map Expiry.stream).Nodup := by
  intro hevery
  have hopened := pageOpened_run (C := fun _ _ => True) fun _ _ _ => trivial
  have hpatched := hopened.trans (LiveOrders.run_patchOn _ () (.replicate 9 .ok))
  have hmisled := (hpatched.tail (LiveOrders.step_wait _ 100000 rfl) trivial).tail
    (LiveOrders.step_ring _ ()) trivial
  have hearly : ∃ x ∈ pageMisled.expiries, ¬ x.Passed := by decide +kernel
  obtain ⟨x, hx, hnot⟩ := hearly
  exact hnot ((hevery _ _ _ _ _ hmisled).1 x hx)

end Doenerstag
