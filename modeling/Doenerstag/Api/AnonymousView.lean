import Doenerstag.Api.OrderEvents
import Doenerstag.Sse.Streams

/-!
# What an anonymous caller can tell

Two runs of the server whose orders show the same to everybody, and otherwise differ in whatever way
(`SameView`): an anonymous caller cannot tell them apart, neither by reading the orders nor by
listening to the events of one.
-/

namespace Doenerstag

open ReadCommitted

variable {δ : Type}

/-! ## The events of a call -/

/-- The events are the same for whoever is not logged in. -/
def SameForAnonymous (events events' : List (Sse.Event δ)) : Prop :=
  ∀ s : Sse.Subscriber δ, s.authenticated = false → events.filter s.wants = events'.filter s.wants

section Events

variable {marshal : EventPayload → Option δ} {name : String} {payload : EventPayload}

theorem eventFor_audience {audience : Sse.Audience} {e : Sse.Event δ}
    (he : e ∈ eventFor marshal name audience payload) : e.audience = audience := by
  obtain ⟨data, -, rfl⟩ := List.mem_map.mp he
  rfl

/-- An event for the logged-in is for nobody else. -/
theorem eventFor_hidden {s : Sse.Subscriber δ} (hs : s.authenticated = false) :
    (eventFor marshal name .authenticatedOnly payload).filter s.wants = [] := by
  rw [List.filter_eq_nil_iff]
  intro e he
  simp [Sse.Subscriber.wants, eventFor_audience he, hs]

/-- One event at most is for whom it is for. -/
theorem eventFor_wanted (s : Sse.Subscriber δ) (audience : Sse.Audience) :
    s.wanted (eventFor marshal name audience payload) ≤ 1 := by
  have hlength : (eventFor marshal name audience payload).length ≤ 1 := by
    unfold eventFor
    cases marshal payload with
    | none => exact Nat.zero_le 1
    | some data => exact Nat.le_refl 1
  exact List.countP_le_length.trans hlength

/-- Of an event for the logged-in and one for the others, a subscriber wants one. -/
theorem wanted_pair (s : Sse.Subscriber δ) (hidden shown : String) (payload payload' : EventPayload) :
    s.wanted (eventFor marshal hidden .authenticatedOnly payload) +
      s.wanted (eventFor marshal shown .anonymousOnly payload') ≤ 1 := by
  have hother : ∀ {name : String} {audience : Sse.Audience} {payload : EventPayload},
      (∀ e : Sse.Event δ, e.audience = audience → s.wants e = false) →
      s.wanted (eventFor marshal name audience payload) = 0 := by
    intro name audience payload hwants
    refine List.countP_eq_zero.mpr fun e he => ?_
    simp [hwants e (eventFor_audience he)]
  cases hauth : s.authenticated with
  | false =>
    rw [hother fun e he => by simp [Sse.Subscriber.wants, he, hauth], Nat.zero_add]
    exact eventFor_wanted s _
  | true =>
    have hshown : s.wanted (eventFor marshal shown .anonymousOnly payload') = 0 :=
      hother fun e he => by simp [Sse.Subscriber.wants, he, hauth]
    rw [hshown]
    exact eventFor_wanted s _

theorem wanted_append (s : Sse.Subscriber δ) (events events' : List (Sse.Event δ)) :
    s.wanted (events ++ events') = s.wanted events + s.wanted events' := List.countP_append

end Events

namespace OrderHandlers

variable (h : OrderHandlers) (marshal : EventPayload → Option δ)

theorem itemChangeEvents_alike (orderID : UUID) (name name' : String)
    (payload payload' : EventPayload) :
    Prog.Alike SameView SameForAnonymous (h.itemChangeEvents marshal orderID name payload)
      (h.itemChangeEvents marshal orderID name' payload') := by
  unfold itemChangeEvents
  split_ifs
  · have hcount : Prog.Alike SameView (· = ·)
        (countOrderItems OrderStmt.publish orderID) (countOrderItems OrderStmt.publish orderID) := by
      refine (alike_queryRow fun w w' hview => ?_).mapError _
      exact .some (Db.countOrderItems_sameHeaders hview.valid hview.valid' hview.headers orderID)
    refine hcount.option.bind fun count count' hsame => .done fun s hs => ?_
    have hcounts : count = count' := by
      cases hsame with
      | none => rfl
      | some h => rw [h]
    rw [List.filter_append, List.filter_append, eventFor_hidden hs, eventFor_hidden hs, hcounts]
  · exact .done fun _ _ => rfl

theorem orderChangeEvents_alike {order order' : Order}
    (hsame : order.headerFields = order'.headerFields) :
    Prog.Alike SameView SameForAnonymous (h.orderChangeEvents marshal order)
      (h.orderChangeEvents marshal order') := by
  unfold orderChangeEvents
  split_ifs
  · refine (h.headerNow_alike hsame).bind fun header header' hheader => ?_
    have hentry : Prog.Alike SameView (fun _ _ => True) (h.entryNow order) (h.entryNow order') :=
      (alike_clock fun w w' hview => hview.now).bind fun _ _ _ => .done trivial
    refine hentry.bind fun entry entry' _ => .done fun s hs => ?_
    rw [List.filter_append, List.filter_append, eventFor_hidden hs, eventFor_hidden hs, hheader]
  · exact .done fun _ _ => rfl

end OrderHandlers

namespace PublishCall

variable (h : OrderHandlers) (marshal : EventPayload → Option δ)

/-- **Corresponding calls publish the same for whoever is not logged in.** -/
theorem events_alike {call call' : PublishCall} (hsame : call.Corresponds call') :
    Prog.Alike SameView SameForAnonymous (call.events h marshal) (call'.events h marshal) := by
  cases hsame with
  | itemChange orderID name name' payload payload' =>
    exact (h.itemChangeEvents_alike marshal orderID name name' payload payload').within _ _
  | orderChange same => exact h.orderChangeEvents_alike marshal same

theorem orderID_congr {call call' : PublishCall} (hsame : call.Corresponds call') :
    call.orderID = call'.orderID := by
  cases hsame with
  | itemChange => rfl
  | orderChange same => exact congrArg HeaderFields.id same

/-- No call has more than one event for anybody. -/
theorem events_wanted (call : PublishCall) :
    (call.events h marshal).Returns (fun _ => True) fun events =>
      ∀ s : Sse.Subscriber δ, s.wanted events ≤ 1 := by
  have hnothing : ∀ s : Sse.Subscriber δ, s.wanted [] ≤ 1 := fun _ => Nat.zero_le 1
  cases call with
  | itemChange orderID name payload =>
    refine Prog.Returns.within ?_ _
    unfold OrderHandlers.itemChangeEvents
    split_ifs
    · refine (Prog.Returns.trivially _).bind fun count _ => Prog.returns_done.mpr fun s => ?_
      cases count with
      | none =>
        rw [Option.toList_none, List.flatMap_nil, List.append_nil]
        exact eventFor_wanted s _
      | some n =>
        rw [Option.toList_some, List.flatMap_singleton, wanted_append]
        exact wanted_pair s _ _ _ _
    · exact Prog.returns_done.mpr hnothing
  | orderChange order =>
    show (h.orderChangeEvents marshal order).Returns _ _
    unfold OrderHandlers.orderChangeEvents
    split_ifs
    · refine (Prog.Returns.trivially _).bind fun header _ => ?_
      refine (Prog.Returns.trivially _).bind fun entry _ => Prog.returns_done.mpr fun s => ?_
      rw [wanted_append, Nat.add_comm]
      exact wanted_pair s _ _ _ _
    · exact Prog.returns_done.mpr hnothing

/-- What a call hands to `Publish`, if it gets there, when its statements and its looks at the clock
find what they find. -/
def published (call : PublishCall) (found : List (Outcome × World Db Time)) :
    Option (List (Sse.Event δ)) :=
  match (call.events h marshal).along found with
  | some (.ok events) => some events
  | _ => none

theorem published_wanted {call : PublishCall} {found : List (Outcome × World Db Time)}
    {events : List (Sse.Event δ)} (hpublished : call.published h marshal found = some events)
    (s : Sse.Subscriber δ) : s.wanted events ≤ 1 := by
  unfold published at hpublished
  split at hpublished
  · rename_i events' halong
    cases hpublished
    exact (call.events_wanted h marshal).along halong s
  · cases hpublished

theorem published_alike {call call' : PublishCall} (hsame : call.Corresponds call')
    {found found' : List (Outcome × World Db Time)}
    (hfound : List.Forall₂ (Prog.SameFinding SameView) found found') :
    Option.Rel SameForAnonymous (call.published h marshal found)
      (call'.published h marshal found') := by
  have halong := (events_alike h marshal hsame).along hfound
  unfold published
  revert halong
  generalize (call.events h marshal).along found = r, (call'.events h marshal).along found' = r'
  intro halong
  cases halong with
  | none => exact .none
  | some hmatch =>
    cases hmatch with
    | ok related => exact .some related
    | error x => exact .none

end PublishCall

/-! ## A sequence of calls -/

/-- What happens while a subscriber is connected: a call, with what its statements and its looks at
the clock find, or the subscriber's reader takes an event. -/
inductive CallMoment where
  | call (call : PublishCall) (found : List (Outcome × World Db Time))
  | read

inductive CallMoment.Corresponds : CallMoment → CallMoment → Prop where
  | call {call call' : PublishCall} {found found' : List (Outcome × World Db Time)}
      (same : call.Corresponds call') (states : List.Forall₂ (Prog.SameFinding SameView) found found') :
      Corresponds (.call call found) (.call call' found')
  | read : Corresponds .read .read

/-- The moment in the hub of an order, if it is one there. -/
def momentFor (h : OrderHandlers) (marshal : EventPayload → Option δ) (orderID : UUID) :
    CallMoment → Option (Sse.Moment δ)
  | .call call found =>
    if call.orderID = orderID then (call.published h marshal found).map .publish else none
  | .read => some .read

section Moments

variable (h : OrderHandlers) (marshal : EventPayload → Option δ) (orderID : UUID)

theorem momentFor_wanted {m : CallMoment} {moment : Sse.Moment δ}
    (hm : momentFor h marshal orderID m = some moment) (s : Sse.Subscriber δ) :
    s.wanted moment.events ≤ 1 := by
  cases m with
  | read =>
    cases hm
    exact Nat.zero_le 1
  | call call found =>
    simp only [momentFor] at hm
    split_ifs at hm
    obtain ⟨events, hpublished, rfl⟩ := Option.map_eq_some_iff.mp hm
    exact call.published_wanted h marshal hpublished s

theorem momentFor_alike {m m' : CallMoment} (hsame : m.Corresponds m') {s : Sse.Subscriber δ}
    (hs : s.authenticated = false) :
    Option.Rel (Sse.Moment.SameFor s) (momentFor h marshal orderID m)
      (momentFor h marshal orderID m') := by
  cases hsame with
  | read => exact .some .read
  | @call call call' found found' same states =>
    have hpublished := PublishCall.published_alike h marshal same states
    simp only [momentFor, PublishCall.orderID_congr same]
    split_ifs
    · revert hpublished
      generalize call.published h marshal found = p, call'.published h marshal found' = p'
      intro hpublished
      cases hpublished with
      | none => exact .none
      | some hevents => exact .some (.publish (hevents s hs))
    · exact .none

theorem moments_alike {calls calls' : List CallMoment}
    (hsame : List.Forall₂ CallMoment.Corresponds calls calls') {s : Sse.Subscriber δ}
    (hs : s.authenticated = false) :
    List.Forall₂ (Sse.Moment.SameFor s) (calls.filterMap (momentFor h marshal orderID))
      (calls'.filterMap (momentFor h marshal orderID)) := by
  induction hsame with
  | nil => exact .nil
  | @cons m m' rest rest' hfirst _ ih =>
    have hmoment := momentFor_alike h marshal orderID hfirst hs
    rw [List.filterMap_cons, List.filterMap_cons]
    revert hmoment
    generalize momentFor h marshal orderID m = p, momentFor h marshal orderID m' = p'
    intro hmoment
    cases hmoment with
    | none => exact ih
    | some hsame => exact .cons hsame ih

end Moments

/-- **An anonymous caller cannot tell two runs apart** whose orders show the same to everybody: the
list and every order are the same to read, and a subscriber of an order is sent the same events in
the same order. -/
theorem anonymous_noninterference (h : OrderHandlers) (marshal : EventPayload → Option δ) :
    (∀ (ties : TieBreak) (r : Request Unit) (found found' : List (Outcome × World Db Time)),
      r.principal = none → List.Forall₂ (Prog.SameFinding SameView) found found' →
      (h.list ties r).along found = (h.list ties r).along found' ∧
        (h.get r).along found = (h.get r).along found') ∧
    ∀ (orderID : UUID) (calls calls' : List CallMoment) (hub hub' : Sse.HubID) (x x' : Sse.SubID)
      (heap heap' after after' : Sse.Heap δ) (got got' : List (Sse.Event δ)),
      List.Forall₂ CallMoment.Corresponds calls calls' →
      heap.Tidy hub → heap'.Tidy hub' → (heap.subs x).authenticated = false →
      heap.stream hub x [] = heap'.stream hub' x' [] →
      Sse.Watched orderID hub x heap [] (calls.filterMap (momentFor h marshal orderID)) after got →
      Sse.Watched orderID hub' x' heap' [] (calls'.filterMap (momentFor h marshal orderID)) after'
        got' →
      got = got' ∧ (after.subs x).events = (after'.subs x').events := by
  constructor
  · intro ties r found found' hanonymous hfound
    exact ⟨(h.list_alike ties hanonymous).along_eq hfound, (h.get_alike hanonymous).along_eq hfound⟩
  · intro orderID calls calls' hub hub' x x' heap heap' after after' got got' hcalls htidy htidy'
      hanonymous hstart hwatched hwatched'
    have hwanted : ∀ (calls : List CallMoment),
        ∀ m ∈ calls.filterMap (momentFor h marshal orderID), ∀ s : Sse.Subscriber δ,
          s.wanted m.events ≤ 1 := by
      intro calls m hm s
      obtain ⟨call, -, hmoment⟩ := List.mem_filterMap.mp hm
      exact momentFor_wanted h marshal orderID hmoment s
    have hstream := (hwatched.stream htidy (hwanted calls)).2
    have hstream' := (hwatched'.stream htidy' (hwanted calls')).2
    have hsame : after.stream hub x got = after'.stream hub' x' got' := by
      rw [hstream, hstream', ← hstart]
      exact Sse.Stream.after_congr (moments_alike h marshal orderID hcalls hanonymous)
    exact ⟨congrArg Sse.Stream.got hsame,
      congrArg (fun s => (Sse.Stream.sub s).events) hsame⟩

/-! ## Two lunches -/

/-- The small database with one item, and what nobody who is not logged in may know of it. -/
def secretLunch (user : String) (quantity : Int64) (note : Option String) (paid : Bool) : Db :=
  { lunch with
    appUsers := [{ id := ⟨1⟩, name := user, displayName := none, passwordHash := "*", email := none
                   isAdmin := false, lastLoginAt := none }]
    orderItems := [{ id := ⟨7⟩, orderID := ⟨6⟩, userID := ⟨1⟩, menuItemID := ⟨4⟩, quantity
                     itemName := "Kebab", unitPriceCents := 500, note, paid, createdAt := 0
                     updatedAt := 0, updatedBy := none }] }

def annasSecret : Db := secretLunch "anna" 1 none false
def bensSecret : Db := secretLunch "ben" 3 (some "no onions") true

theorem annasSecret_valid : annasSecret.Valid where
  keys := by constructor <;> decide +kernel
  refs := by constructor <;> decide +kernel
  checks := by constructor <;> decide +kernel

theorem bensSecret_valid : bensSecret.Valid where
  keys := by constructor <;> decide +kernel
  refs := by constructor <;> decide +kernel
  checks := by constructor <;> decide +kernel

theorem secrets_sameView : SameView ⟨annasSecret, 0⟩ ⟨bensSecret, 0⟩ where
  now := rfl
  valid := annasSecret_valid
  valid' := bensSecret_valid
  headers := by
    have heq : annasSecret.headers = bensSecret.headers := by decide
    exact .of_eq heq

/-- A server in UTC with an event stream. -/
def liveHandlers : OrderHandlers where
  rt := .ascii
  events := true

def nobody : Request Unit where
  id := UUID.string ⟨6⟩
  iid := ""
  principal := none
  body := .ok ()

/-- A heap with one subscriber of the order, who is not logged in. -/
def oneStranger : Sse.Heap EventPayload := ((Sse.Heap.empty.openHub ⟨6⟩).1.join 0 false).1

theorem oneStranger_tidy : oneStranger.Tidy 0 := ⟨by decide, by decide⟩

/-- What is published when the one item has changed in one way or another. -/
def itemEvents (name : String) (payload : EventPayload) : List (Sse.Event EventPayload) :=
  [{ name, audience := .authenticatedOnly, data := payload },
    { name := Sse.eventOrderItemCount, audience := .anonymousOnly, data := .itemCount 1 }]

theorem watched_item (w : World Db Time) (hcount : w.db.countOrderItems ⟨6⟩ = 1) (name : String)
    (payload : EventPayload) :
    Sse.Watched ⟨6⟩ 0 0 oneStranger []
      ([CallMoment.call (.itemChange ⟨6⟩ name payload) [(.ok, w)]].filterMap
        (momentFor liveHandlers some ⟨6⟩))
      (oneStranger.deliver 0 (itemEvents name payload) [0]).1 [] := by
  have hmoments : [CallMoment.call (.itemChange ⟨6⟩ name payload) [(.ok, w)]].filterMap
      (momentFor liveHandlers some ⟨6⟩) = [] ++ [.publish (itemEvents name payload)] := by
    have hpublished : (PublishCall.itemChange ⟨6⟩ name payload).published liveHandlers some
        [(.ok, w)] = some (itemEvents name payload) := by
      have hcounted : (PublishCall.itemChange ⟨6⟩ name payload).published liveHandlers some
          [(.ok, w)] = some [
            { name, audience := .authenticatedOnly, data := payload },
            { name := Sse.eventOrderItemCount, audience := .anonymousOnly
              data := .itemCount (w.db.countOrderItems ⟨6⟩) }] := rfl
      rw [hcounted, hcount]
      rfl
    simp [momentFor, PublishCall.orderID, hpublished]
  rw [hmoments]
  exact Sse.Watched.start.publish _ (by decide) (.refl _)

/-- Two lunches that show the same. -/
theorem anonymous_noninterference_lunch :
    (liveHandlers.list .byID nobody).along (List.replicate 3 (.ok, ⟨annasSecret, 0⟩)) =
      (liveHandlers.list .byID nobody).along (List.replicate 3 (.ok, ⟨bensSecret, 0⟩)) ∧
    ((oneStranger.deliver 0 (itemEvents Sse.eventItemCreated (.id "a")) [0]).1.subs 0).events =
      ((oneStranger.deliver 0 (itemEvents Sse.eventItemDeleted (.id "b")) [0]).1.subs 0).events := by
  obtain ⟨hread, hevents⟩ := anonymous_noninterference liveHandlers (some : EventPayload → _)
  have hfound : List.Forall₂ (Prog.SameFinding SameView)
      (List.replicate 3 (Outcome.ok, ⟨annasSecret, 0⟩)) (List.replicate 3 (Outcome.ok, ⟨bensSecret, 0⟩)) :=
    .cons ⟨rfl, secrets_sameView⟩ (.cons ⟨rfl, secrets_sameView⟩
      (.cons ⟨rfl, secrets_sameView⟩ .nil))
  refine ⟨(hread .byID nobody _ _ rfl hfound).1, ?_⟩
  have hcalls : List.Forall₂ CallMoment.Corresponds
      [.call (.itemChange ⟨6⟩ Sse.eventItemCreated (.id "a")) [(.ok, ⟨annasSecret, 0⟩)]]
      [.call (.itemChange ⟨6⟩ Sse.eventItemDeleted (.id "b")) [(.ok, ⟨bensSecret, 0⟩)]] :=
    .cons (.call (.itemChange _ _ _ _ _) (.cons ⟨rfl, secrets_sameView⟩ .nil)) .nil
  exact (hevents ⟨6⟩ _ _ 0 0 0 0 oneStranger oneStranger _ _ [] [] hcalls oneStranger_tidy
    oneStranger_tidy rfl rfl (watched_item _ (by decide) _ _) (watched_item _ (by decide) _ _)).2

end Doenerstag
