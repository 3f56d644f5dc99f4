import Doenerstag.Sse.Streams

/-!
# Nothing is lost, doubled or out of order

Beside a run of the hubs a record is kept: what has been published to each hub, where in that each
subscriber joined, and what its reader has taken out of its channel. The record is history only, it
changes no step.

* `Records` — a step, and what it adds to the record; `Step.records` finds it for every step.
* `deliver_appends` — what one publication appends to one channel.
* `Fed.step` — every step keeps a subscriber fed.
* `delivered_inOrder` — **in every run, a subscriber has got, in order and none twice, events it
  wants of those published since it joined; unless a `Publish` has panicked it has got them all up
  to a point, and as long as it is in its hub every one of them.**
-/

namespace Doenerstag.Sse

variable {ι δ : Type}

/-! ## One publication, one channel -/

/-- A send that finds the channel closed appends nothing. -/
theorem sendAll_ofClosed (s : Subscriber δ) (dropped : Bool) (events : List (Event δ))
    (hclosed : s.closed = true) : (s.sendAll dropped events).sub = s := by
  induction events with
  | nil => rfl
  | cons e rest ih =>
    cases hwants : s.wants e with
    | false =>
      rw [sendAll_unwanted hwants]
      exact ih
    | true => rw [sendAll_onClosed hwants hclosed]

/-- What the loop over the events appends to a channel: some first part of the events the subscriber
wants, and all of them if it neither drops the subscriber nor panics. The buffer holds them. -/
structure Appends (s : Subscriber δ) (events : List (Event δ)) (sent : Sent δ)
    (appended : List (Event δ)) : Prop where
  wanted : appended <+: events.filter s.wants
  channel : sent.sub.events = s.events ++ appended
  all : sent.dropped = false → sent.panicked = false → appended = events.filter s.wants
  buffer : s.events.length ≤ subscriberBuffer → sent.sub.events.length ≤ subscriberBuffer

theorem sendAll_appends (s : Subscriber δ) (dropped : Bool) (events : List (Event δ)) :
    ∃ appended, Appends s events (s.sendAll dropped events) appended := by
  induction events generalizing s dropped with
  | nil => exact ⟨[], List.nil_prefix, (List.append_nil _).symm, fun _ _ => rfl, id⟩
  | cons e rest ih =>
    cases hwants : s.wants e with
    | false =>
      obtain ⟨appended, h⟩ := ih s dropped
      have hfilter : (e :: rest).filter s.wants = rest.filter s.wants :=
        List.filter_cons_of_neg (by simp [hwants])
      rw [sendAll_unwanted hwants]
      exact ⟨appended, hfilter ▸ h.wanted, h.channel, hfilter ▸ h.all, h.buffer⟩
    | true =>
      have hfilter : (e :: rest).filter s.wants = e :: rest.filter s.wants :=
        List.filter_cons_of_pos hwants
      cases hclosed : s.closed with
      | true =>
        rw [sendAll_onClosed hwants hclosed]
        exact ⟨[], List.nil_prefix, (List.append_nil _).symm, nofun, id⟩
      | false =>
        by_cases hroom : s.events.length < subscriberBuffer
        · rw [sendAll_room hwants hclosed hroom]
          obtain ⟨appended, h⟩ := ih { s with events := s.events ++ [e] } dropped
          refine ⟨e :: appended, ?_, ?_, fun hkept hcalm => ?_, fun _ => h.buffer ?_⟩
          · rw [hfilter]
            exact List.cons_prefix_cons.mpr ⟨rfl, h.wanted⟩
          · rw [h.channel, List.append_assoc]
            rfl
          · rw [hfilter]
            exact congrArg (e :: ·) (h.all hkept hcalm)
          · rw [List.length_append]
            exact hroom
        · -- the subscriber is dropped and its channel closed, so nothing more gets in
          rw [sendAll_full hwants hclosed hroom]
          have hsub := sendAll_ofClosed s.close true rest rfl
          refine ⟨[], List.nil_prefix, ?_, fun hkept => ?_, fun h => ?_⟩
          · rw [hsub]
            exact (List.append_nil _).symm
          · rw [sendAll_dropped] at hkept
            exact Bool.noConfusion hkept
          · rw [hsub]
            exact h

namespace Heap

/-- What a publication does to the channel of one of its hub's subscribers. -/
structure Delivers (heap : Heap δ) (hub : HubID) (events : List (Event δ)) (x : SubID)
    (heap' : Heap δ) (panicked : Bool) (appended : List (Event δ)) : Prop where
  authenticated : (heap'.subs x).authenticated = (heap.subs x).authenticated
  wanted : appended <+: events.filter (heap.subs x).wants
  channel : (heap'.subs x).events = (heap.subs x).events ++ appended
  all : panicked = false → x ∈ heap'.subscribers hub →
    appended = events.filter (heap.subs x).wants
  buffer : (heap.subs x).events.length ≤ subscriberBuffer →
    (heap'.subs x).events.length ≤ subscriberBuffer

/-- **One publication** appends to the channel of a subscriber of the hub a first part of what it
wants of the events, and all of that unless the subscriber is dropped or a send panics. -/
theorem deliver_appends (heap : Heap δ) (hub : HubID) (events : List (Event δ))
    {visit : List SubID} (hnodup : visit.Nodup) {x : SubID} (hx : x ∈ visit) :
    ∃ appended, heap.Delivers hub events x (heap.deliver hub events visit).1
      (heap.deliver hub events visit).2 appended := by
  induction visit generalizing heap with
  | nil => exact absurd hx List.not_mem_nil
  | cons sub rest ih =>
    obtain ⟨hnew, hnodup'⟩ := List.nodup_cons.mp hnodup
    rw [deliver_cons]
    simp only
    rcases List.mem_cons.mp hx with rfl | hin
    · -- its own turn, and then the others', which do not touch it
      obtain ⟨appended, h⟩ := sendAll_appends (heap.subs x) false events
      have hauth := sendAll_authenticated (heap.subs x) false events
      obtain ⟨hsub, hmem⟩ := heap.sendTo_self hub x ((heap.subs x).sendAll false events)
      split_ifs with hpanicked
      · refine ⟨appended, ?_, h.wanted, ?_, nofun, fun hlength => ?_⟩
        · rw [hsub, hauth]
        · rw [hsub, h.channel]
        · rw [hsub]
          exact h.buffer hlength
      · obtain ⟨hbeside, hstays⟩ :=
          (heap.sendTo hub x ((heap.subs x).sendAll false events)).deliver_beside hub events hnew
        refine ⟨appended, ?_, h.wanted, ?_, fun _ hstill => ?_, fun hlength => ?_⟩
        · rw [hbeside, hsub, hauth]
        · rw [hbeside, hsub, h.channel]
        · exact h.all (hmem.mp (hstays.mp hstill)).2 (by simpa using hpanicked)
        · rw [hbeside, hsub]
          exact h.buffer hlength
    · have hne : x ≠ sub := fun heq => hnew (heq ▸ hin)
      obtain ⟨hsub, -⟩ := heap.sendTo_other hub ((heap.subs sub).sendAll false events) hne
      split_ifs with hpanicked
      · -- the goroutine panics before its turn
        refine ⟨[], ?_, List.nil_prefix, ?_, nofun, fun hlength => ?_⟩
        · rw [hsub]
        · rw [hsub, List.append_nil]
        · rw [hsub]
          exact hlength
      · obtain ⟨appended, h⟩ := ih (heap.sendTo hub sub _) hnodup' hin
        refine ⟨appended, ?_, ?_, ?_, ?_, ?_⟩ <;> rw [← hsub]
        · exact h.authenticated
        · exact h.wanted
        · exact h.channel
        · exact h.all
        · exact h.buffer

end Heap

/-! ## The record -/

structure Log (δ : Type) where
  /-- the events of the publications to a hub, the oldest first -/
  published : HubID → List (Event δ)
  /-- how many events had been published to its hub when a subscriber joined it -/
  joinedAt : SubID → Nat
  /-- what a reader has taken, the oldest first -/
  got : SubID → List (Event δ)

namespace Log

def empty : Log δ where
  published := fun _ => []
  joinedAt := fun _ => 0
  got := fun _ => []

/-- What a subscriber is to be sent: the events it wants of those published since it joined. -/
def due (log : Log δ) (s : State ι δ) (r : Returned) : List (Event δ) :=
  ((log.published r.hub).drop (log.joinedAt r.sub)).filter (s.heap.subs r.sub).wants

/-- What a subscriber has been sent: what its reader has taken, and what waits for it. -/
def sent (log : Log δ) (s : State ι δ) (r : Returned) : List (Event δ) :=
  log.got r.sub ++ (s.heap.subs r.sub).events

end Log

/-- A call that joins a hub, or sends to one, with its next section. -/
def Call.Acts : Call δ → Prop
  | .subscribing .. => True
  | .publishing .. => True
  | _ => False

/-- A step, and what it adds to the record. -/
inductive Records [DecidableEq ι] (s : State ι δ) (log : Log δ) : State ι δ → Log δ → Prop where
  | join {i : ι} {orderID : UUID} {authenticated : Bool} {hub : HubID}
      (call : s.calls i = .subscribing orderID authenticated hub) :
      Records s log
        { s.goes i (s.heap.join hub authenticated).1 .idle with
          returned := ⟨orderID, (s.heap.join hub authenticated).2, hub⟩ :: s.returned }
        { log with
          joinedAt := Function.update log.joinedAt s.heap.nextSub (log.published hub).length
          got := Function.update log.got s.heap.nextSub [] }
  | deliver {i : ι} {orderID : UUID} {hub : HubID} {events : List (Event δ)} {known : List Returned}
      (call : s.calls i = .publishing orderID hub events known) {visit : List SubID}
      (order : visit.Perm (s.heap.subscribers hub)) :
      Records s log
        { s.goes i (s.heap.deliver hub events visit).1 .idle with
          panicked := s.panicked || (s.heap.deliver hub events visit).2 }
        { log with published := Function.update log.published hub (log.published hub ++ events) }
  | receive (sub : SubID) :
      Records s log { s with heap := s.heap.receive sub }
        { log with
          got := Function.update log.got sub
            (log.got sub ++ (s.heap.subs sub).events.head?.toList) }
  /-- nobody joins, sends or reads -/
  | other {s' : State ι δ} (step : Step s s') (acts : ∀ i, (s.calls i).Acts → s'.calls i = s.calls i)
      (channels : ∀ x, (s'.heap.subs x).events = (s.heap.subs x).events) : Records s log s' log

section Runs

variable [DecidableEq ι] {s s' : State ι δ} {log log' : Log δ}

theorem Records.step (h : Records s log s' log') : Step s s' := by
  cases h with
  | join call => exact .join call
  | deliver call order => exact .deliver call order
  | receive sub => exact .receive sub
  | other step => exact step

/-- The call of the goroutine that takes a step, if it is not one that joins or sends. -/
theorem acts_update {i : ι} {call : Call δ} (hquiet : ¬ (s.calls i).Acts) :
    ∀ j, (s.calls j).Acts → Function.update s.calls i call j = s.calls j := by
  intro j hacts
  have hj : j ≠ i := by
    rintro rfl
    exact hquiet hacts
  exact Function.update_of_ne hj _ _

theorem closeSub_events (heap : Heap δ) (sub x : SubID) :
    ((heap.closeSub sub).subs x).events = (heap.subs x).events := by
  show (Function.update heap.subs sub (heap.subs sub).close x).events = _
  by_cases hx : x = sub
  · subst hx
    rw [Function.update_self]
    rfl
  · rw [Function.update_of_ne hx]

theorem drain_subs (heap : Heap δ) (hub : HubID) (x : SubID) :
    ((heap.drain hub).subs x).events = (heap.subs x).events ∧
      ((heap.drain hub).subs x).authenticated = (heap.subs x).authenticated := by
  unfold Heap.drain
  simp only
  split_ifs <;> exact ⟨rfl, rfl⟩

/-- **Every step can be recorded**, and in one way. -/
theorem Step.records (h : Step s s') (log : Log δ) : ∃ log', Records s log s' log' := by
  cases h with
  | join call => exact ⟨_, .join call⟩
  | deliver call order => exact ⟨_, .deliver call order⟩
  | receive sub => exact ⟨_, .receive sub⟩
  | @subscribe i idle orderID authenticated =>
    refine ⟨log, .other (.subscribe idle orderID authenticated) (acts_update ?_) fun x => ?_⟩
    · rw [idle]
      exact id
    · show ((s.heap.openHub orderID).1.subs x).events = _
      unfold Heap.openHub
      split <;> rfl
  | @unsubscribe i idle r returned hub found =>
    refine ⟨log, .other (.unsubscribe idle returned found) (acts_update ?_) fun _ => rfl⟩
    rw [idle]
    exact id
  | unsubscribeNone idle returned none =>
    exact ⟨log, .other (.unsubscribeNone idle returned none) (fun _ _ => rfl) fun _ => rfl⟩
  | @leave i orderID sub hub call =>
    refine ⟨log, .other (.leave call) (acts_update ?_) fun _ => rfl⟩
    rw [call]
    exact id
  | @close i orderID sub empty call =>
    refine ⟨log, .other (.close call) (acts_update ?_) (closeSub_events s.heap sub)⟩
    rw [call]
    exact id
  | @forget i orderID call =>
    refine ⟨log, .other (.forget call) (acts_update ?_) fun x => ?_⟩
    · rw [call]
      exact id
    · rw [State.goes, (Heap.forget_same orderID).2.1]
  | @publish i idle orderID hub found events =>
    refine ⟨log, .other (.publish idle orderID found events) (acts_update ?_) fun _ => rfl⟩
    rw [idle]
    exact id
  | @closeAll i idle =>
    refine ⟨log, .other (.closeAll idle) (acts_update ?_) fun _ => rfl⟩
    rw [idle]
    exact id
  | @drain i hub rest call =>
    refine ⟨log, .other (.drain call) (acts_update ?_) fun x => (drain_subs s.heap hub x).1⟩
    rw [call]
    exact id
  | @drained i call =>
    refine ⟨log, .other (.drained call) (acts_update ?_) fun _ => rfl⟩
    rw [call]
    exact id

/-! ## Every subscriber is fed -/

/-- What a subscriber has been sent, of what it is to be sent. -/
structure Fed (s : State ι δ) (log : Log δ) (r : Returned) : Prop where
  joined : log.joinedAt r.sub ≤ (log.published r.hub).length
  buffer : (s.heap.subs r.sub).events.length ≤ subscriberBuffer
  inOrder : (log.sent s r).Sublist (log.due s r)
  upTo : s.panicked = false → log.sent s r <+: log.due s r
  all : s.panicked = false → r.sub ∈ s.heap.subscribers r.hub → log.sent s r = log.due s r

/-- A step in which nobody joins, sends or reads. -/
structure Beside (s s' : State ι δ) : Prop where
  returned : s'.returned = s.returned
  panicked : s'.panicked = s.panicked
  authenticated : ∀ x, (s'.heap.subs x).authenticated = (s.heap.subs x).authenticated
  members : ∀ hub, s'.heap.subscribers hub ⊆ s.heap.subscribers hub

theorem Step.beside (h : Step s s') (acts : ∀ i, (s.calls i).Acts → s'.calls i = s.calls i) :
    Beside s s' := by
  cases h with
  | @join i orderID authenticated hub call =>
    have hstill := acts i (by rw [call]; trivial)
    rw [call] at hstill
    simp [State.goes] at hstill
  | @deliver i orderID hub events known call visit order =>
    have hstill := acts i (by rw [call]; trivial)
    rw [call] at hstill
    simp [State.goes] at hstill
  | @subscribe i idle orderID authenticated =>
    cases hfound : s.heap.hubFor orderID with
    | some hub =>
      refine ⟨rfl, rfl, fun _ => ?_, fun _ => ?_⟩ <;> rw [State.goes, Heap.openHub_some hfound]
      exact List.Subset.refl _
    | none =>
      refine ⟨rfl, rfl, fun _ => ?_, fun hub => ?_⟩ <;> rw [State.goes, Heap.openHub_none hfound]
      show Function.update s.heap.subscribers s.heap.nextHub [] hub ⊆ _
      by_cases hnew : hub = s.heap.nextHub
      · subst hnew
        rw [Function.update_self]
        exact List.nil_subset _
      · rw [Function.update_of_ne hnew]
        exact List.Subset.refl _
  | unsubscribe => exact ⟨rfl, rfl, fun _ => rfl, fun _ => List.Subset.refl _⟩
  | unsubscribeNone => exact ⟨rfl, rfl, fun _ => rfl, fun _ => List.Subset.refl _⟩
  | @leave i orderID sub hub call =>
    exact ⟨rfl, rfl, fun _ => rfl, fun other => (s.heap.remove_sublist hub sub other).subset⟩
  | @close i orderID sub empty call =>
    refine ⟨rfl, rfl, fun x => ?_, fun _ => List.Subset.refl _⟩
    show (Function.update s.heap.subs sub (s.heap.subs sub).close x).authenticated = _
    by_cases hx : x = sub
    · subst hx
      rw [Function.update_self]
      rfl
    · rw [Function.update_of_ne hx]
  | @forget i orderID call =>
    obtain ⟨hmembers, hsubs, -, -⟩ := s.heap.forget_same orderID
    refine ⟨rfl, rfl, fun x => ?_, fun hub => ?_⟩
    · rw [State.goes, hsubs]
    · rw [State.goes, hmembers]
      exact List.Subset.refl _
  | publish => exact ⟨rfl, rfl, fun _ => rfl, fun _ => List.Subset.refl _⟩
  | closeAll => exact ⟨rfl, rfl, fun _ => rfl, fun _ => List.Subset.refl _⟩
  | @drain i hub rest call =>
    exact ⟨rfl, rfl, fun x => (drain_subs s.heap hub x).2,
      fun other => (s.heap.drain_sublist hub other).subset⟩
  | drained => exact ⟨rfl, rfl, fun _ => rfl, fun _ => List.Subset.refl _⟩
  | @receive sub =>
    refine ⟨rfl, rfl, fun x => ?_, fun _ => List.Subset.refl _⟩
    show (Function.update s.heap.subs sub (s.heap.subs sub).receive x).authenticated = _
    by_cases hx : x = sub
    · subst hx
      rw [Function.update_self]
      rfl
    · rw [Function.update_of_ne hx]

omit [DecidableEq ι] in
/-- More is due to a subscriber, and a first part of that has been sent to it. -/
theorem Fed.grows {r : Returned} (h : Fed s log r) (appended wanted : List (Event δ))
    (hbuffer : (s'.heap.subs r.sub).events.length ≤ subscriberBuffer)
    (hjoined : log'.joinedAt r.sub ≤ (log'.published r.hub).length)
    (hsent : log'.sent s' r = log.sent s r ++ appended)
    (hdue : log'.due s' r = log.due s r ++ wanted) (hstart : appended <+: wanted)
    (hcalm : s'.panicked = false → s.panicked = false)
    (hfirst : s.panicked = false → appended = [] ∨ log.sent s r = log.due s r)
    (hall : s'.panicked = false → r.sub ∈ s'.heap.subscribers r.hub →
      log.sent s r = log.due s r ∧ appended = wanted) : Fed s' log' r where
  joined := hjoined
  buffer := hbuffer
  inOrder := by
    rw [hsent, hdue]
    exact h.inOrder.append hstart.sublist
  upTo := by
    intro hpanicked
    rw [hsent, hdue]
    rcases hfirst (hcalm hpanicked) with rfl | heq
    · rw [List.append_nil]
      exact (h.upTo (hcalm hpanicked)).trans (List.prefix_append _ _)
    · rw [heq]
      exact (List.prefix_append_right_inj _).mpr hstart
  all := by
    intro hpanicked hin
    obtain ⟨heq, hwhole⟩ := hall hpanicked hin
    rw [hsent, hdue, heq, hwhole]

omit [DecidableEq ι] in
/-- Nothing more is due to a subscriber, and nothing more is sent to it. -/
theorem Fed.keeps {r : Returned} (h : Fed s log r)
    (hbuffer : (s'.heap.subs r.sub).events.length ≤ subscriberBuffer)
    (hjoined : log'.joinedAt r.sub ≤ (log'.published r.hub).length)
    (hsent : log'.sent s' r = log.sent s r) (hdue : log'.due s' r = log.due s r)
    (hcalm : s'.panicked = false → s.panicked = false)
    (hmember : r.sub ∈ s'.heap.subscribers r.hub → r.sub ∈ s.heap.subscribers r.hub) :
    Fed s' log' r := by
  refine h.grows [] [] hbuffer hjoined ?_ ?_ List.nil_prefix hcalm
    (fun _ => .inl rfl) fun hpanicked hin => ⟨h.all (hcalm hpanicked) (hmember hin), rfl⟩
  · rw [hsent, List.append_nil]
  · rw [hdue, List.append_nil]

theorem fed_join (hsound : Sound s) (h : ∀ r ∈ s.returned, Fed s log r) {i : ι} {orderID : UUID}
    {authenticated : Bool} {hub : HubID} {r : Returned}
    (hr : r ∈ (⟨orderID, (s.heap.join hub authenticated).2, hub⟩ : Returned) :: s.returned) :
    Fed
      { s.goes i (s.heap.join hub authenticated).1 .idle with
        returned := ⟨orderID, (s.heap.join hub authenticated).2, hub⟩ :: s.returned }
      { log with
        joinedAt := Function.update log.joinedAt s.heap.nextSub (log.published hub).length
        got := Function.update log.got s.heap.nextSub [] } r := by
  rcases List.mem_cons.mp hr with rfl | hold
  · -- the new one: nothing has been sent to it, and nothing is due
    refine ⟨?_, ?_, ?_, fun _ => ?_, fun _ _ => ?_⟩
      <;> simp [Heap.join, Log.sent, Log.due, State.goes]
  · have hne : r.sub ≠ s.heap.nextSub := Nat.ne_of_lt (hsound.returned r hold).1
    have hsub : Function.update s.heap.subs s.heap.nextSub
        { authenticated, events := [], closed := false } r.sub = s.heap.subs r.sub :=
      Function.update_of_ne hne _ _
    refine (h r hold).keeps ?_ ?_ ?_ ?_ id fun hin => ?_
    · show (Function.update s.heap.subs _ _ r.sub).events.length ≤ _
      rw [hsub]
      exact (h r hold).buffer
    · show Function.update log.joinedAt _ _ r.sub ≤ _
      rw [Function.update_of_ne hne]
      exact (h r hold).joined
    · show Function.update log.got _ _ r.sub ++ (Function.update s.heap.subs _ _ r.sub).events = _
      rw [Function.update_of_ne hne, hsub]
      rfl
    · show ((log.published r.hub).drop (Function.update log.joinedAt _ _ r.sub)).filter
        (Function.update s.heap.subs _ _ r.sub).wants = _
      rw [Function.update_of_ne hne, Function.update_of_ne hne]
      rfl
    · have hmem : r.sub ∈ Function.update s.heap.subscribers hub
          (s.heap.subscribers hub ++ [s.heap.nextSub]) r.hub := hin
      by_cases hhub : r.hub = hub
      · rw [hhub, Function.update_self] at hmem
        rw [hhub]
        exact (List.mem_append.mp hmem).resolve_right fun hnew => hne (List.mem_singleton.mp hnew)
      · rwa [Function.update_of_ne hhub] at hmem

/-- What is due of a hub's events grows by the wanted ones of a publication. -/
theorem due_published {r : Returned} {hub : HubID} (hhub : r.hub = hub)
    (hjoined : log.joinedAt r.sub ≤ (log.published r.hub).length) (events : List (Event δ))
    (wants : Event δ → Bool) :
    ((Function.update log.published hub (log.published hub ++ events) r.hub).drop
        (log.joinedAt r.sub)).filter wants =
      ((log.published r.hub).drop (log.joinedAt r.sub)).filter wants ++ events.filter wants := by
  subst hhub
  rw [Function.update_self, List.drop_append_of_le_length hjoined, List.filter_append]

theorem fed_deliver (hsound : Sound s) {i : ι} {hub : HubID} {events : List (Event δ)}
    {visit : List SubID} (order : visit.Perm (s.heap.subscribers hub)) {r : Returned}
    (hr : r ∈ s.returned) (h : Fed s log r) :
    Fed
      { s.goes i (s.heap.deliver hub events visit).1 .idle with
        panicked := s.panicked || (s.heap.deliver hub events visit).2 }
      { log with published := Function.update log.published hub (log.published hub ++ events) } r := by
  have hnodup : visit.Nodup := order.nodup_iff.mpr (hsound.nodup hub)
  have hcalm : (s.panicked || (s.heap.deliver hub events visit).2) = false → s.panicked = false :=
    fun h => (Bool.or_eq_false_iff.mp h).1
  by_cases hhub : r.hub = hub
  · have hdue := due_published hhub h.joined events (s.heap.subs r.sub).wants
    have hjoined : log.joinedAt r.sub ≤
        (Function.update log.published hub (log.published hub ++ events) r.hub).length := by
      rw [hhub, Function.update_self, List.length_append]
      exact Nat.le_add_right_of_le (hhub ▸ h.joined)
    by_cases hin : r.sub ∈ s.heap.subscribers hub
    · obtain ⟨appended, hd⟩ := s.heap.deliver_appends hub events hnodup (order.mem_iff.mpr hin)
      refine h.grows appended _ (hd.buffer h.buffer) hjoined ?_ ?_ hd.wanted hcalm
        (fun hbefore => .inr (h.all hbefore (hhub ▸ hin))) fun hafter hstill => ?_
      · show log.got r.sub ++ ((s.heap.deliver hub events visit).1.subs r.sub).events = _
        rw [hd.channel, ← List.append_assoc]
        rfl
      · show List.filter ((s.heap.deliver hub events visit).1.subs r.sub).wants _ = _
        rw [wants_congr hd.authenticated]
        exact hdue
      · exact ⟨h.all (hcalm hafter) (hhub ▸ hin),
          hd.all (Bool.or_eq_false_iff.mp hafter).2 (hhub ▸ hstill)⟩
    · -- it has left the hub, and is not visited
      obtain ⟨hsub, hmem⟩ := s.heap.deliver_beside hub events fun hvisit => hin (order.subset hvisit)
      refine h.grows [] (events.filter (s.heap.subs r.sub).wants) ?_ hjoined ?_ ?_ List.nil_prefix
        hcalm (fun _ => .inl rfl) fun _ hstill => absurd (hmem.mp (hhub ▸ hstill)) hin
      · show ((s.heap.deliver hub events visit).1.subs r.sub).events.length ≤ _
        rw [hsub]
        exact h.buffer
      · show log.got r.sub ++ ((s.heap.deliver hub events visit).1.subs r.sub).events = _
        rw [hsub, List.append_nil]
        rfl
      · show List.filter ((s.heap.deliver hub events visit).1.subs r.sub).wants _ = _
        rw [hsub]
        exact hdue
  · have hout : r.sub ∉ visit := fun hvisit =>
      hhub (hsound.member_hub hr (order.subset hvisit))
    obtain ⟨hsub, -⟩ := s.heap.deliver_beside hub events hout
    have hpublished : Function.update log.published hub (log.published hub ++ events) r.hub =
        log.published r.hub := Function.update_of_ne hhub _ _
    refine h.keeps ?_ ?_ ?_ ?_ hcalm fun hin => ?_
    · show ((s.heap.deliver hub events visit).1.subs r.sub).events.length ≤ _
      rw [hsub]
      exact h.buffer
    · show log.joinedAt r.sub ≤ (Function.update log.published hub _ r.hub).length
      rw [hpublished]
      exact h.joined
    · show log.got r.sub ++ ((s.heap.deliver hub events visit).1.subs r.sub).events = _
      rw [hsub]
      rfl
    · show List.filter ((s.heap.deliver hub events visit).1.subs r.sub).wants
        (List.drop _ (Function.update log.published hub _ r.hub)) = _
      rw [hsub, hpublished]
      rfl
    · rwa [State.goes, (Heap.deliver_sends hub events s.heap visit).others r.hub hhub] at hin

omit [DecidableEq ι] in
theorem fed_receive {r : Returned} (h : Fed s log r) (sub : SubID) :
    Fed { s with heap := s.heap.receive sub }
      { log with
        got := Function.update log.got sub (log.got sub ++ (s.heap.subs sub).events.head?.toList) }
      r := by
  by_cases hsub : r.sub = sub
  · subst hsub
    refine h.keeps ?_ h.joined ?_ ?_ id id
    · show (Function.update s.heap.subs r.sub (s.heap.subs r.sub).receive r.sub).events.length ≤ _
      rw [Function.update_self]
      exact (List.tail_sublist _).length_le.trans h.buffer
    · -- what is taken was at the head of what waits
      show Function.update log.got r.sub _ r.sub ++
        (Function.update s.heap.subs r.sub (s.heap.subs r.sub).receive r.sub).events = _
      rw [Function.update_self, Function.update_self, Log.sent, List.append_assoc]
      show log.got r.sub ++ ((s.heap.subs r.sub).events.head?.toList ++
        (s.heap.subs r.sub).events.tail) = _
      cases (s.heap.subs r.sub).events <;> rfl
    · show List.filter (Function.update s.heap.subs r.sub (s.heap.subs r.sub).receive r.sub).wants
        _ = _
      rw [Function.update_self]
      rfl
  · have hsame : (s.heap.receive sub).subs r.sub = s.heap.subs r.sub :=
      Function.update_of_ne hsub _ _
    refine h.keeps ?_ h.joined ?_ ?_ id id
    · rw [hsame]
      exact h.buffer
    · show Function.update log.got sub _ r.sub ++ ((s.heap.receive sub).subs r.sub).events = _
      rw [hsame, Function.update_of_ne hsub]
      rfl
    · rw [Log.due, hsame]
      rfl

/-- **Every step** keeps every subscriber fed. -/
theorem Fed.step (hsound : Sound s) (h : ∀ r ∈ s.returned, Fed s log r)
    (hrecords : Records s log s' log') : ∀ r ∈ s'.returned, Fed s' log' r := by
  cases hrecords with
  | join call => exact fun r hr => fed_join hsound h hr
  | deliver call order => exact fun r hr => fed_deliver hsound order hr (h r hr)
  | receive sub => exact fun r hr => fed_receive (h r hr) sub
  | other step acts channels =>
    have hbeside := step.beside acts
    intro r hr
    rw [hbeside.returned] at hr
    refine (h r hr).keeps ?_ (h r hr).joined ?_ ?_ (fun hcalm => hbeside.panicked ▸ hcalm)
      fun hin => hbeside.members r.hub hin
    · rw [channels]
      exact (h r hr).buffer
    · rw [Log.sent, channels]
      rfl
    · rw [Log.due, wants_congr (hbeside.authenticated r.sub)]
      rfl

end Runs

/-- The states that the hubs reach, with what has been recorded on the way. -/
inductive Reached [DecidableEq ι] : State ι δ → Log δ → Prop where
  | start : Reached .start .empty
  | next {s s' : State ι δ} {log log' : Log δ} (before : Reached s log)
      (step : Records s log s' log') : Reached s' log'

/-- Every run of the hubs can be recorded. -/
theorem reached_of_run [DecidableEq ι] {s : State ι δ}
    (h : Transition.Run Step (fun _ _ => True) .start s) : ∃ log, Reached s log := by
  induction h with
  | refl => exact ⟨_, .start⟩
  | tail _ hlast ih =>
    obtain ⟨log, hreached⟩ := ih
    obtain ⟨log', hrecords⟩ := hlast.1.records log
    exact ⟨log', hreached.next hrecords⟩

/-- **Delivery.** In every run, under every interleaving of subscribing, leaving, publishing, reading
and shutting down, at most a buffer of events waits for a subscriber, and what it has been sent is in
the order of publication, of the events it wants published to its hub since it joined, and none
twice. As long as no `Publish` has panicked there is no gap in that, and while the subscriber is in
its hub nothing of it is missing. -/
theorem delivered_inOrder [DecidableEq ι] {s : State ι δ} {log : Log δ} (h : Reached s log) :
    ∀ r ∈ s.returned,
      (s.heap.subs r.sub).events.length ≤ subscriberBuffer ∧
      (log.sent s r).Sublist (log.due s r) ∧
      (s.panicked = false → log.sent s r <+: log.due s r ∧
        (r.sub ∈ s.heap.subscribers r.hub → log.sent s r = log.due s r)) := by
  have hfed : Sound s ∧ ∀ r ∈ s.returned, Fed s log r := by
    induction h with
    | start => exact ⟨start_sound, nofun⟩
    | next before step ih => exact ⟨ih.1.step step.step, Fed.step ih.1 ih.2 step⟩
  intro r hr
  have hr' := hfed.2 r hr
  exact ⟨hr'.buffer, hr'.inOrder, fun hcalm => ⟨hr'.upTo hcalm, hr'.all hcalm⟩⟩

/-- Two events are published to one subscriber, and its reader has taken the first. -/
theorem delivered_inOrder_two :
    ∃ (s : State Unit Unit) (log : Log Unit), log.got 0 = [ping] ∧ (s.heap.subs 0).events = [ping] ∧
      (log.sent s ⟨⟨6⟩, 0, 0⟩).Sublist (log.due s ⟨⟨6⟩, 0, 0⟩) := by
  have hopened : Reached (State.start : State Unit Unit) (.empty : Log Unit) := .start
  have hfound := hopened.next (.other (.subscribe (i := ()) rfl ⟨6⟩ true) (fun _ => nofun) fun _ => rfl)
  have hjoined := hfound.next (.join (i := ()) rfl)
  have hbegun := hjoined.next
    (.other (.publish (i := ()) rfl ⟨6⟩ rfl [ping, ping]) (fun _ => nofun) fun _ => rfl)
  have hsent := hbegun.next (.deliver (i := ()) rfl (.refl [0]))
  have hread := hsent.next (.receive 0)
  exact ⟨_, _, rfl, rfl, (delivered_inOrder hread ⟨⟨6⟩, 0, 0⟩ List.mem_cons_self).2.1⟩

end Doenerstag.Sse
