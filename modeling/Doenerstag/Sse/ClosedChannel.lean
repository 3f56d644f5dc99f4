import Doenerstag.Sse.HubRuns
import Doenerstag.Lib.Transition

/-!
# A send on a closed channel

A subscriber is closed by its own `Unsubscribe`, by `CloseAll`, and by a `Publish` that finds its
buffer full. A `Publish` that meets it afterwards panics.

* `Overruns` — a `Publish` has more than one event too many for a subscriber.
* `Strays` — an `Unsubscribe` has found another hub than its subscriber's, while a `Publish` holds
  that one.
* `Open.step` — without these two, the subscribers a `Publish` may meet stay open.
* `publish_sendsOpen` — **in every run without these two, no `Publish` sends on a closed channel.**
* `publish_panics` — a run with the first.
-/

namespace Doenerstag.Sse

variable {ι δ : Type}

/-! ## One subscriber -/

namespace Subscriber

/-- How many events the channel still takes. -/
def room (s : Subscriber δ) : Nat := subscriberBuffer - s.events.length

/-- How many of the events the subscriber is sent. -/
def wanted (s : Subscriber δ) (events : List (Event δ)) : Nat := events.countP s.wants

/-- A subscriber that wants nothing is sent nothing. -/
theorem sendAll_nothing (s : Subscriber δ) (dropped : Bool) {events : List (Event δ)}
    (h : s.wanted events = 0) : s.sendAll dropped events = { sub := s, dropped, panicked := false } := by
  induction events with
  | nil => rfl
  | cons e rest ih =>
    rw [wanted, List.countP_cons, Nat.add_eq_zero_iff] at h
    have hwants : s.wants e = false := by
      cases hw : s.wants e with
      | false => rfl
      | true => simp [hw] at h
    rw [sendAll_unwanted hwants]
    exact ih h.1

/-- An open subscriber with room for all its events but one is not sent to when closed, and stays
open unless it is dropped. -/
theorem sendAll_fits (s : Subscriber δ) {events : List (Event δ)} (hopen : s.closed = false)
    (hroom : s.wanted events ≤ s.room + 1) :
    (s.sendAll false events).panicked = false ∧
      ((s.sendAll false events).dropped = false → (s.sendAll false events).sub.closed = false) := by
  induction events generalizing s with
  | nil => exact ⟨rfl, fun _ => hopen⟩
  | cons e rest ih =>
    cases hwants : s.wants e with
    | false =>
      rw [sendAll_unwanted hwants]
      have hrest : s.wanted rest ≤ s.room + 1 := by
        simpa [wanted, List.countP_cons, hwants] using hroom
      exact ih s hopen hrest
    | true =>
      have hrest : s.wanted rest + 1 ≤ s.room + 1 := by
        simpa [wanted, List.countP_cons, hwants] using hroom
      by_cases hfree : s.events.length < subscriberBuffer
      · rw [sendAll_room hwants hopen hfree]
        refine ih { s with events := s.events ++ [e] } hopen ?_
        have hlength : (s.events ++ [e]).length = s.events.length + 1 := by simp
        show s.wanted rest ≤ subscriberBuffer - (s.events ++ [e]).length + 1
        unfold room at hrest
        omega
      · -- the last event it wants finds the buffer full
        rw [sendAll_full hwants hopen hfree]
        have hnone : s.close.wanted rest = 0 := by
          show s.wanted rest = 0
          unfold room at hrest
          omega
        rw [sendAll_nothing _ _ hnone]
        exact ⟨rfl, nofun⟩

end Subscriber

/-! ## One publication -/

namespace Heap

theorem sendTo_subs (heap : Heap δ) (hub : HubID) (sub : SubID) (sent : Sent δ) :
    (heap.sendTo hub sub sent).subs = Function.update heap.subs sub sent.sub := by
  unfold sendTo
  split_ifs <;> rfl

/-- A subscriber that is dropped is out of the hub. -/
theorem sendTo_dropped {heap : Heap δ} {hub : HubID} {sub : SubID} {sent : Sent δ}
    (h : sub ∈ (heap.sendTo hub sub sent).subscribers hub) : sent.dropped = false := by
  unfold sendTo at h
  split_ifs at h with hdropped
  · exact absurd h (heap.not_mem_remove hub sub)
  · simpa using hdropped

/-- **A publication to open subscribers**, each with room for its events but one, sends to none that
is closed, leaves nobody in the hub closed, and does not touch anybody else. -/
theorem deliver_open {hub : HubID} {events : List (Event δ)} (heap : Heap δ) {visit : List SubID}
    (hnodup : visit.Nodup) (hopen : ∀ x ∈ visit, (heap.subs x).closed = false)
    (hroom : ∀ x ∈ visit, (heap.subs x).wanted events ≤ (heap.subs x).room + 1) :
    (heap.deliver hub events visit).2 = false ∧
      (∀ x ∈ visit, x ∈ (heap.deliver hub events visit).1.subscribers hub →
        ((heap.deliver hub events visit).1.subs x).closed = false) ∧
      ∀ x ∉ visit, (heap.deliver hub events visit).1.subs x = heap.subs x := by
  induction visit generalizing heap with
  | nil => exact ⟨rfl, nofun, fun _ _ => rfl⟩
  | cons sub rest ih =>
    obtain ⟨hnew, hnodup'⟩ := List.nodup_cons.mp hnodup
    obtain ⟨hpanicked, hstays⟩ := (heap.subs sub).sendAll_fits (hopen sub List.mem_cons_self)
      (hroom sub List.mem_cons_self)
    -- what is known of the others is not affected by the first
    have hothers : ∀ x, x ≠ sub →
        (heap.sendTo hub sub ((heap.subs sub).sendAll false events)).subs x = heap.subs x := by
      intro x hx
      rw [sendTo_subs, Function.update_of_ne hx]
    have hne : ∀ x ∈ rest, x ≠ sub := fun x hx heq => hnew (heq ▸ hx)
    obtain ⟨hrest, hin, hout⟩ := ih (heap.sendTo hub sub ((heap.subs sub).sendAll false events))
      hnodup' (fun x hx => by rw [hothers x (hne x hx)]; exact hopen x (List.mem_cons_of_mem _ hx))
      fun x hx => by rw [hothers x (hne x hx)]; exact hroom x (List.mem_cons_of_mem _ hx)
    have hdeliver : heap.deliver hub events (sub :: rest) =
        (heap.sendTo hub sub ((heap.subs sub).sendAll false events)).deliver hub events rest := by
      rw [deliver]
      simp only [hpanicked]
      rfl
    rw [hdeliver]
    refine ⟨hrest, fun x hx hmem => ?_, fun x hx => ?_⟩
    · rcases List.mem_cons.mp hx with rfl | hx
      · have hsent := (deliver_sends hub events _ rest).members.subset hmem
        rw [hout x hnew, sendTo_subs, Function.update_self]
        exact hstays (sendTo_dropped hsent)
      · exact hin x hx hmem
    · rw [hout x (List.not_mem_of_not_mem_cons hx), hothers x (List.ne_of_not_mem_cons hx)]

end Heap

/-! ## The two ways in -/

/-- A goroutine is in the middle of a `Publish` to the hub. -/
def State.Publishing (s : State ι δ) (hub : HubID) : Prop :=
  ∃ i orderID events known, s.calls i = .publishing orderID hub events known

/-- A goroutine is about to close the subscriber, which has left its hub. -/
def State.Closing (s : State ι δ) (x : SubID) : Prop :=
  ∃ i orderID empty, s.calls i = .closing orderID x empty

/-- The step is the loop of a `Publish` that has more events for a subscriber of the hub than its
channel takes, and one more. -/
def Overruns (s s' : State ι δ) : Prop :=
  ∃ i orderID hub events known, s.calls i = .publishing orderID hub events known ∧
    s'.calls i = .idle ∧
    ∃ x ∈ s.heap.subscribers hub, (s.heap.subs x).room + 1 < (s.heap.subs x).wanted events

/-- The step is an `Unsubscribe` leaving a hub, with its subscriber in another one to which somebody
is publishing. -/
def Strays (s s' : State ι δ) : Prop :=
  ∃ i orderID x hub, s.calls i = .unsubscribing orderID x hub ∧
    (∃ empty, s'.calls i = .closing orderID x empty) ∧
    ∃ other, other ≠ hub ∧ x ∈ s.heap.subscribers other ∧ s.Publishing other

/-- The subscriber is closed, or about to be. -/
def State.Doomed (s : State ι δ) (x : SubID) : Prop := (s.heap.subs x).closed = true ∨ s.Closing x

/-- Nobody publishes to the hub, and nobody will. -/
structure State.Quiet (s : State ι δ) (hub : HubID) : Prop where
  unregistered : ¬ s.Registered hub
  unpublished : ¬ s.Publishing hub

/-- No send has panicked, and a hub that somebody may publish to has no doomed subscriber. -/
structure Open (s : State ι δ) : Prop where
  panicked : s.panicked = false
  members : ∀ hub, ∀ x ∈ s.heap.subscribers hub, s.Doomed x → s.Quiet hub

section Steps

variable {s s' : State ι δ}

/-- A step after which nobody publishes to the hub who did not before. -/
theorem State.Quiet.mono (hgrows : Grows s s') {hub : HubID} (hlt : hub < s.heap.nextHub)
    (hpublishing : s'.Publishing hub → s.Publishing hub) (h : s.Quiet hub) : s'.Quiet hub where
  unregistered := fun hreg => h.unregistered (hgrows.registered hub hlt hreg)
  unpublished := fun hpub => h.unpublished (hpublishing hpub)

theorem Sound.member_lt (hsound : Sound s) {hub : HubID} {x : SubID}
    (hx : x ∈ s.heap.subscribers hub) : hub < s.heap.nextHub := by
  obtain ⟨r, hr, -, rfl⟩ := hsound.members hub x hx
  exact (hsound.returned r hr).2.1

/-- A step after which nobody is doomed in a hub, or publishes to it, who was not before. -/
theorem Open.keeps (h : Open s) (hsound : Sound s) (hgrows : Grows s s')
    (hpanicked : s'.panicked = s.panicked)
    (hmembers : ∀ hub, ∀ x ∈ s'.heap.subscribers hub, s'.Doomed x →
      x ∈ s.heap.subscribers hub ∧ s.Doomed x)
    (hpublishing : ∀ hub, s'.Publishing hub → s.Publishing hub) : Open s' where
  panicked := hpanicked.trans h.panicked
  members := by
    intro hub x hx hdoomed
    obtain ⟨hx', hdoomed'⟩ := hmembers hub x hx hdoomed
    exact (h.members hub x hx' hdoomed').mono hgrows (hsound.member_lt hx') (hpublishing hub)

variable [DecidableEq ι]

/-- Who publishes after one call has come further. -/
theorem publishing_update {i : ι} {call : Call δ} {hub : HubID}
    (hcalls : s'.calls = Function.update s.calls i call) (h : s'.Publishing hub) :
    s.Publishing hub ∨ ∃ orderID events known, call = .publishing orderID hub events known := by
  obtain ⟨j, orderID, events, known, hj⟩ := h
  rw [hcalls] at hj
  by_cases hji : j = i
  · subst hji
    rw [Function.update_self] at hj
    exact .inr ⟨orderID, events, known, hj⟩
  · rw [Function.update_of_ne hji] at hj
    exact .inl ⟨j, orderID, events, known, hj⟩

/-- Who is about to be closed after one call has come further. -/
theorem closing_update {i : ι} {call : Call δ} {x : SubID}
    (hcalls : s'.calls = Function.update s.calls i call) (h : s'.Closing x) :
    s.Closing x ∨ ∃ orderID empty, call = .closing orderID x empty := by
  obtain ⟨j, orderID, empty, hj⟩ := h
  rw [hcalls] at hj
  by_cases hji : j = i
  · subst hji
    rw [Function.update_self] at hj
    exact .inr ⟨orderID, empty, hj⟩
  · rw [Function.update_of_ne hji] at hj
    exact .inl ⟨j, orderID, empty, hj⟩

/-- The step ends with a call that is neither closing a channel nor publishing. -/
def Call.Calm (c : Call δ) : Prop :=
  (∀ orderID x empty, c ≠ .closing orderID x empty) ∧
    ∀ orderID hub events known, c ≠ .publishing orderID hub events known

/-- A step that closes nobody, and starts no publication and no closing. -/
theorem Open.calm (h : Open s) (hsound : Sound s) (hgrows : Grows s s') {i : ι} {c : Call δ}
    (hcalls : s'.calls = Function.update s.calls i c)
    (hcalm : c.Calm) (hpanicked : s'.panicked = s.panicked)
    (hmembers : ∀ hub, ∀ x ∈ s'.heap.subscribers hub,
      x ∈ s.heap.subscribers hub ∨ ¬ s'.Doomed x)
    (hclosed : ∀ hub, ∀ x ∈ s'.heap.subscribers hub, (s'.heap.subs x).closed = true →
      s.Doomed x) : Open s' := by
  refine h.keeps hsound hgrows hpanicked (fun hub x hx hdoomed => ?_) fun hub hpub => ?_
  · refine ⟨(hmembers hub x hx).resolve_right fun hnot => hnot hdoomed, ?_⟩
    rcases hdoomed with hclosed' | hclosing'
    · exact hclosed hub x hx hclosed'
    · rcases closing_update hcalls hclosing' with hold | ⟨orderID, empty, heq⟩
      · exact .inr hold
      · exact absurd heq (hcalm.1 _ _ _)
  · rcases publishing_update hcalls hpub with hold | ⟨orderID, events, known, heq⟩
    · exact hold
    · exact absurd heq (hcalm.2 _ _ _ _)

theorem open_deliver (h : Open s) (hsound : Sound s) {i : ι} {orderID : UUID} {hub : HubID}
    {events : List (Event δ)} {known : List Returned}
    (hcall : s.calls i = .publishing orderID hub events known) {visit : List SubID}
    (horder : visit.Perm (s.heap.subscribers hub))
    (hroom : ∀ x ∈ s.heap.subscribers hub, (s.heap.subs x).wanted events ≤ (s.heap.subs x).room + 1)
    (hgrows : Grows s
      { s.goes i (s.heap.deliver hub events visit).1 .idle with
        panicked := s.panicked || (s.heap.deliver hub events visit).2 }) :
    Open
      { s.goes i (s.heap.deliver hub events visit).1 .idle with
        panicked := s.panicked || (s.heap.deliver hub events visit).2 } := by
  -- somebody publishes to this hub, so all its subscribers are open
  have hpublishing : s.Publishing hub := ⟨i, orderID, events, known, hcall⟩
  have halive : ∀ x ∈ s.heap.subscribers hub, ¬ s.Doomed x := fun x hx hdoomed =>
    (h.members hub x hx hdoomed).unpublished hpublishing
  have hopen : ∀ x ∈ visit, (s.heap.subs x).closed = false := fun x hx =>
    Bool.eq_false_iff.mpr fun hclosed => halive x (horder.mem_iff.mp hx) (.inl hclosed)
  obtain ⟨hpanicked, hin, hout⟩ := s.heap.deliver_open (horder.nodup_iff.mpr (hsound.nodup hub))
    hopen fun x hx => hroom x (horder.mem_iff.mp hx)
  have hsends := s.heap.deliver_sends hub events visit
  refine h.keeps hsound hgrows ?_ (fun other x hx hdoomed => ?_) fun other hpub => ?_
  · show (s.panicked || (s.heap.deliver hub events visit).2) = s.panicked
    rw [hpanicked, Bool.or_false]
  · have hclosing : ∀ x, State.Closing
        { s.goes i (s.heap.deliver hub events visit).1 .idle with
          panicked := s.panicked || (s.heap.deliver hub events visit).2 } x → s.Closing x := by
      intro x hclosing
      rcases closing_update (s := s) rfl hclosing with hold | ⟨orderID, empty, heq⟩
      · exact hold
      · cases heq
    by_cases hother : other = hub
    · subst hother
      have hx' : x ∈ s.heap.subscribers other := hsends.members.subset hx
      rcases hdoomed with hclosed | hclosing'
      · have hstays := hin x (horder.mem_iff.mpr hx') hx
        exact absurd (hclosed.symm.trans hstays) (by decide)
      · exact absurd (.inr (hclosing x hclosing')) (halive x hx')
    · -- a subscriber of another hub is not visited
      have hx' : x ∈ s.heap.subscribers other := by
        have hsame := hsends.others other hother
        exact hsame ▸ hx
      obtain ⟨r, hr, rfl, hhub⟩ := hsound.members other x hx'
      have hunvisited : r.sub ∉ visit := fun hmem =>
        hother (hhub.symm.trans (hsound.member_hub hr (horder.mem_iff.mp hmem)))
      refine ⟨hx', ?_⟩
      rcases hdoomed with hclosed | hclosing'
      · have hsame := hout r.sub hunvisited
        exact .inl (hsame ▸ hclosed)
      · exact .inr (hclosing r.sub hclosing')
  · rcases publishing_update (s := s) rfl hpub with hold | ⟨orderID, events, known, heq⟩
    · exact hold
    · cases heq

theorem open_join (h : Open s) (hsound : Sound s) {i : ι} {orderID : UUID} {authenticated : Bool}
    {hub : HubID} (hgrows : Grows s
      { s.goes i (s.heap.join hub authenticated).1 .idle with
        returned := ⟨orderID, (s.heap.join hub authenticated).2, hub⟩ :: s.returned }) :
    Open
      { s.goes i (s.heap.join hub authenticated).1 .idle with
        returned := ⟨orderID, (s.heap.join hub authenticated).2, hub⟩ :: s.returned } := by
  have hopen : ∀ x, ((s.heap.join hub authenticated).1.subs x).closed = true →
      (s.heap.subs x).closed = true := by
    intro x hclosed
    by_cases hnew : x = s.heap.nextSub
    · subst hnew
      simp [Heap.join] at hclosed
    · simpa [Heap.join, Function.update_of_ne hnew] using hclosed
  refine h.calm (c := .idle) hsound hgrows rfl (by simp [Call.Calm]) rfl (fun other x hx => ?_)
    fun other x hx hclosed => .inl (hopen x hclosed)
  by_cases hother : other = hub
  · subst hother
    have hmem : x ∈ s.heap.subscribers other ++ [s.heap.nextSub] := by
      simpa [State.goes, Heap.join] using hx
    rcases List.mem_append.mp hmem with hold | hnew
    · exact .inl hold
    · -- the new subscriber is nobody that a call knows of
      rw [List.mem_singleton.mp hnew]
      right
      rintro (hclosed | hclosing)
      · have hsame := hopen _ hclosed
        simp [State.goes, Heap.join] at hclosed
      · rcases closing_update (s := s) rfl hclosing with ⟨j, orderID', empty, hj⟩ | ⟨_, _, heq⟩
        · have hknows : Call.Knows s (s.calls j) := hsound.calls j
          rw [hj] at hknows
          obtain ⟨r, hr, hsub, -⟩ := hknows
          exact absurd hsub (Nat.ne_of_lt (hsound.returned r hr).1)
        · cases heq
  · left
    simpa [State.goes, Heap.join, Function.update_of_ne hother] using hx

theorem open_leave (h : Open s) (hsound : Sound s) {i : ι} {orderID : UUID} {sub : SubID}
    {hub : HubID} (hcall : s.calls i = .unsubscribing orderID sub hub)
    (hstray : ∀ other, other ≠ hub → sub ∈ s.heap.subscribers other → ¬ s.Publishing other)
    (hgrows : Grows s
      { s.goes i (s.heap.leave hub sub).1 (.closing orderID sub (s.heap.leave hub sub).2) with
        left := sub :: s.left }) :
    Open
      { s.goes i (s.heap.leave hub sub).1 (.closing orderID sub (s.heap.leave hub sub).2) with
        left := sub :: s.left } where
  panicked := h.panicked
  members := by
    intro other x hx hdoomed
    have hx' : x ∈ s.heap.subscribers other := (s.heap.remove_sublist hub sub other).subset hx
    suffices hquiet : s.Quiet other by
      refine hquiet.mono hgrows (hsound.member_lt hx') fun hpub => ?_
      rcases publishing_update (s := s) rfl hpub with hold | ⟨_, _, _, heq⟩
      · exact hold
      · cases heq
    have hold : s.Doomed x → s.Quiet other := h.members other x hx'
    rcases hdoomed with hclosed | hclosing
    · exact hold (.inl hclosed)
    · rcases closing_update (s := s) rfl hclosing with hclosing' | ⟨_, _, heq⟩
      · exact hold (.inr hclosing')
      · -- the subscriber that leaves: any other hub it is in is no longer registered
        simp only [Call.closing.injEq] at heq
        obtain ⟨-, rfl, -⟩ := heq
        have hother : other ≠ hub := by
          rintro rfl
          exact s.heap.not_mem_remove other sub hx
        refine ⟨fun hreg => hother ?_, hstray other hother hx'⟩
        have hknows : Call.Knows s (s.calls i) := hsound.calls i
        rw [hcall] at hknows
        obtain ⟨-, r, hr, rfl, -, hfound⟩ := hknows
        have hhub := hsound.member_hub hr hx'
        exact hhub.symm.trans (hfound (hhub ▸ hreg))

/-- **Every step** that neither overruns nor strays keeps everybody open. -/
theorem Open.step (h : Open s) (hsound : Sound s) (hstep : Step s s') (hoverruns : ¬ Overruns s s')
    (hstrays : ¬ Strays s s') : Open s' := by
  have hgrows := hstep.grows
  cases hstep with
  | @subscribe i idle orderID authenticated =>
    have hsame : ∀ hub, ∀ x ∈ (s.heap.openHub orderID).1.subscribers hub,
        x ∈ s.heap.subscribers hub ∧ (s.heap.openHub orderID).1.subs = s.heap.subs := by
      intro hub x hx
      cases hfound : s.heap.hubFor orderID with
      | some found =>
        rw [Heap.openHub_some hfound] at hx ⊢
        exact ⟨hx, rfl⟩
      | none =>
        rw [Heap.openHub_none hfound] at hx ⊢
        refine ⟨?_, rfl⟩
        by_cases hnew : hub = s.heap.nextHub
        · subst hnew
          simp at hx
        · simpa [Function.update_of_ne hnew] using hx
    refine h.calm hsound hgrows rfl (by simp [Call.Calm]) rfl (fun hub x hx => .inl (hsame hub x hx).1)
      fun hub x hx hclosed => .inl ?_
    have hsubs := (hsame hub x hx).2
    exact hsubs ▸ hclosed
  | join call => exact open_join h hsound hgrows
  | unsubscribe =>
    exact h.calm hsound hgrows rfl (by simp [Call.Calm]) rfl (fun _ _ hx => .inl hx) fun _ _ _ => .inl
  | unsubscribeNone =>
    exact h.keeps hsound hgrows rfl (fun _ _ hx hdoomed => ⟨hx, hdoomed⟩) fun _ hpub => hpub
  | @leave i orderID sub hub call =>
    refine open_leave h hsound call (fun other hother hmem hpub => hstrays ?_) hgrows
    exact ⟨i, orderID, sub, hub, call, ⟨_, Function.update_self ..⟩, other, hother, hmem, hpub⟩
  | @close i orderID sub empty call =>
    refine h.calm hsound hgrows rfl ?_ rfl (fun _ _ hx => .inl hx) fun hub x _ hclosed => ?_
    · split_ifs <;> simp [Call.Calm]
    · by_cases hsub : x = sub
      · exact .inr (hsub ▸ ⟨i, orderID, empty, call⟩)
      · left
        simpa [State.goes, Heap.closeSub, Heap.setSub, Function.update_of_ne hsub] using hclosed
  | @forget i orderID call =>
    obtain ⟨hsubscribers, hsubs, -⟩ := s.heap.forget_same orderID
    refine h.calm hsound hgrows rfl (by simp [Call.Calm]) rfl (fun hub x hx => .inl ?_)
      fun hub x hx hclosed => .inl ?_
    · simpa only [State.goes, hsubscribers] using hx
    · simpa only [State.goes, hsubs] using hclosed
  | @publish i idle orderID hub found events =>
    refine ⟨h.panicked, fun other x hx hdoomed => ?_⟩
    have hdoomed' : s.Doomed x := by
      rcases hdoomed with hclosed | hclosing
      · exact .inl hclosed
      · rcases closing_update (s := s) rfl hclosing with hold | ⟨_, _, heq⟩
        · exact .inr hold
        · cases heq
    have hquiet := h.members other x hx hdoomed'
    refine hquiet.mono hgrows (hsound.member_lt hx) fun hpub => ?_
    rcases publishing_update (s := s) rfl hpub with hold | ⟨_, _, _, heq⟩
    · exact hold
    · -- the hub that was found is registered
      simp only [Call.publishing.injEq] at heq
      obtain ⟨-, rfl, -⟩ := heq
      exact absurd (hsound.registered_of_hubFor found).1 hquiet.unregistered
  | @deliver i orderID hub events known call visit order =>
    refine open_deliver h hsound call order (fun x hx => ?_) hgrows
    by_contra hfew
    exact hoverruns ⟨i, orderID, hub, events, known, call, Function.update_self .., x, hx,
      Nat.lt_of_not_le hfew⟩
  | closeAll =>
    exact h.calm hsound hgrows rfl (by simp [Call.Calm]) rfl (fun _ _ hx => .inl hx) fun _ _ _ => .inl
  | @drain i hub rest call =>
    have hmem : ∀ other, ∀ x ∈ (s.heap.drain hub).subscribers other,
        x ∈ s.heap.subscribers other ∧ x ∉ s.heap.subscribers hub := by
      intro other x hx
      have hx' := (s.heap.drain_sublist hub other).subset hx
      refine ⟨hx', fun hdrained => ?_⟩
      obtain ⟨r, hr, rfl, hhub⟩ := hsound.members other x hx'
      rw [← hhub, hsound.member_hub hr hdrained] at hx
      simp [Heap.drain] at hx
    refine h.calm hsound hgrows rfl ?_ rfl (fun other x hx => .inl (hmem other x hx).1)
      fun other x hx hclosed => .inl ?_
    · split_ifs <;> simp [Call.Calm]
    · simpa [State.goes, Heap.drain, (hmem other x hx).2] using hclosed
  | drained =>
    exact h.calm hsound hgrows rfl (by simp [Call.Calm]) rfl (fun _ _ hx => .inl hx) fun _ _ _ => .inl
  | receive sub =>
    refine h.keeps hsound hgrows rfl (fun hub x hx hdoomed => ⟨hx, ?_⟩) fun _ hpub => hpub
    rcases hdoomed with hclosed | hclosing
    · left
      by_cases hsub : x = sub
      · subst hsub
        simpa [Heap.receive, Heap.setSub, Subscriber.receive] using hclosed
      · simpa [Heap.receive, Heap.setSub, Function.update_of_ne hsub] using hclosed
    · exact .inr hclosing

end Steps

/-! ## Every run -/

theorem start_open : Open (State.start : State ι δ) := ⟨rfl, nofun⟩

/-- **No `Publish` sends on a closed channel** in a run whose publications have at most one event
too many for each subscriber they meet, and whose `Unsubscribe`s find the hub their subscriber is in
while somebody publishes to that. -/
theorem publish_sendsOpen [DecidableEq ι] {s : State ι δ}
    (hrun : Transition.Run Step (fun s s' => ¬ Overruns s s' ∧ ¬ Strays s s') .start s) :
    s.panicked = false := by
  have hopen : Open s := hrun.invariant_under (fun _ _ hstep hsound => hsound.step hstep)
    (fun _ _ hstep hC hsound hopen => hopen.step hsound hstep hC.1 hC.2) start_sound start_open
  exact hopen.panicked

/-- An event for everyone. -/
def ping : Event Unit where
  name := "ping"
  audience := .everyone
  data := ()

/-- One subscriber, and one event for it. -/
theorem publish_sendsOpen_ping :
    ∃ s : State Unit Unit, (s.heap.subs 0).events = [ping] ∧ s.panicked = false := by
  have hcalm : ∀ {s s' : State Unit Unit}, (∀ o hub events known, s.calls () ≠
      .publishing o hub events known) → (∀ o x hub, s.calls () ≠ .unsubscribing o x hub) →
      ¬ Overruns s s' ∧ ¬ Strays s s' := by
    intro s s' hpublishing hunsubscribing
    refine ⟨?_, ?_⟩
    · rintro ⟨_, o, hub, events, known, hcall, -⟩
      exact hpublishing _ _ _ _ hcall
    · rintro ⟨_, o, x, hub, hcall, -⟩
      exact hunsubscribing _ _ _ hcall
  have hopened : Transition.Run Step (fun s s' => ¬ Overruns s s' ∧ ¬ Strays s s')
      (State.start : State Unit Unit) _ :=
    .tail (.refl _) (.subscribe (i := ()) rfl ⟨6⟩ true) (hcalm nofun nofun)
  have hjoined := hopened.tail (.join (i := ()) rfl) (hcalm nofun nofun)
  have hfound := hjoined.tail (.publish (i := ()) rfl ⟨6⟩ rfl [ping]) (hcalm nofun nofun)
  have hsent := hfound.tail (.deliver (i := ()) rfl (.refl [0])) ?_
  · exact ⟨_, rfl, publish_sendsOpen hsent⟩
  · refine ⟨?_, ?_⟩
    · rintro ⟨_, o, hub, events, known, hcall, -, x, hx, hmany⟩
      cases hcall
      cases List.mem_singleton.mp hx
      exact absurd hmany (by decide)
    · rintro ⟨_, o, x, hub, hcall, -⟩
      cases hcall

/-- With more events than its channel takes, and one more, the second after the last is sent to a
subscriber that has just been closed. -/
theorem publish_panics :
    ¬ ∀ s : State Unit Unit, Transition.Run Step (fun _ _ => True) .start s →
      s.panicked = false := by
  intro hevery
  have hopened : Transition.Run Step (fun _ _ => True) (State.start : State Unit Unit) _ :=
    .tail (.refl _) (.subscribe (i := ()) rfl ⟨6⟩ true) trivial
  have hjoined := hopened.tail (.join (i := ()) rfl) trivial
  have hfound := hjoined.tail (.publish (i := ()) rfl ⟨6⟩ rfl (.replicate 18 ping)) trivial
  have hsent := hfound.tail (.deliver (i := ()) rfl (.refl [0])) trivial
  exact absurd (hevery _ hsent) (by decide)

end Doenerstag.Sse
