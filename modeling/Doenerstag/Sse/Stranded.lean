import Doenerstag.Sse.ClosedChannel

/-!
# Nobody is stranded

`Subscribe` is handed a hub under one lock and joins it under another. In between the hub may be
forgotten, and a subscriber of a forgotten hub is never sent anything again.

* `State.Leaving` — a subscriber is closed, or a call under way has yet to close it.
* `JoinsForgotten` — a `Subscribe` joins a hub that the registry no longer has.
* `Kept.step` — without it, a subscriber is leaving, or in the hub of its order.
* `Tended.step` — a hub in the registry has somebody who will see to it.
* `nobody_stranded` — **in every run without it, every subscriber that is not leaving is in the hub
  its order is mapped to, and is considered by every later `Publish`; and an order that all
  subscribers have left has no hub.**
* `subscriber_stranded` — a run with it.
-/

namespace Doenerstag.Sse

variable {ι δ : Type}

/-- A `CloseAll` has taken the hub and not yet drained it. -/
def State.Draining (s : State ι δ) (hub : HubID) : Prop :=
  ∃ i hubs, s.calls i = .draining hubs ∧ hub ∈ hubs

/-- The subscriber is closed, or its own `Unsubscribe` has taken it out of its hub and closes it
next, or a `CloseAll` has taken its hub and will close it. -/
def State.Leaving (s : State ι δ) (r : Returned) : Prop :=
  (s.heap.subs r.sub).closed = true ∨ s.Closing r.sub ∨
    s.Draining r.hub ∧ r.sub ∈ s.heap.subscribers r.hub

/-- The step is a `Subscribe` joining a hub that the registry no longer has, and that no `CloseAll`
has yet to drain. -/
def JoinsForgotten (s s' : State ι δ) : Prop :=
  ∃ i orderID authenticated hub, s.calls i = .subscribing orderID authenticated hub ∧
    s'.calls i = .idle ∧ ¬ s.Registered hub ∧ ¬ s.Draining hub

/-- Every subscriber is leaving, or in its hub, which the registry has. -/
def Kept (s : State ι δ) : Prop :=
  ∀ r ∈ s.returned, s.Leaving r ∨ r.sub ∈ s.heap.subscribers r.hub ∧ s.Registered r.hub

section Fates

variable [DecidableEq ι] {s s' : State ι δ}

/-- What is closed stays closed. -/
theorem closed_mono (hstep : Step s s') {x : SubID} (hlt : x < s.heap.nextSub)
    (h : (s.heap.subs x).closed = true) : (s'.heap.subs x).closed = true := by
  have hset : ∀ (sub : SubID) (new : Subscriber δ), ((s.heap.subs sub).closed = true →
      new.closed = true) → (Function.update s.heap.subs sub new x).closed = true := by
    intro sub new hnew
    by_cases hsub : x = sub
    · subst hsub
      rw [Function.update_self]
      exact hnew h
    · rw [Function.update_of_ne hsub]
      exact h
  cases hstep with
  | @subscribe i idle orderID authenticated =>
    cases hfound : s.heap.hubFor orderID with
    | some hub => simpa only [State.goes, Heap.openHub_some hfound] using h
    | none => simpa only [State.goes, Heap.openHub_none hfound] using h
  | join =>
    show (Function.update s.heap.subs s.heap.nextSub _ x).closed = true
    rw [Function.update_of_ne (Nat.ne_of_lt hlt)]
    exact h
  | unsubscribe => exact h
  | unsubscribeNone => exact h
  | leave => exact h
  | close => exact hset _ _ fun _ => rfl
  | @forget i orderID =>
    have hsubs := (s.heap.forget_same orderID).2.1
    exact hsubs ▸ h
  | publish => exact h
  | @deliver i orderID hub events known call visit order =>
    exact (s.heap.deliver_sends hub events visit).closed x h
  | closeAll => exact h
  | drain =>
    show (if _ then _ else _ : Subscriber δ).closed = true
    split_ifs
    · rfl
    · exact h
  | drained => exact h
  | receive => exact hset _ _ id

/-- A call has gone on that was not the one in question. -/
theorem calls_other {i j : ι} {call call' : Call δ} (hcalls : s'.calls = Function.update s.calls i call)
    (hj : s.calls j = call') (hne : s.calls i ≠ call') : s'.calls j = call' := by
  rw [hcalls, Function.update_of_ne]
  · exact hj
  · rintro rfl
    exact hne hj

/-- Who is about to be closed still is, or is closed. -/
theorem closing_mono (hstep : Step s s') {x : SubID} (h : s.Closing x) :
    s'.Closing x ∨ (s'.heap.subs x).closed = true := by
  obtain ⟨j, orderID, empty, hj⟩ := h
  -- a step of another goroutine, or of one that is doing something else
  have hother : ∀ {i : ι} {call : Call δ}, s'.calls = Function.update s.calls i call →
      s.calls i ≠ .closing orderID x empty → s'.Closing x :=
    fun hcalls hne => ⟨j, orderID, empty, calls_other hcalls hj hne⟩
  cases hstep with
  | subscribe idle => exact .inl (hother rfl (by rw [idle]; nofun))
  | join call => exact .inl (hother rfl (by rw [call]; nofun))
  | unsubscribe idle => exact .inl (hother rfl (by rw [idle]; nofun))
  | unsubscribeNone => exact .inl ⟨j, orderID, empty, hj⟩
  | leave call => exact .inl (hother rfl (by rw [call]; nofun))
  | @close i orderID' sub empty' call =>
    by_cases hsub : x = sub
    · subst hsub
      right
      show (Function.update s.heap.subs x _ x).closed = true
      rw [Function.update_self]
      rfl
    · refine .inl (hother rfl ?_)
      rw [call]
      rintro heq
      exact hsub (Call.closing.inj heq).2.1.symm
  | forget call => exact .inl (hother rfl (by rw [call]; nofun))
  | publish idle => exact .inl (hother rfl (by rw [idle]; nofun))
  | deliver call => exact .inl (hother rfl (by rw [call]; nofun))
  | closeAll idle => exact .inl (hother rfl (by rw [idle]; nofun))
  | drain call => exact .inl (hother rfl (by rw [call]; nofun))
  | drained call => exact .inl (hother rfl (by rw [call]; nofun))
  | receive => exact .inl ⟨j, orderID, empty, hj⟩

/-- A hub that is to be drained still is, or its subscribers are closed. -/
theorem draining_mono (hstep : Step s s') {hub : HubID} (h : s.Draining hub) :
    s'.Draining hub ∨ ∀ x ∈ s.heap.subscribers hub, (s'.heap.subs x).closed = true := by
  obtain ⟨j, hubs, hj, hmem⟩ := h
  have hother : ∀ {i : ι} {call : Call δ}, s'.calls = Function.update s.calls i call →
      s.calls i ≠ .draining hubs → s'.Draining hub :=
    fun hcalls hne => ⟨j, hubs, calls_other hcalls hj hne, hmem⟩
  cases hstep with
  | subscribe idle => exact .inl (hother rfl (by rw [idle]; nofun))
  | join call => exact .inl (hother rfl (by rw [call]; nofun))
  | unsubscribe idle => exact .inl (hother rfl (by rw [idle]; nofun))
  | unsubscribeNone => exact .inl ⟨j, hubs, hj, hmem⟩
  | leave call => exact .inl (hother rfl (by rw [call]; nofun))
  | close call => exact .inl (hother rfl (by rw [call]; nofun))
  | forget call => exact .inl (hother rfl (by rw [call]; nofun))
  | publish idle => exact .inl (hother rfl (by rw [idle]; nofun))
  | deliver call => exact .inl (hother rfl (by rw [call]; nofun))
  | closeAll idle => exact .inl (hother rfl (by rw [idle]; nofun))
  | @drain i first rest call =>
    by_cases hji : j = i
    · subst hji
      rw [call] at hj
      cases hj
      rcases List.mem_cons.mp hmem with rfl | hrest
      · -- this is the hub that is drained
        right
        intro x hx
        show (if _ then _ else _ : Subscriber δ).closed = true
        rw [if_pos (by simpa using hx)]
        rfl
      · left
        have hne : rest.isEmpty = false := by
          cases rest with
          | nil => cases hrest
          | cons _ _ => rfl
        refine ⟨j, rest, ?_, hrest⟩
        show Function.update s.calls j _ j = _
        rw [Function.update_self, hne]
        rfl
    · refine .inl ⟨j, hubs, ?_, hmem⟩
      show Function.update s.calls i _ j = _
      rw [Function.update_of_ne hji]
      exact hj
  | @drained i call =>
    refine .inl (hother rfl ?_)
    rw [call]
    intro heq
    rw [← Call.draining.inj heq] at hmem
    cases hmem
  | receive => exact .inl ⟨j, hubs, hj, hmem⟩

/-- A subscriber in a hub stays there, or is closed, or about to be. -/
theorem member_mono (hsound : Sound s) (hstep : Step s s') {hub : HubID} {x : SubID}
    (hx : x ∈ s.heap.subscribers hub) :
    x ∈ s'.heap.subscribers hub ∨ (s'.heap.subs x).closed = true ∨ s'.Closing x := by
  cases hstep with
  | @subscribe i idle orderID authenticated =>
    left
    cases hfound : s.heap.hubFor orderID with
    | some found => simpa only [State.goes, Heap.openHub_some hfound] using hx
    | none =>
      have hne : hub ≠ s.heap.nextHub := Nat.ne_of_lt (hsound.member_lt hx)
      simpa only [State.goes, Heap.openHub_none hfound, Function.update_of_ne hne] using hx
  | @join i orderID authenticated other call =>
    left
    show x ∈ Function.update s.heap.subscribers other _ hub
    by_cases hhub : hub = other
    · subst hhub
      rw [Function.update_self]
      exact List.mem_append_left _ hx
    · rwa [Function.update_of_ne hhub]
  | unsubscribe => exact .inl hx
  | unsubscribeNone => exact .inl hx
  | @leave i orderID sub other call =>
    by_cases hsub : x = sub
    · subst hsub
      exact .inr (.inr ⟨i, orderID, _, Function.update_self ..⟩)
    · exact .inl (Heap.mem_remove hx hsub other)
  | close => exact .inl hx
  | @forget i orderID =>
    have hsubs := (s.heap.forget_same orderID).1
    exact .inl (hsubs ▸ hx)
  | publish => exact .inl hx
  | @deliver i orderID other events known call visit order =>
    have hsends := s.heap.deliver_sends other events visit
    by_cases hhub : hub = other
    · subst hhub
      exact (hsends.kept x hx).imp_right .inl
    · have hsame := hsends.others hub hhub
      exact .inl (hsame ▸ hx)
  | closeAll => exact .inl hx
  | @drain i other rest call =>
    by_cases hhub : hub = other
    · subst hhub
      right; left
      show (if _ then _ else _ : Subscriber δ).closed = true
      rw [if_pos (by simpa using hx)]
      rfl
    · left
      show x ∈ Function.update s.heap.subscribers other [] hub
      rwa [Function.update_of_ne hhub]
  | drained => exact .inl hx
  | receive => exact .inl hx

/-- A hub with a subscriber stays in the registry, or is taken to be drained. -/
theorem registered_mono (hsound : Sound s) (hstep : Step s s') {hub : HubID} {x : SubID}
    (hx : x ∈ s.heap.subscribers hub) (h : s.Registered hub) :
    s'.Registered hub ∨ s'.Draining hub := by
  have horder : s'.orderOf hub = s.orderOf hub :=
    hstep.grows.orderOf hub (hsound.registered_lt h)
  have hkeeps : ((s.orderOf hub, hub) ∈ s'.heap.hubs) → s'.Registered hub := by
    intro hmem
    rw [State.Registered, horder]
    exact hmem
  cases hstep with
  | @subscribe i idle orderID authenticated =>
    refine .inl (hkeeps ?_)
    cases hfound : s.heap.hubFor orderID with
    | some found =>
      simp only [State.goes, Heap.openHub_some hfound]
      exact h
    | none =>
      simp only [State.goes, Heap.openHub_none hfound]
      exact List.mem_append_left _ h
  | join => exact .inl (hkeeps h)
  | unsubscribe => exact .inl (hkeeps h)
  | unsubscribeNone => exact .inl (hkeeps h)
  | leave => exact .inl (hkeeps h)
  | close => exact .inl (hkeeps h)
  | @forget i orderID call =>
    refine .inl (hkeeps ?_)
    show (s.orderOf hub, hub) ∈ (s.heap.forget orderID).hubs
    unfold Heap.forget
    split
    · exact h
    · rename_i current hfound
      split_ifs with hempty
      · refine List.mem_filter.mpr ⟨h, ?_⟩
        have hne : s.orderOf hub ≠ orderID := by
          rintro rfl
          rw [hsound.hubFor_registered h] at hfound
          cases hfound
          rw [List.isEmpty_iff] at hempty
          rw [hempty] at hx
          cases hx
        simpa using hne
      · exact h
  | publish => exact .inl (hkeeps h)
  | @deliver i orderID other events known call visit order =>
    have hsame := (s.heap.deliver_sends other events visit).hubs
    exact .inl (hkeeps (hsame ▸ h))
  | @closeAll i idle =>
    exact .inr ⟨i, _, Function.update_self .., List.mem_map_of_mem h⟩
  | drain => exact .inl (hkeeps h)
  | drained => exact .inl (hkeeps h)
  | receive => exact .inl (hkeeps h)

/-- Whoever is leaving goes on leaving. -/
theorem leaving_mono (hsound : Sound s) (hstep : Step s s') {r : Returned} (hr : r ∈ s.returned)
    (h : s.Leaving r) : s'.Leaving r := by
  rcases h with hclosed | hclosing | ⟨hdraining, hmember⟩
  · exact .inl (closed_mono hstep (hsound.returned r hr).1 hclosed)
  · rcases closing_mono hstep hclosing with hstill | hclosed
    · exact .inr (.inl hstill)
    · exact .inl hclosed
  · rcases draining_mono hstep hdraining with hstill | hclosed
    · rcases member_mono hsound hstep hmember with hin | hclosed | hclosing
      · exact .inr (.inr ⟨hstill, hin⟩)
      · exact .inl hclosed
      · exact .inr (.inl hclosing)
    · exact .inl (hclosed r.sub hmember)

/-- **Every step** that does not join a forgotten hub keeps every subscriber. -/
theorem Kept.step (h : Kept s) (hsound : Sound s) (hstep : Step s s')
    (hjoins : ¬ JoinsForgotten s s') : Kept s' := by
  -- whoever had been returned before
  have hold : ∀ r ∈ s.returned,
      s'.Leaving r ∨ r.sub ∈ s'.heap.subscribers r.hub ∧ s'.Registered r.hub := by
    intro r hr
    rcases h r hr with hleaving | ⟨hmember, hreg⟩
    · exact .inl (leaving_mono hsound hstep hr hleaving)
    · rcases member_mono hsound hstep hmember with hin | hclosed | hclosing
      · rcases registered_mono hsound hstep hmember hreg with hreg' | hdraining
        · exact .inr ⟨hin, hreg'⟩
        · exact .inl (.inr (.inr ⟨hdraining, hin⟩))
      · exact .inl (.inl hclosed)
      · exact .inl (.inr (.inl hclosing))
  cases hstep with
  | @join i orderID authenticated hub call =>
    intro r hr
    rcases List.mem_cons.mp hr with rfl | hr
    · have hin : s.heap.nextSub ∈ (s.heap.join hub authenticated).1.subscribers hub := by
        show _ ∈ Function.update s.heap.subscribers hub _ hub
        rw [Function.update_self]
        exact List.mem_append_right _ List.mem_cons_self
      by_cases hreg : s.Registered hub
      · exact .inr ⟨hin, hreg⟩
      · have hdraining : s.Draining hub := by
          by_contra hnot
          exact hjoins ⟨i, orderID, authenticated, hub, call, Function.update_self .., hreg, hnot⟩
        obtain ⟨j, hubs, hj, hmem⟩ := hdraining
        refine .inl (.inr (.inr ⟨⟨j, hubs, ?_, hmem⟩, hin⟩))
        show Function.update s.calls i _ j = _
        rw [Function.update_of_ne]
        · exact hj
        · rintro rfl
          rw [call] at hj
          cases hj
    · exact hold r hr
  | subscribe => exact hold
  | unsubscribe => exact hold
  | unsubscribeNone => exact hold
  | leave => exact hold
  | close => exact hold
  | forget => exact hold
  | publish => exact hold
  | deliver => exact hold
  | closeAll => exact hold
  | drain => exact hold
  | drained => exact hold
  | receive => exact hold

end Fates

/-! ## Who is considered -/

/-- A `Publish` holds the hub of every subscriber of its order that had been returned when it began
and is not leaving. -/
def Considers (s : State ι δ) : Prop :=
  ∀ i orderID hub events known, s.calls i = .publishing orderID hub events known →
    ∀ r ∈ known, r.orderID = orderID → s.Leaving r ∨ r.hub = hub

theorem Considers.step [DecidableEq ι] {s s' : State ι δ} (h : Considers s) (hsound : Sound s)
    (hkept : Kept s) (hstep : Step s s') : Considers s' := by
  have hold : ∀ {j orderID hub events known}, s.calls j = .publishing orderID hub events known →
      ∀ r ∈ known, r.orderID = orderID → s'.Leaving r ∨ r.hub = hub := by
    intro j orderID hub events known hj r hr horder
    have hknows : Call.Knows s (s.calls j) := hsound.calls j
    rw [hj] at hknows
    exact (h j orderID hub events known hj r hr horder).imp_left
      (leaving_mono hsound hstep (hknows.2.2 r hr))
  -- a call that is new is no publication, but in one case
  have hcalls : ∀ {i : ι} {call : Call δ}, s'.calls = Function.update s.calls i call →
      (∀ orderID hub events known, call = .publishing orderID hub events known →
        ∀ r ∈ known, r.orderID = orderID → s'.Leaving r ∨ r.hub = hub) → Considers s' := by
    intro i call hcalls hnew j orderID hub events known hj
    rw [hcalls] at hj
    by_cases hji : j = i
    · subst hji
      rw [Function.update_self] at hj
      exact hnew orderID hub events known hj
    · rw [Function.update_of_ne hji] at hj
      exact hold hj
  cases hstep with
  | subscribe => exact hcalls rfl nofun
  | join => exact hcalls rfl nofun
  | unsubscribe => exact hcalls rfl nofun
  | unsubscribeNone => exact fun j orderID hub events known hj => hold hj
  | leave => exact hcalls rfl nofun
  | close =>
    refine hcalls rfl fun _ _ _ _ heq => ?_
    split_ifs at heq
  | forget => exact hcalls rfl nofun
  | @publish i idle orderID hub found events =>
    refine hcalls rfl fun _ _ _ _ heq r hr horder => ?_
    cases heq
    rcases hkept r hr with hleaving | ⟨-, hreg⟩
    · exact .inl (leaving_mono hsound (.publish idle orderID found events) hr hleaving)
    · -- the hub that is found is the one that is registered
      have hfound := hsound.hubFor_registered hreg
      rw [(hsound.returned r hr).2.2, horder, found] at hfound
      exact .inr (Option.some.inj hfound).symm
  | deliver => exact hcalls rfl nofun
  | closeAll => exact hcalls rfl nofun
  | drain =>
    refine hcalls rfl fun _ _ _ _ heq => ?_
    split_ifs at heq
  | drained => exact hcalls rfl nofun
  | receive => exact fun j orderID hub events known hj => hold hj

/-! ## Who sees to a hub -/

/-- The call is about to join the hub, or will look whether the order's hub is empty. -/
def Call.Minds (p : UUID × HubID) : Call δ → Prop
  | .subscribing orderID _ hub => (orderID, hub) = p
  | .closing orderID _ empty => orderID = p.1 ∧ empty = true
  | .forgetting orderID => orderID = p.1
  | _ => False

/-- No subscriber in a registered hub has left, and every registered hub has a call that minds it,
or a subscriber that has not left. -/
structure Tended (s : State ι δ) : Prop where
  present : ∀ hub, s.Registered hub → ∀ x ∈ s.heap.subscribers hub, x ∉ s.left
  minded : ∀ p ∈ s.heap.hubs, (∃ i, (s.calls i).Minds p) ∨
    ∃ r ∈ s.returned, r.hub = p.2 ∧ r.sub ∉ s.left

namespace Tended

variable {s s' : State ι δ}

/-- A hub with a subscriber is seen to. -/
theorem minded_of_member (h : Tended s) (hsound : Sound s) {p : UUID × HubID}
    (hp : p ∈ s.heap.hubs) {x : SubID} (hx : x ∈ s.heap.subscribers p.2) :
    ∃ r ∈ s.returned, r.hub = p.2 ∧ r.sub ∉ s.left := by
  obtain ⟨r, hr, rfl, hhub⟩ := hsound.members p.2 x hx
  exact ⟨r, hr, hhub, h.present p.2 (hsound.registered_of_mem hp) r.sub hx⟩

/-- A step that takes no subscriber's leave and loses no call that minds a hub. -/
theorem keeps (h : Tended s) (hleft : s'.left = s.left)
    (hreturned : ∀ r ∈ s.returned, r ∈ s'.returned)
    (hhubs : ∀ p ∈ s'.heap.hubs, p ∈ s.heap.hubs) (horder : s'.orderOf = s.orderOf)
    (hsubs : ∀ hub, ∀ x ∈ s'.heap.subscribers hub, x ∈ s.heap.subscribers hub ∨ x ∉ s.left)
    (hminds : ∀ p ∈ s'.heap.hubs, (∃ i, (s.calls i).Minds p) → (∃ i, (s'.calls i).Minds p) ∨
      ∃ r ∈ s'.returned, r.hub = p.2 ∧ r.sub ∉ s.left) : Tended s' where
  present := by
    intro hub hreg x hx
    rw [hleft]
    rcases hsubs hub x hx with hold | hnew
    · rw [State.Registered, horder] at hreg
      exact h.present hub (hhubs _ hreg) x hold
    · exact hnew
  minded := by
    intro p hp
    rw [hleft]
    rcases h.minded p (hhubs p hp) with hcall | ⟨r, hr, hrest⟩
    · exact hminds p hp hcall
    · exact .inr ⟨r, hreturned r hr, hrest⟩

/-- A subscriber has left the order's hub, or there is none for it. -/
theorem unsubscribeNone (h : Tended s) (hsound : Sound s) {r : Returned} (hr : r ∈ s.returned)
    (hnone : s.heap.hubFor r.orderID = none) : Tended { s with left := r.sub :: s.left } := by
  have hunregistered : ¬ s.Registered r.hub := by
    intro hreg
    have hfound := hsound.hubFor_registered hreg
    rw [(hsound.returned r hr).2.2, hnone] at hfound
    cases hfound
  refine ⟨fun hub hreg x hx hleft => ?_, fun p hp => ?_⟩
  · rcases List.mem_cons.mp hleft with rfl | hleft
    · exact hunregistered (hsound.member_hub hr hx ▸ hreg)
    · exact h.present hub hreg x hx hleft
  · refine (h.minded p hp).imp_right ?_
    rintro ⟨r', hr', hhub, hleft⟩
    refine ⟨r', hr', hhub, fun hleft' => ?_⟩
    rcases List.mem_cons.mp hleft' with hsub | hleft'
    · rw [hsound.unique r' hr' r hr hsub] at hhub
      exact hunregistered (hhub ▸ hsound.registered_of_mem hp)
    · exact hleft hleft'

variable [DecidableEq ι]

/-- A call that minds nothing may become any other. -/
theorem minds_update {i : ι} {call : Call δ} (hcalls : s'.calls = Function.update s.calls i call)
    {p : UUID × HubID} (hidle : (s.calls i).Minds p → call.Minds p)
    (h : ∃ j, (s.calls j).Minds p) : ∃ j, (s'.calls j).Minds p := by
  obtain ⟨j, hj⟩ := h
  refine ⟨j, ?_⟩
  rw [hcalls]
  by_cases hji : j = i
  · subst hji
    rw [Function.update_self]
    exact hidle hj
  · rw [Function.update_of_ne hji]
    exact hj

theorem newHub (h : Tended s) {i : ι} (hidle : s.calls i = .idle)
    {orderID : UUID} {authenticated : Bool} (hnone : s.heap.hubFor orderID = none) :
    Tended
      { s.goes i (s.heap.openHub orderID).1
          (.subscribing orderID authenticated (s.heap.openHub orderID).2) with
        orderOf := Function.update s.orderOf s.heap.nextHub orderID } := by
  rw [Heap.openHub_none hnone]
  refine ⟨fun hub hreg x hx => ?_, fun p hp => ?_⟩
  · by_cases hnew : hub = s.heap.nextHub
    · subst hnew
      simp [State.goes] at hx
    · simp only [State.Registered, State.goes, Function.update_of_ne hnew] at hreg hx
      rcases List.mem_append.mp hreg with hold | heq
      · exact h.present hub hold x hx
      · exact absurd (Prod.mk.inj (List.mem_singleton.mp heq)).2 hnew
  · rcases List.mem_append.mp hp with hold | hnew
    · refine (h.minded p hold).imp_left fun hcall => ?_
      exact minds_update (s := s) rfl (fun hminds => by rw [hidle] at hminds; cases hminds) hcall
    · rw [List.mem_singleton.mp hnew]
      refine .inl ⟨i, ?_⟩
      show Call.Minds _ (Function.update s.calls i _ i)
      rw [Function.update_self]
      rfl

theorem join (h : Tended s) (hsound : Sound s) {i : ι} {orderID : UUID} {authenticated : Bool}
    {hub : HubID} (hcall : s.calls i = .subscribing orderID authenticated hub) :
    Tended
      { s.goes i (s.heap.join hub authenticated).1 .idle with
        returned := ⟨orderID, (s.heap.join hub authenticated).2, hub⟩ :: s.returned } := by
  have hfresh : s.heap.nextSub ∉ s.left := by
    intro hleft
    obtain ⟨r, hr, hsub⟩ := hsound.left _ hleft
    exact absurd hsub (Nat.ne_of_lt (hsound.returned r hr).1)
  refine h.keeps rfl (fun r hr => List.mem_cons_of_mem _ hr) (fun _ hp => hp) rfl
    (fun other x hx => ?_) fun p hp hminds => ?_
  · by_cases hother : other = hub
    · subst hother
      have hmem : x ∈ s.heap.subscribers other ++ [s.heap.nextSub] := by
        simpa [State.goes, Heap.join] using hx
      rcases List.mem_append.mp hmem with hold | hnew
      · exact .inl hold
      · exact .inr (List.mem_singleton.mp hnew ▸ hfresh)
    · left
      simpa [State.goes, Heap.join, Function.update_of_ne hother] using hx
  · by_cases hmine : (s.calls i).Minds p
    · -- the hub it minded is the one it joins
      rw [hcall] at hmine
      exact .inr ⟨_, List.mem_cons_self, congrArg Prod.snd hmine, hfresh⟩
    · exact .inl (minds_update (s := s) rfl (fun hminds => absurd hminds hmine) hminds)

theorem leave (h : Tended s) (hsound : Sound s) {i : ι} {orderID : UUID} {sub : SubID}
    {hub : HubID} (hcall : s.calls i = .unsubscribing orderID sub hub) :
    Tended
      { s.goes i (s.heap.leave hub sub).1 (.closing orderID sub (s.heap.leave hub sub).2) with
        left := sub :: s.left } := by
  have hknows : Call.Knows s (s.calls i) := hsound.calls i
  rw [hcall] at hknows
  obtain ⟨-, r, hr, rfl, horder, hfound⟩ := hknows
  have hgone : r.sub ∉ (s.heap.remove hub r.sub).subscribers hub := s.heap.not_mem_remove hub r.sub
  have hsubs : ∀ other, ∀ x ∈ (s.heap.remove hub r.sub).subscribers other,
      x ∈ s.heap.subscribers other := fun other x hx => (s.heap.remove_sublist _ _ other).subset hx
  -- a registered hub has the subscriber no more
  have hpresent : ∀ other, s.Registered other →
      ∀ x ∈ (s.heap.remove hub r.sub).subscribers other, x ∉ r.sub :: s.left := by
    intro other hreg x hx hleft
    rcases List.mem_cons.mp hleft with rfl | hleft
    · have hother := hsound.member_hub hr (hsubs other _ hx)
      have hhub := hfound (hother ▸ hreg)
      rw [← hother, hhub] at hx
      exact hgone hx
    · exact h.present other hreg x (hsubs other x hx) hleft
  refine ⟨hpresent, fun p hp => ?_⟩
  rcases h.minded p hp with hminds | ⟨r', hr', hhub', hleft'⟩
  · refine .inl (minds_update (s := s) rfl (fun hmine => ?_) hminds)
    rw [hcall] at hmine
    cases hmine
  · by_cases hsame : r'.sub = r.sub
    · -- the one who saw to the hub leaves it
      have hreg := hsound.registered_of_mem hp
      rw [hsound.unique r' hr' r hr hsame] at hhub'
      have hhub : p.2 = hub := hhub'.symm.trans (hfound (hhub' ▸ hreg))
      cases hrest : (s.heap.remove hub r.sub).subscribers hub with
      | nil =>
        refine .inl ⟨i, ?_⟩
        show Call.Minds p (Function.update s.calls i _ i)
        rw [Function.update_self]
        refine ⟨?_, ?_⟩
        · rw [← horder, ← (hsound.returned r hr).2.2, hhub']
          exact (hsound.orders p hp).1
        · show ((s.heap.remove hub r.sub).subscribers hub).isEmpty = true
          rw [hrest]
          rfl
      | cons y rest =>
        have hy : y ∈ (s.heap.remove hub r.sub).subscribers hub := hrest ▸ List.mem_cons_self
        obtain ⟨r'', hr'', rfl, hhub''⟩ := hsound.members hub y (hsubs hub y hy)
        exact .inr ⟨r'', hr'', hhub''.trans hhub.symm, hpresent hub (hhub ▸ hreg) _ hy⟩
    · refine .inr ⟨r', hr', hhub', fun hleft => ?_⟩
      rcases List.mem_cons.mp hleft with heq | hleft
      · exact hsame heq
      · exact hleft' hleft

theorem forget (h : Tended s) (hsound : Sound s) {i : ι} {orderID : UUID}
    (hcall : s.calls i = .forgetting orderID) :
    Tended (s.goes i (s.heap.forget orderID) .idle) := by
  have hsubs := (s.heap.forget_same orderID).1
  have hhubs : ∀ p ∈ (s.heap.forget orderID).hubs, p ∈ s.heap.hubs := fun p hp =>
    (s.heap.forget_sublist orderID).subset hp
  refine h.keeps rfl (fun r hr => hr) hhubs rfl (fun hub x hx => .inl ?_) fun p hp hminds => ?_
  · simpa only [State.goes, hsubs] using hx
  · by_cases horder : p.1 = orderID
    · -- the order's hub is still there, so somebody is in it
      have hfound : s.heap.hubFor orderID = some p.2 :=
        Heap.hubFor_of_mem hsound.keys (horder ▸ hhubs p hp)
      have hnonempty : (s.heap.subscribers p.2).isEmpty = false := by
        by_contra hempty
        rw [Bool.not_eq_false] at hempty
        simp only [State.goes, Heap.forget, hfound, hempty, if_true] at hp
        exact absurd horder (by simpa using (List.mem_filter.mp hp).2)
      have hne : s.heap.subscribers p.2 ≠ [] := fun hnil => by simp [hnil] at hnonempty
      obtain ⟨x, hx⟩ := List.exists_mem_of_ne_nil _ hne
      exact .inr (h.minded_of_member hsound (hhubs p hp) hx)
    · refine .inl (minds_update (s := s) rfl (fun hmine => ?_) hminds)
      rw [hcall] at hmine
      exact absurd hmine.symm horder

/-- **Every step** leaves every registered hub with somebody who sees to it. -/
theorem step (h : Tended s) (hsound : Sound s) (hstep : Step s s') : Tended s' := by
  -- what minds nothing minds no less afterwards
  have hnothing : ∀ {i : ι} {call call' : Call δ} {p : UUID × HubID}, s.calls i = call →
      ¬ call.Minds p → (s.calls i).Minds p → call'.Minds p := by
    intro i call call' p hcall hno hmine
    exact absurd (hcall ▸ hmine) hno
  cases hstep with
  | @subscribe i idle orderID authenticated =>
    cases hfound : s.heap.hubFor orderID with
    | none => simpa only [hfound, Option.isNone_none, if_true] using h.newHub idle hfound
    | some hub =>
      rw [Heap.openHub_some hfound]
      exact h.keeps rfl (fun _ hr => hr) (fun _ hp => hp) (by simp) (fun _ _ hx => .inl hx)
        fun p _ hminds => .inl (minds_update (s := s) rfl (hnothing idle id) hminds)
  | join call => exact h.join hsound call
  | unsubscribe idle =>
    exact h.keeps rfl (fun _ hr => hr) (fun _ hp => hp) rfl (fun _ _ hx => .inl hx)
      fun p _ hminds => .inl (minds_update (s := s) rfl (hnothing idle id) hminds)
  | unsubscribeNone idle returned none => exact h.unsubscribeNone hsound returned none
  | leave call => exact h.leave hsound call
  | @close i orderID sub empty call =>
    refine h.keeps rfl (fun _ hr => hr) (fun _ hp => hp) rfl (fun _ _ hx => .inl hx)
      fun p _ hminds => .inl (minds_update (s := s) rfl (fun hmine => ?_) hminds)
    rw [call] at hmine
    obtain ⟨horder, rfl⟩ := hmine
    exact horder
  | forget call => exact h.forget hsound call
  | publish idle =>
    exact h.keeps rfl (fun _ hr => hr) (fun _ hp => hp) rfl (fun _ _ hx => .inl hx)
      fun p _ hminds => .inl (minds_update (s := s) rfl (hnothing idle id) hminds)
  | @deliver i orderID hub events known call visit order =>
    have hsends := s.heap.deliver_sends hub events visit
    refine h.keeps rfl (fun _ hr => hr) (fun p hp => hsends.hubs ▸ hp) rfl
      (fun other x hx => .inl ?_)
      fun p _ hminds => .inl (minds_update (s := s) rfl (hnothing call id) hminds)
    by_cases hother : other = hub
    · subst hother
      exact hsends.members.subset hx
    · have hsame := hsends.others other hother
      exact hsame ▸ hx
  | closeAll => exact ⟨fun _ hreg => (nomatch hreg), fun _ hp => (nomatch hp)⟩
  | @drain i hub rest call =>
    exact h.keeps rfl (fun _ hr => hr) (fun _ hp => hp) rfl
      (fun other _ hx => .inl ((s.heap.drain_sublist hub other).subset hx))
      fun p _ hminds => .inl (minds_update (s := s) rfl (hnothing call id) hminds)
  | drained call =>
    exact h.keeps rfl (fun _ hr => hr) (fun _ hp => hp) rfl (fun _ _ hx => .inl hx)
      fun p _ hminds => .inl (minds_update (s := s) rfl (hnothing call id) hminds)
  | receive =>
    exact h.keeps rfl (fun _ hr => hr) (fun _ hp => hp) rfl (fun _ _ hx => .inl hx)
      fun p _ hminds => .inl hminds

end Tended

/-! ## Every run -/

/-- The call is a `Subscribe` or an `Unsubscribe` for the order. -/
def Call.Concerns (orderID : UUID) : Call δ → Prop
  | .subscribing order _ _ => order = orderID
  | .unsubscribing order _ _ => order = orderID
  | .closing order _ _ => order = orderID
  | .forgetting order => order = orderID
  | _ => False

theorem Call.Minds.concerns {p : UUID × HubID} {call : Call δ} (h : call.Minds p) :
    call.Concerns p.1 := by
  cases call with
  | subscribing => exact congrArg Prod.fst h
  | closing => exact h.1
  | forgetting => exact h
  | _ => cases h

structure Attended (s : State ι δ) : Prop where
  /-- a subscriber that is not leaving is in the hub that its order is mapped to -/
  member : ∀ r ∈ s.returned, ¬ s.Leaving r →
    ∃ hub, s.heap.hubFor r.orderID = some hub ∧ r.sub ∈ s.heap.subscribers hub
  /-- so it is in the hub that a `Publish` is about to go through, if it had been returned when the
  `Publish` began -/
  considered : ∀ i orderID hub events known, s.calls i = .publishing orderID hub events known →
    ∀ r ∈ known, r.orderID = orderID → ¬ s.Leaving r → r.sub ∈ s.heap.subscribers hub
  /-- an order that all its subscribers have left, with none under way, has no hub -/
  emptied : ∀ orderID, (∀ r ∈ s.returned, r.orderID = orderID → r.sub ∈ s.left) →
    (∀ i, ¬ (s.calls i).Concerns orderID) → s.heap.hubFor orderID = none

theorem attended {s : State ι δ} (hsound : Sound s) (hkept : Kept s) (hconsiders : Considers s)
    (htended : Tended s) : Attended s where
  member := by
    intro r hr hstays
    obtain ⟨hmember, hreg⟩ := (hkept r hr).resolve_left hstays
    have hfound := hsound.hubFor_registered hreg
    rw [(hsound.returned r hr).2.2] at hfound
    exact ⟨r.hub, hfound, hmember⟩
  considered := by
    intro i orderID hub events known hcall r hr horder hstays
    have hknows : Call.Knows s (s.calls i) := hsound.calls i
    rw [hcall] at hknows
    have hmember := ((hkept r (hknows.2.2 r hr)).resolve_left hstays).1
    exact (hconsiders i orderID hub events known hcall r hr horder).resolve_left hstays ▸ hmember
  emptied := by
    intro orderID hleft hcalls
    cases hfound : s.heap.hubFor orderID with
    | none => rfl
    | some hub =>
      have hmem := Heap.mem_of_hubFor hfound
      rcases htended.minded _ hmem with ⟨i, hminds⟩ | ⟨r, hr, hhub, hstays⟩
      · exact absurd hminds.concerns (hcalls i)
      · have horder : r.orderID = orderID := by
          rw [← (hsound.returned r hr).2.2, hhub]
          exact (hsound.orders _ hmem).1
        exact absurd (hleft r hr horder) hstays

/-- **Nobody is stranded** in a run in which no `Subscribe` joins a hub that has been forgotten. -/
theorem nobody_stranded [DecidableEq ι] {s : State ι δ}
    (hrun : Transition.Run Step (fun s s' => ¬ JoinsForgotten s s') .start s) : Attended s := by
  have hall : (Sound s ∧ Tended s) ∧ Kept s ∧ Considers s := by
    refine hrun.invariant (I := fun s => (Sound s ∧ Tended s) ∧ Kept s ∧ Considers s)
      (fun s s' hstep hjoins h => ?_) ⟨⟨start_sound, nofun, nofun⟩, nofun, nofun⟩
    obtain ⟨⟨hsound, htended⟩, hkept, hconsiders⟩ := h
    exact ⟨⟨hsound.step hstep, htended.step hsound hstep⟩, hkept.step hsound hstep hjoins,
      hconsiders.step hsound hkept hstep⟩
  exact attended hall.1.1 hall.2.1 hall.2.2 hall.1.2

/-- One subscriber. -/
theorem nobody_stranded_one :
    ∃ s : State Unit Unit, s.heap.hubFor ⟨6⟩ = some 0 ∧ s.heap.subscribers 0 = [0] ∧
      Attended s := by
  have hopened : Transition.Run Step (fun s s' => ¬ JoinsForgotten s s')
      (State.start : State Unit Unit) _ :=
    .tail (.refl _) (.subscribe (i := ()) rfl ⟨6⟩ true) fun ⟨_, _, _, _, hcall, _⟩ => nomatch hcall
  have hjoined := hopened.tail (.join (i := ()) rfl) ?_
  · exact ⟨_, rfl, rfl, nobody_stranded hjoined⟩
  · rintro ⟨_, orderID, authenticated, hub, hcall, -, hunregistered, -⟩
    cases hcall
    exact hunregistered (List.mem_singleton.mpr rfl)

/-! ## A hub forgotten too early -/

/-- One goroutine subscribes and unsubscribes; the other is handed the hub in between, and joins it
when it is forgotten. -/
theorem subscriber_stranded :
    ¬ ∀ s : State Bool Unit, Transition.Run Step (fun _ _ => True) .start s → Attended s := by
  intro hevery
  have hfirst : Transition.Run Step (fun _ _ => True) (State.start : State Bool Unit) _ :=
    .tail (.refl _) (.subscribe (i := true) rfl ⟨6⟩ true) trivial
  have hjoined := hfirst.tail (.join (i := true) rfl) trivial
  -- the second is handed the hub
  have hsecond := hjoined.tail (.subscribe (i := false) rfl ⟨6⟩ true) trivial
  have hfound := hsecond.tail (.unsubscribe (i := true) rfl List.mem_cons_self rfl) trivial
  have hleft := hfound.tail (.leave (i := true) rfl) trivial
  have hclosed := hleft.tail (.close (i := true) rfl) trivial
  have hforgotten := hclosed.tail (.forget (i := true) rfl) trivial
  have hstranded := hforgotten.tail (.join (i := false) rfl) trivial
  refine absurd ((hevery _ hstranded).member _ List.mem_cons_self ?_) ?_
  · rintro (hopen | ⟨i, orderID, empty, hclosing⟩ | ⟨⟨i, hubs, hdraining, -⟩, -⟩)
    · cases hopen
    · cases i <;> cases hclosing
    · cases i <;> cases hdraining
  · rintro ⟨hub, hmapped, -⟩
    cases hmapped

end Doenerstag.Sse
