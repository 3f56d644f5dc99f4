import Doenerstag.Sse.Hub
import Doenerstag.Lib.Tables

/-!
# What every run of the hubs keeps

`Sound` says how the registry, the hubs, the subscribers and the calls under way fit together: an
order has one hub, a hub belongs to one order, a subscriber is in no hub but the one it joined.

* `Heap.Sends` — what the loop of a `Publish` may do to the heap.
* `Grows` — what a step leaves as it was.
* `Sound.step` — **every step keeps `Sound`.**
-/

namespace Doenerstag.Sse

variable {ι δ : Type}

/-! ## The sections -/

namespace Heap

variable {heap heap' : Heap δ} {hub : HubID} {orderID : UUID}

theorem mem_of_hubFor (h : heap.hubFor orderID = some hub) : (orderID, hub) ∈ heap.hubs := by
  obtain ⟨p, hp, rfl⟩ := Option.map_eq_some_iff.mp h
  have hkey : p.1 = orderID := by simpa using List.find?_some hp
  exact hkey ▸ List.mem_of_find?_eq_some hp

theorem hubFor_of_mem (hkeys : (heap.hubs.map Prod.fst).Nodup) (h : (orderID, hub) ∈ heap.hubs) :
    heap.hubFor orderID = some hub := by
  have hfound : (heap.hubs.find? fun p => p.1 == orderID) = some (orderID, hub) :=
    Tables.find?_key hkeys h
  rw [hubFor, hfound, Option.map_some]

theorem hubFor_eq_none (h : heap.hubFor orderID = none) : orderID ∉ heap.hubs.map Prod.fst := by
  intro hmem
  obtain ⟨p, hp, heq⟩ := List.mem_map.mp hmem
  have hnone := Option.map_eq_none_iff.mp h
  simpa [heq] using List.find?_eq_none.mp hnone p hp

theorem openHub_some (h : heap.hubFor orderID = some hub) : heap.openHub orderID = (heap, hub) := by
  rw [openHub, h]

theorem openHub_none (h : heap.hubFor orderID = none) :
    heap.openHub orderID =
      ({ heap with
          hubs := heap.hubs ++ [(orderID, heap.nextHub)]
          subscribers := Function.update heap.subscribers heap.nextHub []
          nextHub := heap.nextHub + 1 }, heap.nextHub) := by
  rw [openHub, h]

theorem remove_sublist (hub : HubID) (sub : SubID) (other : HubID) :
    ((heap.remove hub sub).subscribers other).Sublist (heap.subscribers other) := by
  by_cases hne : other = hub
  · subst hne
    show (Function.update heap.subscribers other _ other).Sublist _
    rw [Function.update_self]
    exact List.filter_sublist
  · show (Function.update heap.subscribers hub _ other).Sublist _
    rw [Function.update_of_ne hne]

theorem mem_remove {sub x : SubID} (hx : x ∈ heap.subscribers hub) (hne : x ≠ sub) (other : HubID) :
    x ∈ (heap.remove other sub).subscribers hub := by
  by_cases hhub : hub = other
  · subst hhub
    show x ∈ Function.update heap.subscribers hub _ hub
    rw [Function.update_self]
    exact List.mem_filter.mpr ⟨hx, by simpa using hne⟩
  · show x ∈ Function.update heap.subscribers other _ hub
    rwa [Function.update_of_ne hhub]

theorem not_mem_remove (hub : HubID) (sub : SubID) : sub ∉ (heap.remove hub sub).subscribers hub := by
  show sub ∉ Function.update heap.subscribers hub _ hub
  rw [Function.update_self]
  simp

theorem forget_sublist (orderID : UUID) : (heap.forget orderID).hubs.Sublist heap.hubs := by
  unfold forget
  split
  · exact .refl _
  · split_ifs
    · exact List.filter_sublist
    · exact .refl _

/-- Forgetting a hub changes nothing else. -/
theorem forget_same (orderID : UUID) :
    (heap.forget orderID).subscribers = heap.subscribers ∧
      (heap.forget orderID).subs = heap.subs ∧ (heap.forget orderID).nextHub = heap.nextHub ∧
      (heap.forget orderID).nextSub = heap.nextSub := by
  unfold forget
  split
  · exact ⟨rfl, rfl, rfl, rfl⟩
  · split_ifs <;> exact ⟨rfl, rfl, rfl, rfl⟩

theorem drain_sublist (hub other : HubID) :
    ((heap.drain hub).subscribers other).Sublist (heap.subscribers other) := by
  by_cases hne : other = hub
  · subst hne
    show (Function.update heap.subscribers other [] other).Sublist _
    rw [Function.update_self]
    exact List.nil_sublist _
  · show (Function.update heap.subscribers hub [] other).Sublist _
    rw [Function.update_of_ne hne]

/-- What the loop of a `Publish` does to the heap: it takes subscribers out of the hub whom it
closes, and closes nobody else. -/
structure Sends (hub : HubID) (heap heap' : Heap δ) : Prop where
  hubs : heap'.hubs = heap.hubs
  nextHub : heap'.nextHub = heap.nextHub
  nextSub : heap'.nextSub = heap.nextSub
  others : ∀ other, other ≠ hub → heap'.subscribers other = heap.subscribers other
  members : (heap'.subscribers hub).Sublist (heap.subscribers hub)
  kept : ∀ x ∈ heap.subscribers hub, x ∈ heap'.subscribers hub ∨ (heap'.subs x).closed = true
  closed : ∀ x, (heap.subs x).closed = true → (heap'.subs x).closed = true

namespace Sends

theorem refl (hub : HubID) (heap : Heap δ) : Sends hub heap heap :=
  ⟨rfl, rfl, rfl, fun _ _ => rfl, .refl _, fun _ h => .inl h, fun _ h => h⟩

theorem trans {heap'' : Heap δ} (h : Sends hub heap heap') (h' : Sends hub heap' heap'') :
    Sends hub heap heap'' where
  hubs := h'.hubs.trans h.hubs
  nextHub := h'.nextHub.trans h.nextHub
  nextSub := h'.nextSub.trans h.nextSub
  others := fun other hne => (h'.others other hne).trans (h.others other hne)
  members := h'.members.trans h.members
  kept := by
    intro x hx
    rcases h.kept x hx with hin | hclosed
    · exact h'.kept x hin
    · exact .inr (h'.closed x hclosed)
  closed := fun x hx => h'.closed x (h.closed x hx)

end Sends

end Heap

/-- The loop over the events closes a subscriber it drops, and opens none. -/
theorem Subscriber.sendAll_closed (s : Subscriber δ) (dropped : Bool) (events : List (Event δ))
    (h : dropped = true → s.closed = true) :
    (s.closed = true → (s.sendAll dropped events).sub.closed = true) ∧
      ((s.sendAll dropped events).dropped = true → (s.sendAll dropped events).sub.closed = true) := by
  induction events generalizing s dropped with
  | nil => exact ⟨id, h⟩
  | cons e rest ih =>
    cases hwants : s.wants e with
    | false =>
      rw [sendAll_unwanted hwants]
      exact ih s dropped h
    | true =>
      cases hclosed : s.closed with
      | true =>
        rw [sendAll_onClosed hwants hclosed]
        exact ⟨fun _ => hclosed, fun _ => hclosed⟩
      | false =>
        by_cases hroom : s.events.length < subscriberBuffer
        · rw [sendAll_room hwants hclosed hroom]
          exact ⟨nofun, (ih { s with events := s.events ++ [e] } dropped h).2⟩
        · rw [sendAll_full hwants hclosed hroom]
          exact ⟨nofun, (ih s.close true fun _ => rfl).2⟩

theorem Heap.sendTo_sends (hub : HubID) (sub : SubID) (heap : Heap δ) (events : List (Event δ)) :
    Heap.Sends hub heap (heap.sendTo hub sub ((heap.subs sub).sendAll false events)) := by
  have hsent := (heap.subs sub).sendAll_closed false events nofun
  have hclosed : ∀ (heap' : Heap δ), heap'.subs = heap.subs → ∀ x, (heap.subs x).closed = true →
      ((heap'.setSub sub ((heap.subs sub).sendAll false events).sub).subs x).closed = true := by
    intro heap' hsubs x hx
    by_cases hsub : x = sub
    · subst hsub
      simpa [setSub] using hsent.1 hx
    · simpa [setSub, Function.update_of_ne hsub, hsubs] using hx
  unfold sendTo
  split_ifs with hdropped
  · refine ⟨rfl, rfl, rfl, fun other hne => ?_, ?_, fun x hx => ?_, hclosed _ rfl⟩
    · exact Function.update_of_ne hne _ _
    · show (Function.update heap.subscribers hub _ hub).Sublist _
      rw [Function.update_self]
      exact List.filter_sublist
    · by_cases hsub : x = sub
      · subst hsub
        right
        simpa [setSub] using hsent.2 hdropped
      · left
        show x ∈ Function.update heap.subscribers hub _ hub
        rw [Function.update_self]
        exact List.mem_filter.mpr ⟨hx, by simpa using hsub⟩
  · exact ⟨rfl, rfl, rfl, fun _ _ => rfl, .refl _, fun _ hx => .inl hx, hclosed _ rfl⟩

theorem Heap.deliver_sends (hub : HubID) (events : List (Event δ)) (heap : Heap δ)
    (visit : List SubID) : Heap.Sends hub heap (heap.deliver hub events visit).1 := by
  induction visit generalizing heap with
  | nil => exact .refl hub heap
  | cons sub rest ih =>
    have hfirst := heap.sendTo_sends hub sub events
    unfold deliver
    simp only
    split_ifs
    · exact hfirst
    · exact hfirst.trans (ih _)

/-! ## How everything fits together -/

/-- The registry has the hub, under the order it was made for. -/
def State.Registered (s : State ι δ) (hub : HubID) : Prop := (s.orderOf hub, hub) ∈ s.heap.hubs

/-- What a call knows of what it holds. -/
def Call.Knows (s : State ι δ) : Call δ → Prop
  | .idle => True
  | .subscribing orderID _ hub => hub < s.heap.nextHub ∧ s.orderOf hub = orderID
  | .unsubscribing orderID sub hub => hub < s.heap.nextHub ∧ ∃ r ∈ s.returned, r.sub = sub ∧
      r.orderID = orderID ∧ (s.Registered r.hub → r.hub = hub)
  | .closing orderID sub _ => ∃ r ∈ s.returned, r.sub = sub ∧ r.orderID = orderID
  | .forgetting _ => True
  | .publishing orderID hub _ known => hub < s.heap.nextHub ∧ s.orderOf hub = orderID ∧
      ∀ r ∈ known, r ∈ s.returned
  | .draining hubs => ∀ hub ∈ hubs, hub < s.heap.nextHub

structure Sound (s : State ι δ) : Prop where
  keys : (s.heap.hubs.map Prod.fst).Nodup
  orders : ∀ p ∈ s.heap.hubs, s.orderOf p.2 = p.1 ∧ p.2 < s.heap.nextHub
  returned : ∀ r ∈ s.returned, r.sub < s.heap.nextSub ∧ r.hub < s.heap.nextHub ∧
    s.orderOf r.hub = r.orderID
  unique : ∀ r ∈ s.returned, ∀ r' ∈ s.returned, r.sub = r'.sub → r = r'
  members : ∀ hub, ∀ x ∈ s.heap.subscribers hub, ∃ r ∈ s.returned, r.sub = x ∧ r.hub = hub
  nodup : ∀ hub, (s.heap.subscribers hub).Nodup
  left : ∀ x ∈ s.left, ∃ r ∈ s.returned, r.sub = x
  calls : ∀ i, (s.calls i).Knows s

/-- A step makes hubs and subscribers, and takes hubs out of the registry; it leaves the rest. -/
structure Grows (s s' : State ι δ) : Prop where
  nextHub : s.heap.nextHub ≤ s'.heap.nextHub
  orderOf : ∀ hub < s.heap.nextHub, s'.orderOf hub = s.orderOf hub
  returned : ∀ r ∈ s.returned, r ∈ s'.returned
  registered : ∀ hub < s.heap.nextHub, s'.Registered hub → s.Registered hub

namespace Sound

variable {s s' : State ι δ} (h : Sound s)

include h

theorem registered_of_mem {p : UUID × HubID} (hp : p ∈ s.heap.hubs) : s.Registered p.2 := by
  rw [State.Registered, (h.orders p hp).1]
  exact hp

theorem hubFor_registered {hub : HubID} (hreg : s.Registered hub) :
    s.heap.hubFor (s.orderOf hub) = some hub :=
  Heap.hubFor_of_mem h.keys hreg

theorem registered_of_hubFor {orderID : UUID} {hub : HubID}
    (hfound : s.heap.hubFor orderID = some hub) : s.Registered hub ∧ s.orderOf hub = orderID :=
  have hmem := Heap.mem_of_hubFor hfound
  ⟨h.registered_of_mem hmem, (h.orders _ hmem).1⟩

theorem registered_lt {hub : HubID} (hreg : s.Registered hub) : hub < s.heap.nextHub :=
  (h.orders _ hreg).2

/-- A subscriber is in no hub but the one it joined. -/
theorem member_hub {r : Returned} (hr : r ∈ s.returned) {hub : HubID}
    (hx : r.sub ∈ s.heap.subscribers hub) : r.hub = hub := by
  obtain ⟨r', hr', hsub, hhub⟩ := h.members hub _ hx
  rw [h.unique r hr r' hr' hsub.symm]
  exact hhub

/-- What a call knows, it knows after the steps of others. -/
theorem knows_mono (hgrows : Grows s s') {call : Call δ} (hknows : call.Knows s) :
    call.Knows s' := by
  cases call with
  | idle => trivial
  | forgetting => trivial
  | subscribing orderID authenticated hub =>
    obtain ⟨hlt, horder⟩ := hknows
    exact ⟨hlt.trans_le hgrows.nextHub, (hgrows.orderOf hub hlt).trans horder⟩
  | unsubscribing orderID sub hub =>
    obtain ⟨hlt, r, hr, hsub, horder, hreg⟩ := hknows
    refine ⟨hlt.trans_le hgrows.nextHub, r, hgrows.returned r hr, hsub, horder, fun hreg' => ?_⟩
    exact hreg (hgrows.registered r.hub (h.returned r hr).2.1 hreg')
  | closing orderID sub empty =>
    obtain ⟨r, hr, hsub, horder⟩ := hknows
    exact ⟨r, hgrows.returned r hr, hsub, horder⟩
  | publishing orderID hub events known =>
    obtain ⟨hlt, horder, hknown⟩ := hknows
    exact ⟨hlt.trans_le hgrows.nextHub, (hgrows.orderOf hub hlt).trans horder,
      fun r hr => hgrows.returned r (hknown r hr)⟩
  | draining hubs => exact fun hub hhub => (hknows hub hhub).trans_le hgrows.nextHub

theorem calls_update [DecidableEq ι] (hgrows : Grows s s') {i : ι} {call : Call δ}
    (hcalls : s'.calls = Function.update s.calls i call) (hcall : call.Knows s') :
    ∀ j, (s'.calls j).Knows s' := by
  intro j
  rw [hcalls]
  by_cases hj : j = i
  · subst hj
    rw [Function.update_self]
    exact hcall
  · rw [Function.update_of_ne hj]
    exact h.knows_mono hgrows (h.calls j)

/-- A step that makes no hub and no subscriber. -/
theorem shrink (hhubs : s'.heap.hubs.Sublist s.heap.hubs)
    (hsubs : ∀ hub, (s'.heap.subscribers hub).Sublist (s.heap.subscribers hub))
    (hnextHub : s'.heap.nextHub = s.heap.nextHub) (hnextSub : s'.heap.nextSub = s.heap.nextSub)
    (hreturned : s'.returned = s.returned) (horder : s'.orderOf = s.orderOf)
    (hleft : ∀ x ∈ s'.left, x ∈ s.left ∨ ∃ r ∈ s.returned, r.sub = x)
    (hcalls : ∀ i, (s'.calls i).Knows s') : Sound s' where
  keys := h.keys.sublist (hhubs.map Prod.fst)
  orders := by
    intro p hp
    rw [horder, hnextHub]
    exact h.orders p (hhubs.subset hp)
  returned := by
    rw [hreturned, horder, hnextHub, hnextSub]
    exact h.returned
  unique := by
    rw [hreturned]
    exact h.unique
  members := by
    intro hub x hx
    rw [hreturned]
    exact h.members hub x ((hsubs hub).subset hx)
  nodup := fun hub => (h.nodup hub).sublist (hsubs hub)
  left := by
    intro x hx
    rw [hreturned]
    exact (hleft x hx).elim (h.left x) id
  calls := hcalls

end Sound

theorem Grows.of_sublist {s s' : State ι δ} (hhubs : s'.heap.hubs.Sublist s.heap.hubs)
    (hnextHub : s'.heap.nextHub = s.heap.nextHub) (hreturned : s'.returned = s.returned)
    (horder : s'.orderOf = s.orderOf) : Grows s s' where
  nextHub := hnextHub.ge
  orderOf := fun hub _ => by rw [horder]
  returned := fun r hr => hreturned ▸ hr
  registered := by
    intro hub _ hreg
    rw [State.Registered, horder] at hreg
    exact hhubs.subset hreg

theorem start_sound : Sound (State.start : State ι δ) where
  keys := .nil
  orders := nofun
  returned := nofun
  unique := nofun
  members := nofun
  nodup := fun _ => .nil
  left := nofun
  calls := fun _ => trivial

/-! ## Every step -/

section Steps

variable [DecidableEq ι] {s s' : State ι δ}

/-- A new hub. -/
theorem grows_newHub {orderID : UUID} {authenticated : Bool} {i : ι}
    (hnone : s.heap.hubFor orderID = none) :
    Grows s
      { s.goes i (s.heap.openHub orderID).1
          (.subscribing orderID authenticated (s.heap.openHub orderID).2) with
        orderOf := Function.update s.orderOf s.heap.nextHub orderID } where
  nextHub := by
    rw [Heap.openHub_none hnone]
    exact Nat.le_succ _
  orderOf := fun hub hlt => Function.update_of_ne (Nat.ne_of_lt hlt) _ _
  returned := fun r hr => hr
  registered := by
    intro hub hlt hreg
    rw [State.Registered, Heap.openHub_none hnone] at hreg
    simp only [State.goes, Function.update_of_ne (Nat.ne_of_lt hlt)] at hreg
    rcases List.mem_append.mp hreg with hold | hnew
    · exact hold
    · exact absurd (Prod.mk.inj (List.mem_singleton.mp hnew)).2 (Nat.ne_of_lt hlt)

theorem Step.grows (hstep : Step s s') : Grows s s' := by
  cases hstep with
  | @subscribe i idle orderID authenticated =>
    cases hfound : s.heap.hubFor orderID with
    | none =>
      simpa only [hfound, Option.isNone_none, if_true] using grows_newHub hfound
    | some hub =>
      have hsame := Heap.openHub_some hfound
      exact .of_sublist (by rw [State.goes, hsame]) (by rw [State.goes, hsame]) rfl (by simp)
  | join call =>
    exact ⟨le_rfl, fun _ _ => rfl, fun r hr => List.mem_cons_of_mem _ hr, fun _ _ hreg => hreg⟩
  | unsubscribe => exact .of_sublist (.refl _) rfl rfl rfl
  | unsubscribeNone => exact .of_sublist (.refl _) rfl rfl rfl
  | leave => exact .of_sublist (.refl _) rfl rfl rfl
  | close => exact .of_sublist (.refl _) rfl rfl rfl
  | @forget i orderID call =>
    exact .of_sublist (Heap.forget_sublist orderID) (Heap.forget_same orderID).2.2.1 rfl rfl
  | publish => exact .of_sublist (.refl _) rfl rfl rfl
  | @deliver i orderID hub events known call visit order =>
    have hsends := s.heap.deliver_sends hub events visit
    exact .of_sublist (hsends.hubs ▸ .refl _) hsends.nextHub rfl rfl
  | closeAll => exact .of_sublist (List.nil_sublist _) rfl rfl rfl
  | drain => exact .of_sublist (.refl _) rfl rfl rfl
  | drained => exact .of_sublist (.refl _) rfl rfl rfl
  | receive => exact .of_sublist (.refl _) rfl rfl rfl

theorem sound_newHub (h : Sound s) {orderID : UUID} {authenticated : Bool} {i : ι}
    (hnone : s.heap.hubFor orderID = none) :
    Sound
      { s.goes i (s.heap.openHub orderID).1
          (.subscribing orderID authenticated (s.heap.openHub orderID).2) with
        orderOf := Function.update s.orderOf s.heap.nextHub orderID } := by
  have hgrows : Grows s
      { s.goes i (s.heap.openHub orderID).1
          (.subscribing orderID authenticated (s.heap.openHub orderID).2) with
        orderOf := Function.update s.orderOf s.heap.nextHub orderID } := grows_newHub hnone
  have hfresh : ∀ hub < s.heap.nextHub,
      Function.update s.orderOf s.heap.nextHub orderID hub = s.orderOf hub := hgrows.orderOf
  have hcall : (Call.subscribing orderID authenticated (s.heap.openHub orderID).2 : Call δ).Knows
      { s.goes i (s.heap.openHub orderID).1
          (.subscribing orderID authenticated (s.heap.openHub orderID).2) with
        orderOf := Function.update s.orderOf s.heap.nextHub orderID } := by
    rw [Heap.openHub_none hnone]
    exact ⟨Nat.lt_succ_self _, Function.update_self ..⟩
  have hcalls := h.calls_update hgrows rfl hcall
  rw [Heap.openHub_none hnone] at hcalls ⊢
  exact {
    keys := by
      show ((s.heap.hubs ++ [(orderID, s.heap.nextHub)]).map Prod.fst).Nodup
      rw [List.map_append, List.nodup_append]
      refine ⟨h.keys, List.nodup_singleton _, fun a ha b hb heq => ?_⟩
      rw [List.map_singleton, List.mem_singleton] at hb
      have hmem : orderID ∈ s.heap.hubs.map Prod.fst := by
        rw [heq, hb] at ha
        exact ha
      exact Heap.hubFor_eq_none hnone hmem
    orders := by
      intro p hp
      rcases List.mem_append.mp hp with hold | hnew
      · obtain ⟨horder, hlt⟩ := h.orders p hold
        exact ⟨(hfresh _ hlt).trans horder, hlt.trans (Nat.lt_succ_self _)⟩
      · rw [List.mem_singleton.mp hnew]
        exact ⟨Function.update_self .., Nat.lt_succ_self _⟩
    returned := by
      intro r hr
      obtain ⟨hsub, hhub, horder⟩ := h.returned r hr
      exact ⟨hsub, hhub.trans (Nat.lt_succ_self _), (hfresh _ hhub).trans horder⟩
    unique := h.unique
    members := by
      intro hub x hx
      by_cases hnew : hub = s.heap.nextHub
      · subst hnew
        simp [State.goes] at hx
      · refine h.members hub x ?_
        simpa [State.goes, Function.update_of_ne hnew] using hx
    nodup := by
      intro hub
      by_cases hnew : hub = s.heap.nextHub
      · subst hnew
        simp [State.goes]
      · simpa [State.goes, Function.update_of_ne hnew] using h.nodup hub
    left := h.left
    calls := hcalls }

theorem sound_join (h : Sound s) {i : ι} {orderID : UUID} {authenticated : Bool} {hub : HubID}
    (hcall : s.calls i = .subscribing orderID authenticated hub) :
    Sound
      { s.goes i (s.heap.join hub authenticated).1 .idle with
        returned := ⟨orderID, (s.heap.join hub authenticated).2, hub⟩ :: s.returned } := by
  have hgrows : Grows s
      { s.goes i (s.heap.join hub authenticated).1 .idle with
        returned := ⟨orderID, (s.heap.join hub authenticated).2, hub⟩ :: s.returned } :=
    Step.grows (.join hcall)
  have hknows : Call.Knows s (s.calls i) := h.calls i
  rw [hcall] at hknows
  have hold : ∀ r ∈ s.returned, r.sub ≠ s.heap.nextSub := fun r hr =>
    Nat.ne_of_lt (h.returned r hr).1
  exact {
    keys := h.keys
    orders := h.orders
    returned := by
      intro r hr
      rcases List.mem_cons.mp hr with rfl | hr
      · exact ⟨Nat.lt_succ_self _, hknows⟩
      · obtain ⟨hsub, hrest⟩ := h.returned r hr
        exact ⟨hsub.trans (Nat.lt_succ_self _), hrest⟩
    unique := by
      intro r hr r' hr' hsub
      rcases List.mem_cons.mp hr with rfl | hr <;> rcases List.mem_cons.mp hr' with rfl | hr'
      · rfl
      · exact absurd hsub.symm (hold r' hr')
      · exact absurd hsub (hold r hr)
      · exact h.unique r hr r' hr' hsub
    members := by
      intro other x hx
      by_cases hother : other = hub
      · subst hother
        have hmem : x ∈ s.heap.subscribers other ++ [s.heap.nextSub] := by
          simpa [State.goes, Heap.join] using hx
        rcases List.mem_append.mp hmem with hin | hnew
        · obtain ⟨r, hr, hrest⟩ := h.members other x hin
          exact ⟨r, List.mem_cons_of_mem _ hr, hrest⟩
        · rw [List.mem_singleton.mp hnew]
          exact ⟨_, List.mem_cons_self, rfl, rfl⟩
      · have hin : x ∈ s.heap.subscribers other := by
          simpa [State.goes, Heap.join, Function.update_of_ne hother] using hx
        obtain ⟨r, hr, hrest⟩ := h.members other x hin
        exact ⟨r, List.mem_cons_of_mem _ hr, hrest⟩
    nodup := by
      intro other
      by_cases hother : other = hub
      · subst hother
        show (Function.update s.heap.subscribers other _ other).Nodup
        rw [Function.update_self, List.nodup_append]
        refine ⟨h.nodup other, List.nodup_singleton _, fun a ha b hb heq => ?_⟩
        obtain ⟨r, hr, hsub, -⟩ := h.members other a ha
        exact hold r hr (by rw [hsub, heq, List.mem_singleton.mp hb])
      · show (Function.update s.heap.subscribers hub _ other).Nodup
        rw [Function.update_of_ne hother]
        exact h.nodup other
    left := by
      intro x hx
      obtain ⟨r, hr, hsub⟩ := h.left x hx
      exact ⟨r, List.mem_cons_of_mem _ hr, hsub⟩
    calls := h.calls_update hgrows rfl (show Call.Knows _ .idle from trivial) }

/-- **Every step** keeps how everything fits together. -/
theorem Sound.step (h : Sound s) (hstep : Step s s') : Sound s' := by
  have hgrows := hstep.grows
  have hidle : ∀ s' : State ι δ, Call.Knows s' .idle := fun _ => trivial
  cases hstep with
  | @subscribe i idle orderID authenticated =>
    cases hfound : s.heap.hubFor orderID with
    | none => simpa only [hfound, Option.isNone_none, if_true] using sound_newHub h hfound
    | some hub =>
      obtain ⟨hreg, horder⟩ := h.registered_of_hubFor hfound
      simp only [hfound, Heap.openHub_some hfound] at hgrows ⊢
      refine h.shrink (.refl _) (fun _ => .refl _) rfl rfl rfl rfl (fun _ hx => .inl hx) ?_
      exact h.calls_update hgrows rfl ⟨h.registered_lt hreg, horder⟩
  | join call => exact sound_join h call
  | @unsubscribe i idle r hr hub found =>
    obtain ⟨hreg, horder⟩ := h.registered_of_hubFor found
    refine h.shrink (.refl _) (fun _ => .refl _) rfl rfl rfl rfl (fun _ hx => .inl hx) ?_
    refine h.calls_update hgrows rfl ⟨h.registered_lt hreg, r, hr, rfl, rfl, fun hreg' => ?_⟩
    -- an order has one hub
    have hown := h.hubFor_registered hreg'
    rw [(h.returned r hr).2.2, found] at hown
    exact (Option.some.inj hown).symm
  | @unsubscribeNone i idle r hr none =>
    refine h.shrink (.refl _) (fun _ => .refl _) rfl rfl rfl rfl (fun x hx => ?_)
      fun j => h.knows_mono hgrows (h.calls j)
    rcases List.mem_cons.mp hx with rfl | hx
    · exact .inr ⟨r, hr, rfl⟩
    · exact .inl hx
  | @leave i orderID sub hub call =>
    have hknows : Call.Knows s (s.calls i) := h.calls i
    rw [call] at hknows
    obtain ⟨-, r, hr, hsub, horder, -⟩ := hknows
    refine h.shrink (.refl _) (fun other => s.heap.remove_sublist hub sub other) rfl rfl rfl rfl
      (fun x hx => ?_) (h.calls_update hgrows rfl ⟨r, hr, hsub, horder⟩)
    rcases List.mem_cons.mp hx with rfl | hx
    · exact .inr ⟨r, hr, hsub⟩
    · exact .inl hx
  | @close i orderID sub empty call =>
    refine h.shrink (.refl _) (fun _ => .refl _) rfl rfl rfl rfl (fun _ hx => .inl hx)
      (h.calls_update hgrows rfl ?_)
    split_ifs
    · trivial
    · trivial
  | @forget i orderID call =>
    obtain ⟨hsubs, -, hnextHub, hnextSub⟩ := s.heap.forget_same orderID
    exact h.shrink (s.heap.forget_sublist orderID) (fun hub => by rw [State.goes, hsubs]) hnextHub
      hnextSub rfl rfl (fun _ hx => .inl hx) (h.calls_update hgrows rfl (hidle _))
  | @publish i idle orderID hub found events =>
    obtain ⟨hreg, horder⟩ := h.registered_of_hubFor found
    refine h.shrink (.refl _) (fun _ => .refl _) rfl rfl rfl rfl (fun _ hx => .inl hx) ?_
    exact h.calls_update hgrows rfl ⟨h.registered_lt hreg, horder, fun r hr => hr⟩
  | @deliver i orderID hub events known call visit order =>
    have hsends := s.heap.deliver_sends hub events visit
    refine h.shrink (hsends.hubs ▸ .refl _) (fun other => ?_) hsends.nextHub hsends.nextSub rfl rfl
      (fun _ hx => .inl hx) (h.calls_update hgrows rfl (hidle _))
    by_cases hother : other = hub
    · rw [hother]
      exact hsends.members
    · exact hsends.others other hother ▸ .refl _
  | @closeAll i idle =>
    refine h.shrink (List.nil_sublist _) (fun _ => .refl _) rfl rfl rfl rfl (fun _ hx => .inl hx)
      (h.calls_update hgrows rfl fun hub hhub => ?_)
    obtain ⟨p, hp, rfl⟩ := List.mem_map.mp hhub
    exact (h.orders p hp).2
  | @drain i hub rest call =>
    have hknows : Call.Knows s (s.calls i) := h.calls i
    rw [call] at hknows
    refine h.shrink (.refl _) (fun other => s.heap.drain_sublist hub other) rfl rfl rfl rfl
      (fun _ hx => .inl hx) (h.calls_update hgrows rfl ?_)
    split_ifs
    · trivial
    · exact fun other hother => hknows other (List.mem_cons_of_mem _ hother)
  | drained =>
    exact h.shrink (.refl _) (fun _ => .refl _) rfl rfl rfl rfl (fun _ hx => .inl hx)
      (h.calls_update hgrows rfl (hidle _))
  | receive sub =>
    exact h.shrink (.refl _) (fun _ => .refl _) rfl rfl rfl rfl (fun _ hx => .inl hx)
      fun j => h.knows_mono hgrows (h.calls j)

end Steps

end Doenerstag.Sse
