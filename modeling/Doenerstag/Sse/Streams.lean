import Doenerstag.Sse.ClosedChannel
import Mathlib.Data.List.Forall2

/-!
# What one subscriber gets

A hub as one of its subscribers sees it: the events published to the hub, one `Publish` after the
other, and between them its own reader taking events out of its channel.

* `Stream.after` — the subscriber's stream after such moments, as a function of them.
* `Stream.after_congr` — **a stream depends on the events its subscriber wants**, and on no others.
* `Stream.after_joined` — a subscriber that was not dropped was sent every event it wants.
* `Watched.stream` — the streams of the heap are these, whatever the other subscribers do.
-/

namespace Doenerstag.Sse

variable {δ : Type}

/-! ## One stream -/

/-- A subscriber, whether it is in its hub, and what its reader has taken. -/
structure Stream (δ : Type) where
  sub : Subscriber δ
  joined : Bool
  got : List (Event δ)
  deriving DecidableEq, Repr

inductive Moment (δ : Type) where
  /-- somebody publishes to the hub -/
  | publish (events : List (Event δ))
  /-- the subscriber's reader takes an event -/
  | read
  deriving DecidableEq, Repr

namespace Stream

/-- `Publish`, for this subscriber. -/
def publish (s : Stream δ) (events : List (Event δ)) : Stream δ :=
  if s.joined then
    let sent := s.sub.sendAll false events
    { s with sub := sent.sub, joined := !sent.dropped }
  else s

def read (s : Stream δ) : Stream δ :=
  { s with sub := s.sub.receive, got := s.got ++ s.sub.events.head?.toList }

def step (s : Stream δ) : Moment δ → Stream δ
  | .publish events => s.publish events
  | .read => s.read

def after (s : Stream δ) (moments : List (Moment δ)) : Stream δ := moments.foldl step s

/-- Everything the subscriber has been sent: what its reader has taken, and what waits for it. -/
def sent (s : Stream δ) : List (Event δ) := s.got ++ s.sub.events

end Stream

/-! ## What a subscriber does not want does not matter -/

theorem wants_congr {s s' : Subscriber δ} (h : s.authenticated = s'.authenticated) :
    s.wants = s'.wants := by
  funext e
  cases haudience : e.audience <;> simp [Subscriber.wants, haudience, h]

theorem sendAll_authenticated (s : Subscriber δ) (dropped : Bool) (events : List (Event δ)) :
    (s.sendAll dropped events).sub.authenticated = s.authenticated := by
  induction events generalizing s dropped with
  | nil => rfl
  | cons e rest ih =>
    cases hwants : s.wants e with
    | false => rw [sendAll_unwanted hwants, ih]
    | true =>
      cases hclosed : s.closed with
      | true => rw [sendAll_onClosed hwants hclosed]
      | false =>
        by_cases hroom : s.events.length < subscriberBuffer
        · rw [sendAll_room hwants hclosed hroom, ih]
        · rw [sendAll_full hwants hclosed hroom, ih]
          rfl

theorem sendAll_filter (s : Subscriber δ) (dropped : Bool) (events : List (Event δ)) :
    s.sendAll dropped (events.filter s.wants) = s.sendAll dropped events := by
  induction events generalizing s dropped with
  | nil => rfl
  | cons e rest ih =>
    cases hwants : s.wants e with
    | false =>
      rw [List.filter_cons_of_neg (by simp [hwants]), sendAll_unwanted hwants]
      exact ih s dropped
    | true =>
      rw [List.filter_cons_of_pos hwants]
      cases hclosed : s.closed with
      | true => rw [sendAll_onClosed hwants hclosed, sendAll_onClosed hwants hclosed]
      | false =>
        by_cases hroom : s.events.length < subscriberBuffer
        · rw [sendAll_room hwants hclosed hroom, sendAll_room hwants hclosed hroom]
          exact ih { s with events := s.events ++ [e] } dropped
        · rw [sendAll_full hwants hclosed hroom, sendAll_full hwants hclosed hroom]
          exact ih s.close true

/-- The same moment for a subscriber: its reader reads, or the same events it wants are published. -/
inductive Moment.SameFor (s : Subscriber δ) : Moment δ → Moment δ → Prop where
  | publish {events events' : List (Event δ)} (same : events.filter s.wants = events'.filter s.wants) :
      SameFor s (.publish events) (.publish events')
  | read : SameFor s .read .read

namespace Stream

theorem step_authenticated (s : Stream δ) (m : Moment δ) :
    (s.step m).sub.authenticated = s.sub.authenticated := by
  cases m with
  | read => rfl
  | publish events =>
    show (s.publish events).sub.authenticated = _
    unfold publish
    split_ifs
    · exact sendAll_authenticated s.sub false events
    · rfl

theorem step_congr {s : Stream δ} {m m' : Moment δ} (h : m.SameFor s.sub m') :
    s.step m = s.step m' := by
  cases h with
  | read => rfl
  | @publish events events' same =>
    show s.publish events = s.publish events'
    unfold publish
    rw [← sendAll_filter s.sub false events, ← sendAll_filter s.sub false events', same]

theorem after_congr {s : Stream δ} {moments moments' : List (Moment δ)}
    (h : List.Forall₂ (Moment.SameFor s.sub) moments moments') :
    s.after moments = s.after moments' := by
  induction moments generalizing s moments' with
  | nil =>
    cases h
    rfl
  | cons m rest ih =>
    cases h with
    | @cons _ m' _ rest' hfirst hrest =>
      show (s.step m).after rest = (s.step m').after rest'
      rw [← step_congr hfirst]
      have hwants : (s.step m).sub.wants = s.sub.wants := wants_congr (s.step_authenticated m)
      refine ih (hrest.imp fun m m' hsame => ?_)
      cases hsame with
      | publish same => exact .publish (by rw [hwants, same])
      | read => exact .read

end Stream

/-! ## A subscriber that is not dropped is sent everything -/

theorem sendAll_dropped (s : Subscriber δ) (events : List (Event δ)) :
    (s.sendAll true events).dropped = true := by
  induction events generalizing s with
  | nil => rfl
  | cons e rest ih =>
    unfold Subscriber.sendAll
    split_ifs
    · exact ih s
    · rfl
    · exact ih _
    · exact ih _

/-- An open subscriber that has not been dropped has been sent what it wants. -/
theorem sendAll_kept {s : Subscriber δ} {events : List (Event δ)} (hopen : s.closed = false)
    (hkept : (s.sendAll false events).dropped = false) :
    (s.sendAll false events).sub = { s with events := s.events ++ events.filter s.wants } := by
  induction events generalizing s with
  | nil => simp [Subscriber.sendAll]
  | cons e rest ih =>
    cases hwants : s.wants e with
    | false =>
      rw [sendAll_unwanted hwants] at hkept ⊢
      rw [ih hopen hkept, List.filter_cons_of_neg (by simp [hwants])]
    | true =>
      by_cases hroom : s.events.length < subscriberBuffer
      · rw [sendAll_room hwants hopen hroom] at hkept ⊢
        have hrest := ih (s := { s with events := s.events ++ [e] }) hopen hkept
        rw [hrest, List.filter_cons_of_pos hwants]
        show { s with events := (s.events ++ [e]) ++ rest.filter s.wants } = _
        rw [List.append_assoc]
        rfl
      · rw [sendAll_full hwants hopen hroom, sendAll_dropped] at hkept
        exact Bool.noConfusion hkept

/-- The events of a moment. -/
def Moment.events : Moment δ → List (Event δ)
  | .publish events => events
  | .read => []

namespace Stream

/-- A moment that leaves the subscriber in the hub: it was there and open, and it still is; it has
been sent the events it wants. -/
theorem step_joined {s : Stream δ} {m : Moment δ} (hopen : s.joined = true → s.sub.closed = false)
    (h : (s.step m).joined = true) :
    s.joined = true ∧ (s.step m).sub.closed = false ∧
      (s.step m).sent = s.sent ++ m.events.filter s.sub.wants := by
  cases m with
  | read =>
    refine ⟨h, hopen h, ?_⟩
    show (s.got ++ s.sub.events.head?.toList) ++ s.sub.events.tail = s.got ++ s.sub.events ++ []
    cases s.sub.events <;> simp
  | publish events =>
    have hstep : s.step (.publish events) = s.publish events := rfl
    rw [hstep] at h ⊢
    unfold publish at h ⊢
    split_ifs at h ⊢ with hjoined
    · have hkept : (s.sub.sendAll false events).dropped = false := by simpa using h
      have hsub := sendAll_kept (hopen hjoined) hkept
      refine ⟨hjoined, ?_, ?_⟩
      · show (s.sub.sendAll false events).sub.closed = false
        rw [hsub]
        exact hopen hjoined
      · show s.got ++ (s.sub.sendAll false events).sub.events = s.got ++ s.sub.events ++ _
        rw [hsub, List.append_assoc]
        rfl
    · exact absurd h hjoined

/-- **A subscriber that is in the hub at the end was sent every event it wants**, in the order they
were published. -/
theorem after_joined {s : Stream δ} {moments : List (Moment δ)}
    (hopen : s.joined = true → s.sub.closed = false) (h : (s.after moments).joined = true) :
    s.joined = true ∧
      (s.after moments).sent = s.sent ++ (moments.flatMap Moment.events).filter s.sub.wants := by
  induction moments generalizing s with
  | nil => exact ⟨h, by simp [after]⟩
  | cons m rest ih =>
    have hafter : s.after (m :: rest) = (s.step m).after rest := rfl
    rw [hafter] at h ⊢
    have hstill : (s.step m).joined = true → (s.step m).sub.closed = false :=
      fun hm => (step_joined hopen hm).2.1
    obtain ⟨hm, hsent⟩ := ih hstill h
    obtain ⟨hjoined, -, hfirst⟩ := step_joined hopen hm
    refine ⟨hjoined, ?_⟩
    rw [hsent, hfirst, wants_congr (s.step_authenticated m), List.flatMap_cons, List.filter_append,
      List.append_assoc]

end Stream

/-! ## Streams of the heap -/

namespace Heap

variable {heap heap' heap'' : Heap δ} {hub : HubID} {x : SubID}

/-- The stream of a subscriber, when its reader has taken `got`. -/
def stream (heap : Heap δ) (hub : HubID) (x : SubID) (got : List (Event δ)) : Stream δ where
  sub := heap.subs x
  joined := (heap.subscribers hub).contains x
  got := got

/-- The subscribers of the hub are open, and each is there once. -/
structure Tidy (hub : HubID) (heap : Heap δ) : Prop where
  nodup : (heap.subscribers hub).Nodup
  isOpen : ∀ x ∈ heap.subscribers hub, (heap.subs x).closed = false

theorem mem_remove_iff {sub : SubID} :
    x ∈ (heap.remove hub sub).subscribers hub ↔ x ∈ heap.subscribers hub ∧ x ≠ sub := by
  show x ∈ Function.update heap.subscribers hub _ hub ↔ _
  rw [Function.update_self, List.mem_filter, bne_iff_ne]

/-- A send to another subscriber. -/
theorem sendTo_other (heap : Heap δ) (hub : HubID) {sub : SubID} (sent : Sent δ) (hne : x ≠ sub) :
    (heap.sendTo hub sub sent).subs x = heap.subs x ∧
      (x ∈ (heap.sendTo hub sub sent).subscribers hub ↔ x ∈ heap.subscribers hub) := by
  constructor
  · rw [sendTo_subs, Function.update_of_ne hne]
  · unfold sendTo
    split_ifs
    · show x ∈ (heap.remove hub sub).subscribers hub ↔ _
      rw [mem_remove_iff]
      exact ⟨And.left, fun hx => ⟨hx, hne⟩⟩
    · exact Iff.rfl

theorem sendTo_self (heap : Heap δ) (hub : HubID) (x : SubID) (sent : Sent δ) :
    (heap.sendTo hub x sent).subs x = sent.sub ∧
      (x ∈ (heap.sendTo hub x sent).subscribers hub ↔
        x ∈ heap.subscribers hub ∧ sent.dropped = false) := by
  constructor
  · rw [sendTo_subs, Function.update_self]
  · unfold sendTo
    split_ifs with hdropped
    · show x ∈ (heap.remove hub x).subscribers hub ↔ _
      rw [mem_remove_iff]
      simp [hdropped]
    · have hkept : sent.dropped = false := by simpa using hdropped
      exact ⟨fun hx => ⟨hx, hkept⟩, And.left⟩

theorem deliver_cons {events : List (Event δ)} {sub : SubID} {rest : List SubID} :
    heap.deliver hub events (sub :: rest) =
      let sent := (heap.subs sub).sendAll false events
      if sent.panicked then (heap.sendTo hub sub sent, true)
      else (heap.sendTo hub sub sent).deliver hub events rest := rfl

/-- Whom a publication does not visit, it does not touch. -/
theorem deliver_beside (heap : Heap δ) (hub : HubID) (events : List (Event δ)) {visit : List SubID}
    (hx : x ∉ visit) :
    (heap.deliver hub events visit).1.subs x = heap.subs x ∧
      (x ∈ (heap.deliver hub events visit).1.subscribers hub ↔ x ∈ heap.subscribers hub) := by
  induction visit generalizing heap with
  | nil => exact ⟨rfl, Iff.rfl⟩
  | cons sub rest ih =>
    obtain ⟨hsubs, hmem⟩ := heap.sendTo_other hub ((heap.subs sub).sendAll false events)
      (List.ne_of_not_mem_cons hx)
    rw [deliver_cons]
    simp only
    split_ifs
    · exact ⟨hsubs, hmem⟩
    · obtain ⟨hrest, hrestMem⟩ := ih (heap.sendTo hub sub _) (List.not_mem_of_not_mem_cons hx)
      exact ⟨hrest.trans hsubs, hrestMem.trans hmem⟩

/-- What a publication does to one subscriber of the hub, if no subscriber is sent more than one of
its events. -/
theorem deliver_stream (heap : Heap δ) (hub : HubID) {events : List (Event δ)} {visit : List SubID}
    (hnodup : visit.Nodup) (hopen : ∀ x ∈ visit, (heap.subs x).closed = false)
    (hwanted : ∀ s : Subscriber δ, s.wanted events ≤ 1) (hx : x ∈ visit) :
    ((heap.deliver hub events visit).1.subs x = ((heap.subs x).sendAll false events).sub) ∧
      (x ∈ (heap.deliver hub events visit).1.subscribers hub ↔
        x ∈ heap.subscribers hub ∧ ((heap.subs x).sendAll false events).dropped = false) := by
  induction visit generalizing heap with
  | nil => exact absurd hx List.not_mem_nil
  | cons sub rest ih =>
    obtain ⟨hnew, hnodup'⟩ := List.nodup_cons.mp hnodup
    have hfits : ((heap.subs sub).sendAll false events).panicked = false :=
      ((heap.subs sub).sendAll_fits (hopen sub List.mem_cons_self)
        ((hwanted _).trans (Nat.le_add_left 1 _))).1
    have hdeliver : heap.deliver hub events (sub :: rest) =
        (heap.sendTo hub sub ((heap.subs sub).sendAll false events)).deliver hub events rest := by
      rw [deliver_cons]
      simp [hfits]
    rw [hdeliver]
    rcases List.mem_cons.mp hx with rfl | hx
    · obtain ⟨hsubs, hmem⟩ := heap.sendTo_self hub x ((heap.subs x).sendAll false events)
      obtain ⟨hrest, hrestMem⟩ :=
        (heap.sendTo hub x ((heap.subs x).sendAll false events)).deliver_beside hub events hnew
      exact ⟨hrest.trans hsubs, hrestMem.trans hmem⟩
    · have hne : ∀ y ∈ rest, y ≠ sub := fun y hy heq => hnew (heq ▸ hy)
      have hother : ∀ y ∈ rest,
          (heap.sendTo hub sub ((heap.subs sub).sendAll false events)).subs y = heap.subs y :=
        fun y hy => (heap.sendTo_other hub _ (hne y hy)).1
      have hmem := (heap.sendTo_other hub ((heap.subs sub).sendAll false events) (hne x hx)).2
      obtain ⟨hrest, hrestMem⟩ := ih (heap.sendTo hub sub _) hnodup'
        (fun y hy => by rw [hother y hy]; exact hopen y (List.mem_cons_of_mem _ hy)) hx
      rw [hother x hx] at hrest hrestMem
      exact ⟨hrest, by rw [hrestMem, hmem]⟩

/-- A publication keeps the hub tidy, and is the subscriber's `Stream.publish`. -/
theorem stream_deliver {events : List (Event δ)} {visit : List SubID} (htidy : heap.Tidy hub)
    (hvisit : visit.Perm (heap.subscribers hub)) (hwanted : ∀ s : Subscriber δ, s.wanted events ≤ 1)
    (x : SubID) (got : List (Event δ)) :
    (heap.deliver hub events visit).1.Tidy hub ∧
      (heap.deliver hub events visit).1.stream hub x got = (heap.stream hub x got).publish events := by
  have hnodup : visit.Nodup := hvisit.nodup_iff.mpr htidy.nodup
  have hopen : ∀ y ∈ visit, (heap.subs y).closed = false :=
    fun y hy => htidy.isOpen y (hvisit.subset hy)
  have hsends := deliver_sends hub events heap visit
  constructor
  · refine ⟨htidy.nodup.sublist hsends.members, fun y hy => ?_⟩
    have hroom : ∀ y ∈ visit, (heap.subs y).wanted events ≤ (heap.subs y).room + 1 :=
      fun y _ => (hwanted _).trans (Nat.le_add_left 1 _)
    have hin : y ∈ visit := hvisit.symm.subset (hsends.members.subset hy)
    exact (deliver_open heap hnodup hopen hroom).2.1 y hin hy
  · by_cases hx : x ∈ heap.subscribers hub
    · obtain ⟨hsub, hmem⟩ := heap.deliver_stream hub hnodup hopen hwanted (hvisit.symm.subset hx)
      have hjoined : ((heap.deliver hub events visit).1.subscribers hub).contains x =
          !((heap.subs x).sendAll false events).dropped := by
        rw [Bool.eq_iff_iff, List.contains_iff_mem, hmem]
        simp [hx]
      have hpublish : (heap.stream hub x got).publish events =
          { sub := ((heap.subs x).sendAll false events).sub
            joined := !((heap.subs x).sendAll false events).dropped
            got } := by
        simp [Stream.publish, stream, hx]
      rw [hpublish, stream, hsub, hjoined]
    · obtain ⟨hsub, hmem⟩ := heap.deliver_beside hub events
        fun hin => hx (hvisit.subset hin)
      have hjoined : ((heap.deliver hub events visit).1.subscribers hub).contains x = false := by
        rw [← Bool.not_eq_true, List.contains_iff_mem, hmem]
        exact hx
      have hpublish : (heap.stream hub x got).publish events = heap.stream hub x got := by
        simp [Stream.publish, stream, hx]
      rw [hpublish, stream, stream, hsub, hjoined]
      simp [hx]

end Heap

namespace Heap

variable {heap heap' : Heap δ} {hub : HubID} {x : SubID}

/-- The others have done something: the subscriber's channel and its place in the hub are as they
were, and so is the hub's tidiness. -/
structure Apart (hub : HubID) (x : SubID) (heap heap' : Heap δ) : Prop where
  sub : heap'.subs x = heap.subs x
  member : x ∈ heap'.subscribers hub ↔ x ∈ heap.subscribers hub
  tidy : heap.Tidy hub → heap'.Tidy hub

end Heap

/-- The heap while a subscriber of the order's hub is watched: publications on the order, its own
reader, and what the others do meanwhile. -/
inductive Watched (orderID : UUID) (hub : HubID) (x : SubID) (heap : Heap δ) (got : List (Event δ)) :
    List (Moment δ) → Heap δ → List (Event δ) → Prop where
  | start : Watched orderID hub x heap got [] heap got
  | publish {moments : List (Moment δ)} {heap' : Heap δ} {got' : List (Event δ)}
      (before : Watched orderID hub x heap got moments heap' got') (events : List (Event δ))
      (found : heap'.hubFor orderID = some hub) {visit : List SubID}
      (order : visit.Perm (heap'.subscribers hub)) :
      Watched orderID hub x heap got (moments ++ [.publish events])
        (heap'.deliver hub events visit).1 got'
  /-- the subscriber has been dropped, and the publication may reach another hub or none -/
  | missed {moments : List (Moment δ)} {heap' : Heap δ} {got' : List (Event δ)}
      (before : Watched orderID hub x heap got moments heap' got') (events : List (Event δ))
      (dropped : x ∉ heap'.subscribers hub) :
      Watched orderID hub x heap got (moments ++ [.publish events]) heap' got'
  | read {moments : List (Moment δ)} {heap' : Heap δ} {got' : List (Event δ)}
      (before : Watched orderID hub x heap got moments heap' got') :
      Watched orderID hub x heap got (moments ++ [.read]) (heap'.receive x)
        (got' ++ (heap'.subs x).events.head?.toList)
  | others {moments : List (Moment δ)} {heap' heap'' : Heap δ} {got' : List (Event δ)}
      (before : Watched orderID hub x heap got moments heap' got')
      (apart : Heap.Apart hub x heap' heap'') : Watched orderID hub x heap got moments heap'' got'

/-- **The stream of a watched subscriber** goes through the moments one after the other. -/
theorem Watched.stream {orderID : UUID} {hub : HubID} {x : SubID} {heap heap' : Heap δ}
    {got got' : List (Event δ)} {moments : List (Moment δ)}
    (h : Watched orderID hub x heap got moments heap' got') (htidy : heap.Tidy hub)
    (hwanted : ∀ m ∈ moments, ∀ s : Subscriber δ, s.wanted m.events ≤ 1) :
    heap'.Tidy hub ∧ heap'.stream hub x got' = (heap.stream hub x got).after moments := by
  induction h with
  | start => exact ⟨htidy, rfl⟩
  | publish before events found order ih =>
    obtain ⟨htidy', hstream⟩ := ih fun m hm => hwanted m (List.mem_append_left _ hm)
    have hlast : ∀ s : Subscriber δ, s.wanted events ≤ 1 :=
      hwanted (.publish events) (List.mem_append_right _ List.mem_cons_self)
    obtain ⟨htidy'', hpublish⟩ := Heap.stream_deliver htidy' order hlast x _
    refine ⟨htidy'', ?_⟩
    rw [hpublish, hstream, Stream.after, Stream.after, List.foldl_append]
    rfl
  | @missed moments heap' got' before events dropped ih =>
    obtain ⟨htidy', hstream⟩ := ih fun m hm => hwanted m (List.mem_append_left _ hm)
    refine ⟨htidy', ?_⟩
    have hpublish : (heap'.stream hub x got').publish events = heap'.stream hub x got' := by
      simp [Stream.publish, Heap.stream, dropped]
    rw [← hpublish, hstream, Stream.after, Stream.after, List.foldl_append]
    rfl
  | @read moments heap' got' before ih =>
    obtain ⟨htidy', hstream⟩ := ih fun m hm => hwanted m (List.mem_append_left _ hm)
    have hread : (heap'.receive x).stream hub x (got' ++ (heap'.subs x).events.head?.toList) =
        (heap'.stream hub x got').read := by
      simp [Heap.stream, Heap.receive, Heap.setSub, Stream.read]
    refine ⟨⟨htidy'.nodup, fun y hy => ?_⟩, ?_⟩
    · have hclosed : ((heap'.receive x).subs y).closed = (heap'.subs y).closed := by
        show (Function.update heap'.subs x (heap'.subs x).receive y).closed = _
        by_cases hyx : y = x
        · subst hyx
          rw [Function.update_self]
          rfl
        · rw [Function.update_of_ne hyx]
      rw [hclosed]
      exact htidy'.isOpen y hy
    · rw [hread, hstream, Stream.after, Stream.after, List.foldl_append]
      rfl
  | @others moments heap' heap'' got' before apart ih =>
    obtain ⟨htidy', hstream⟩ := ih hwanted
    refine ⟨apart.tidy htidy', ?_⟩
    have hcontains : (heap''.subscribers hub).contains x = (heap'.subscribers hub).contains x := by
      rw [Bool.eq_iff_iff, List.contains_iff_mem, List.contains_iff_mem, apart.member]
    rw [← hstream, Heap.stream, Heap.stream, apart.sub, hcontains]

end Doenerstag.Sse
