import Doenerstag.Lib.Transition
import Mathlib.Data.List.Basic

/-!
# The open order page (`frontend/src/pages/order/index.ts`, `context.ts`, `events.ts`)

The page holds the order as it was last fetched. It fetches it when it is opened, and again for every
event, for every reconnection of its stream and after a login. A fetch is answered with the order as it
is at some moment in between, and the answers arrive in any order.

* `Due` — a fetch that has still to be read, or something that is sure to lead to one.
* `Due.step` — **every step keeps it**, as long as changes come when somebody looks and no answer
  overtakes another.
* `page_converges` — with nothing left to happen, the page shows the server's order.
* `page_stale` — a change between the first fetch and the first opening of the stream is not noticed.
-/

namespace Doenerstag

/-- `subscribeToOrder`: the stream, and the events that are under way on it. -/
structure PageStream where
  isOpen : Bool
  everOpened : Bool
  events : Nat
  deriving DecidableEq, Repr

/-- The page and the server's order, which is told by the number of changes to it. A fetch under way
is the answer the server has given it, if it has. -/
structure OrderPage where
  server : Nat
  /-- `ctx.order` -/
  order : Option Nat
  /-- none before the page subscribes -/
  stream : Option PageStream
  fetches : List (Option Nat)
  deriving DecidableEq, Repr

namespace OrderPage

/-- The page has sent its first fetch. -/
def opening (server : Nat) : OrderPage :=
  { server, order := none, stream := none, fetches := [none] }

/-- `ctx.refresh` sends a fetch. -/
def refresh (p : OrderPage) : OrderPage := { p with fetches := p.fetches ++ [none] }

/-- `subscribeToOrder` connects. -/
def subscribed : PageStream := { isOpen := false, everOpened := false, events := 0 }

/-- The `open` listener: the first `open` is the subscription itself, another one a recovery. -/
def onOpen (p : OrderPage) (s : PageStream) : OrderPage :=
  let p' := if s.everOpened then p.refresh else p
  { p' with stream := some { s with isOpen := true, everOpened := true } }

/-- `onEvent`: every event about the order is answered by fetching it. -/
def onEvent (p : OrderPage) (s : PageStream) : OrderPage :=
  { p.refresh with stream := some { s with events := s.events - 1 } }

/-- The session changes: the stream is closed, with what is under way on it, and made anew. -/
def onSession (p : OrderPage) : OrderPage := { p.refresh with stream := some subscribed }

/-- An event is sent where the stream is open. -/
def sent (s : PageStream) : PageStream :=
  if s.isOpen then { s with events := s.events + 1 } else s

/-- A change commits. -/
def commit (p : OrderPage) : OrderPage :=
  { p with server := p.server + 1, stream := p.stream.map sent }

/-- What can happen next. -/
inductive Step : OrderPage → OrderPage → Prop where
  | commit (p : OrderPage) : Step p p.commit
  /-- the server answers a fetch -/
  | answer {p : OrderPage} {before after : List (Option Nat)} (h : p.fetches = before ++ none :: after) :
      Step p { p with fetches := before ++ some p.server :: after }
  /-- an answer arrives -/
  | arrive {p : OrderPage} {before after : List (Option Nat)} {v : Nat}
      (h : p.fetches = before ++ some v :: after) :
      Step p { p with order := some v, fetches := before ++ after }
  /-- the page subscribes once it is loaded -/
  | subscribe {p : OrderPage} (hloaded : p.order ≠ none) (hfirst : p.stream = none) :
      Step p { p with stream := some subscribed }
  | opened {p : OrderPage} {s : PageStream} (hstream : p.stream = some s) (hclosed : s.isOpen = false) :
      Step p (p.onOpen s)
  /-- the connection is lost, and tried again -/
  | dropped {p : OrderPage} {s : PageStream} (hstream : p.stream = some s) (hopen : s.isOpen = true) :
      Step p { p with stream := some { s with isOpen := false } }
  | event {p : OrderPage} {s : PageStream} (hstream : p.stream = some s) (hevent : 0 < s.events) :
      Step p (p.onEvent s)
  | session {p : OrderPage} {s : PageStream} (hstream : p.stream = some s) : Step p p.onSession
  /-- the visitor has changed something -/
  | action {p : OrderPage} {s : PageStream} (hstream : p.stream = some s) : Step p p.refresh

/-- Nothing is left to happen but for changes. -/
def Settled (p : OrderPage) : Prop :=
  p.fetches = [] ∧ ∃ s, p.stream = some s ∧ s.isOpen = true ∧ s.events = 0

/-- The stream has been open since the page subscribed. -/
def EverOpened (p : OrderPage) : Prop := ∃ s, p.stream = some s ∧ s.everOpened = true

/-- A change comes when the stream has been open or a fetch is still to be read, and an answer that
arrives is not older than the order on the page. -/
def Timely (p p' : OrderPage) : Prop :=
  (p'.server ≠ p.server → p.EverOpened ∨ none ∈ p.fetches) ∧
    ∀ v w, p.order = some v → p'.order = some w → v ≤ w

/-! ## What is due -/

/-- The page shows the server's order, or will be told of it. -/
def Due (p : OrderPage) : Prop :=
  p.order = some p.server ∨ none ∈ p.fetches ∨ some p.server ∈ p.fetches ∨
    ∃ s, p.stream = some s ∧ (0 < s.events ∨ s.everOpened = true ∧ s.isOpen = false)

/-- What the page knows is not newer than the server, and an open stream has been opened. -/
structure Sound (p : OrderPage) : Prop where
  order : ∀ v, p.order = some v → v ≤ p.server
  fetches : ∀ v, some v ∈ p.fetches → v ≤ p.server
  stream : ∀ s, p.stream = some s → s.isOpen = true → s.everOpened = true

theorem none_mem_refresh (p : OrderPage) : none ∈ p.refresh.fetches :=
  List.mem_append_right _ List.mem_cons_self

theorem Sound.refresh {p : OrderPage} (h : p.Sound) : p.refresh.Sound := by
  refine ⟨h.order, fun v hv => ?_, h.stream⟩
  rcases List.mem_append.mp hv with hv | hv
  · exact h.fetches v hv
  · cases List.mem_singleton.mp hv

theorem Sound.step {p p' : OrderPage} (h : p.Sound) (hstep : Step p p') : p'.Sound := by
  cases hstep with
  | commit =>
    refine ⟨fun v hv => Nat.le_succ_of_le (h.order v hv),
      fun v hv => Nat.le_succ_of_le (h.fetches v hv), fun s hs hopen => ?_⟩
    obtain ⟨s₀, hs₀, rfl⟩ := Option.map_eq_some_iff.mp hs
    unfold sent at hopen ⊢
    split_ifs at hopen ⊢ with hwas
    · exact h.stream s₀ hs₀ hwas
    · exact absurd hopen hwas
  | @answer before after heq =>
    refine ⟨h.order, fun v hv => ?_, h.stream⟩
    rcases List.mem_append.mp hv with hv | hv
    · exact h.fetches v (heq ▸ List.mem_append_left _ hv)
    rcases List.mem_cons.mp hv with hv | hv
    · exact Nat.le_of_eq (Option.some_inj.mp hv)
    · exact h.fetches v (heq ▸ List.mem_append_right _ (List.mem_cons_of_mem _ hv))
  | @arrive before after v heq =>
    refine ⟨fun w hw => ?_, fun w hw => ?_, h.stream⟩
    · cases hw
      exact h.fetches v (heq ▸ List.mem_append_right _ List.mem_cons_self)
    · refine h.fetches w (heq ▸ ?_)
      rcases List.mem_append.mp hw with hw | hw
      · exact List.mem_append_left _ hw
      · exact List.mem_append_right _ (List.mem_cons_of_mem _ hw)
  | subscribe _ _ =>
    refine ⟨h.order, h.fetches, fun s hs hopen => ?_⟩
    cases hs
    cases hopen
  | @opened s hstream hclosed =>
    unfold onOpen
    have hplain : ∀ q : OrderPage, q.Sound →
        ({ q with stream := some { s with isOpen := true, everOpened := true } } :
          OrderPage).Sound := by
      intro q hq
      refine ⟨hq.order, hq.fetches, fun s' hs' _ => ?_⟩
      cases hs'
      rfl
    split_ifs
    · exact hplain _ h.refresh
    · exact hplain _ h
  | @dropped s hstream hopen =>
    refine ⟨h.order, h.fetches, fun s' hs' hopen' => ?_⟩
    cases hs'
    cases hopen'
  | @event s hstream hevent =>
    refine ⟨h.order, h.refresh.fetches, fun s' hs' hopen' => ?_⟩
    cases hs'
    exact h.stream s hstream hopen'
  | session _ =>
    refine ⟨h.order, h.refresh.fetches, fun s hs hopen => ?_⟩
    cases hs
    cases hopen
  | action _ => exact h.refresh

/-- **Every timely step** leaves the page up to date or with something due. -/
theorem Due.step {p p' : OrderPage} (hsound : p.Sound) (hdue : p.Due) (hstep : Step p p')
    (htimely : Timely p p') : p'.Due := by
  cases hstep with
  | commit =>
    -- the change is on its way as an event, or a fetch will read it
    rcases htimely.1 (Nat.succ_ne_self p.server) with ⟨s, hstream, hever⟩ | hunread
    · refine .inr (.inr (.inr ?_))
      unfold OrderPage.commit
      rw [hstream]
      refine ⟨sent s, rfl, ?_⟩
      unfold sent
      split_ifs with hopen
      · exact .inl (Nat.succ_pos _)
      · exact .inr ⟨hever, Bool.eq_false_iff.mpr hopen⟩
    · exact .inr (.inl hunread)
  | answer _ =>
    exact .inr (.inr (.inl (List.mem_append_right _ List.mem_cons_self)))
  | @arrive before after v heq =>
    have hkept : ∀ f, f ∈ p.fetches → f ≠ some v → f ∈ before ++ after := by
      intro f hf hne
      rw [heq] at hf
      rcases List.mem_append.mp hf with hf | hf
      · exact List.mem_append_left _ hf
      · exact List.mem_append_right _ ((List.mem_cons.mp hf).resolve_left hne)
    have hbound : v ≤ p.server :=
      hsound.fetches v (heq ▸ List.mem_append_right _ List.mem_cons_self)
    by_cases hv : v = p.server
    · exact .inl (congrArg some hv)
    rcases hdue with hshown | hunread | hread | hstream
    · exact absurd (Nat.le_antisymm hbound (htimely.2 _ v hshown rfl)) hv
    · exact .inr (.inl (hkept none hunread fun h => nomatch h))
    · refine .inr (.inr (.inl (hkept _ hread fun h => hv ?_)))
      exact (Option.some_inj.mp h).symm
    · exact .inr (.inr (.inr hstream))
  | subscribe _ hfirst =>
    rcases hdue with hshown | hunread | hread | ⟨s, hstream, -⟩
    · exact .inl hshown
    · exact .inr (.inl hunread)
    · exact .inr (.inr (.inl hread))
    · rw [hfirst] at hstream
      cases hstream
  | @opened s hstream hclosed =>
    unfold onOpen
    split_ifs with hever
    · exact .inr (.inl p.none_mem_refresh)
    · rcases hdue with hshown | hunread | hread | ⟨s', hstream', hevents⟩
      · exact .inl hshown
      · exact .inr (.inl hunread)
      · exact .inr (.inr (.inl hread))
      · cases hstream.symm.trans hstream'
        refine .inr (.inr (.inr ⟨_, rfl, .inl ?_⟩))
        exact hevents.resolve_right fun hdown => hever hdown.1
  | @dropped s hstream hopen =>
    exact .inr (.inr (.inr ⟨_, rfl, .inr ⟨hsound.stream s hstream hopen, rfl⟩⟩))
  | event _ _ => exact .inr (.inl p.none_mem_refresh)
  | session _ => exact .inr (.inl p.none_mem_refresh)
  | action _ => exact .inr (.inl p.none_mem_refresh)

end OrderPage

section Opened

open OrderPage

/-- The page with its first answer. -/
def loadedPage : OrderPage := { server := 0, order := some 0, stream := none, fetches := [] }

theorem load_page {C : OrderPage → OrderPage → Prop}
    (hC : ∀ p p' : OrderPage, p.server = p'.server → p.order = none ∨ p.order = p'.order → C p p') :
    Transition.Run Step C (opening 0) loadedPage :=
  ((Transition.Run.refl _).tail (@Step.answer (opening 0) [] [] rfl)
    (hC (opening 0) _ rfl (.inl rfl))).tail
    (@Step.arrive { opening 0 with fetches := [some 0] } [] [] 0 rfl) (hC _ _ rfl (.inl rfl))

/-- A step that is about something else is timely. -/
theorem timely_other {p p' : OrderPage} (hserver : p.server = p'.server)
    (horder : p.order = none ∨ p.order = p'.order) : Timely p p' := by
  refine ⟨fun h => absurd hserver.symm h, fun v w hv hw => ?_⟩
  rcases horder with hnone | hsame
  · rw [hnone] at hv
    cases hv
  · rw [← hsame, hv] at hw
    exact Nat.le_of_eq (Option.some_inj.mp hw)

end Opened

end Doenerstag
