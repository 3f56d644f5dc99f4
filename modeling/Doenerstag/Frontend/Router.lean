import Mathlib.Data.List.Count
import Mathlib.Data.List.Nodup
import Mathlib.Logic.Function.Basic

/-!
# The client router (`frontend/src/router.ts`)

Renders are asynchronous. Each takes a ticket and a list of its own, into which the page that it builds
registers what there is to undo. Renders overlap, finish in any order, and may fail.

* `Router.Tidy` — where the cleanups are: in one list each, or run once.
* `Router.Tidy.step` — **every step keeps that.**
* `Router.outlet_newest` — the outlet shows the page of the newest render that was not overtaken.
* `router_kept_iff` — every cleanup is run exactly once, and in time, unless a render fails after its
  page has registered one.
-/

namespace Doenerstag

/-- `Router`, with its renders by ticket. The pages are of any kind; a cleanup is the number of its
registration. -/
structure Router (π : Type) where
  ticket : Nat
  /-- `collected` of a render -/
  collected : Nat → List Nat
  /-- whose list `cleanups` is; before the first page it is a list of its own -/
  cleanups : Option Nat
  /-- the page in the outlet, with the render that built it -/
  outlet : Option (Nat × π)
  /-- `stop` has undone that page -/
  undone : Bool
  /-- the renders that wait for their page -/
  building : Nat → Bool
  /-- the registrations so far, and the ones that pages made while they were being built -/
  registrations : Nat
  registered : List (Nat × Nat)
  /-- the cleanups that were run, the last one first -/
  ran : List Nat

/-- What can happen to the router. -/
inductive RouterEvent (π : Type) where
  /-- a navigation or a refresh -/
  | render
  /-- a page calls `onCleanup` of the render it was given -/
  | register (t : Nat)
  /-- the page is built -/
  | resolve (t : Nat) (page : π)
  /-- building it has failed -/
  | reject (t : Nat)
  | stop
  deriving DecidableEq, Repr

namespace Router

variable {π : Type}

def mounted : Router π where
  ticket := 0
  collected := fun _ => []
  cleanups := none
  outlet := none
  undone := false
  building := fun _ => false
  registrations := 0
  registered := []
  ran := []

/-- `render`, up to where it waits for the page. -/
def render (r : Router π) : Router π :=
  { r with
    ticket := r.ticket + 1
    collected := Function.update r.collected (r.ticket + 1) []
    building := Function.update r.building (r.ticket + 1) true }

/-- `onCleanup` -/
def onCleanup (r : Router π) (t : Nat) : Router π :=
  { r with
    collected := Function.update r.collected t (r.collected t ++ [r.registrations])
    registrations := r.registrations + 1
    registered := if r.building t then (t, r.registrations) :: r.registered else r.registered }

/-- `run`: the list is emptied, then its cleanups are run. -/
def run (r : Router π) (list : Option Nat) : Router π :=
  match list with
  | none => r
  | some t =>
    { r with
      collected := Function.update r.collected t []
      ran := (r.collected t).reverse ++ r.ran }

/-- A render no longer waits. -/
def ended (r : Router π) (t : Nat) : Router π :=
  { r with building := Function.update r.building t false }

/-- `render`, once it has the page. -/
def install (r : Router π) (t : Nat) (page : π) : Router π :=
  if t ≠ r.ticket then r.run (some t)
  else { r.run r.cleanups with cleanups := some t, outlet := some (t, page), undone := false }

/-- `stop` -/
def stop (r : Router π) : Router π := { r.run r.cleanups with undone := true }

inductive Step : Router π → RouterEvent π → Router π → Prop where
  | render (r : Router π) : Step r .render r.render
  | register {r : Router π} {t : Nat} (started : 0 < t ∧ t ≤ r.ticket) :
      Step r (.register t) (r.onCleanup t)
  | resolve {r : Router π} {t : Nat} (waits : r.building t = true) (page : π) :
      Step r (.resolve t page) ((r.ended t).install t page)
  | reject {r : Router π} {t : Nat} (waits : r.building t = true) : Step r (.reject t) (r.ended t)
  | stop (r : Router π) : Step r .stop r.stop

/-- What has happened to the router, the last event first. -/
inductive Runs : List (RouterEvent π) → Router π → Prop where
  | mounted : Runs [] mounted
  | next {events : List (RouterEvent π)} {e : RouterEvent π} {r r' : Router π} (runs : Runs events r)
      (step : Step r e r') : Runs (e :: events) r'

/-- The render whose page is on screen, until `stop` has undone it. -/
def onScreen (r : Router π) : Option Nat := if r.undone then none else r.outlet.map Prod.fst

/-- A cleanup is not run while its page is being built or is on screen, and is run once otherwise. -/
def CleanedUp (r : Router π) : Prop :=
  ∀ t c, (t, c) ∈ r.registered →
    r.ran.count c = if r.building t = true ∨ r.onScreen = some t then 0 else 1

/-! ## Where the cleanups are -/

/-- A cleanup is in one list, or was run, and not both. -/
structure Lists (collected : Nat → List Nat) (registrations : Nat) (ran : List Nat) : Prop where
  listed : ∀ t, ∀ c ∈ collected t, c < registrations
  nodup : ∀ t, (collected t).Nodup
  apart : ∀ t t' c, c ∈ collected t → c ∈ collected t' → t = t'
  run : ∀ c ∈ ran, c < registrations
  once : ran.Nodup
  waiting : ∀ t, ∀ c ∈ collected t, c ∉ ran

/-- The cleanups of the pages that are being built or on screen are in their lists. -/
structure Tidy (r : Router π) : Prop where
  lists : Lists r.collected r.registrations r.ran
  later : ∀ t, r.ticket < t → r.building t = false
  cleanups : r.cleanups = r.outlet.map Prod.fst
  shown : ∀ t, r.cleanups = some t → r.building t = false ∧ t ≤ r.ticket
  registered : ∀ t c, (t, c) ∈ r.registered → t ≤ r.ticket
  pending : ∀ t c, (t, c) ∈ r.registered → r.building t = true ∨ r.onScreen = some t →
    c ∈ r.collected t

theorem mem_emptied {collected : Nat → List Nat} {t t' c : Nat} :
    c ∈ Function.update collected t [] t' ↔ t' ≠ t ∧ c ∈ collected t' := by
  by_cases h : t' = t
  · rw [h, Function.update_self]
    exact iff_of_false List.not_mem_nil fun h => h.1 rfl
  · rw [Function.update_of_ne h]
    exact (and_iff_right h).symm

theorem mem_added {collected : Nat → List Nat} {t t' c n : Nat} :
    c ∈ Function.update collected t (collected t ++ [n]) t' ↔
      c ∈ collected t' ∨ t' = t ∧ c = n := by
  by_cases h : t' = t
  · rw [h, Function.update_self, List.mem_append, List.mem_singleton]
    exact or_congr_right (and_iff_right rfl).symm
  · rw [Function.update_of_ne h]
    exact (or_iff_left fun h' => h h'.1).symm

section Lists

variable {collected : Nat → List Nat} {registrations : Nat} {ran : List Nat}

theorem Lists.emptied (h : Lists collected registrations ran) (t : Nat) :
    Lists (Function.update collected t []) registrations ran where
  listed := fun t' c hc => h.listed t' c (mem_emptied.mp hc).2
  nodup := by
    intro t'
    by_cases ht : t' = t
    · rw [ht, Function.update_self]
      exact List.nodup_nil
    · rw [Function.update_of_ne ht]
      exact h.nodup t'
  apart := fun t' t'' c hc hc' => h.apart t' t'' c (mem_emptied.mp hc).2 (mem_emptied.mp hc').2
  run := h.run
  once := h.once
  waiting := fun t' c hc => h.waiting t' c (mem_emptied.mp hc).2

/-- The cleanups that are run come out of their list. -/
theorem Lists.ran_out (h : Lists collected registrations ran) (t : Nat) :
    Lists (Function.update collected t []) registrations ((collected t).reverse ++ ran) := by
  have hempty := h.emptied t
  refine ⟨hempty.listed, hempty.nodup, hempty.apart, fun c hc => ?_, ?_, fun t' c hc hran => ?_⟩
  · rcases List.mem_append.mp hc with hc | hc
    · exact h.listed t c (List.mem_reverse.mp hc)
    · exact h.run c hc
  · refine List.nodup_append.mpr ⟨List.nodup_reverse.mpr (h.nodup t), h.once, ?_⟩
    rintro c hc _ hran rfl
    exact h.waiting t c (List.mem_reverse.mp hc) hran
  · obtain ⟨hne, hc⟩ := mem_emptied.mp hc
    rcases List.mem_append.mp hran with hran | hran
    · exact hne (h.apart t' t c hc (List.mem_reverse.mp hran))
    · exact h.waiting t' c hc hran

/-- A registration goes into one of the lists. -/
theorem Lists.added (h : Lists collected registrations ran) (t : Nat) :
    Lists (Function.update collected t (collected t ++ [registrations])) (registrations + 1) ran := by
  refine ⟨fun t' c hc => ?_, fun t' => ?_, fun t' t'' c hc hc' => ?_, fun c hc => ?_, h.once,
    fun t' c hc hran => ?_⟩
  · rcases mem_added.mp hc with hc | ⟨-, rfl⟩
    · exact Nat.lt_succ_of_lt (h.listed t' c hc)
    · exact Nat.lt_succ_self _
  · by_cases ht : t' = t
    · rw [ht, Function.update_self]
      refine List.nodup_append.mpr ⟨h.nodup t, List.nodup_singleton _, ?_⟩
      rintro c hc _ hc' rfl
      exact Nat.ne_of_lt (h.listed t c hc) (List.mem_singleton.mp hc')
    · rw [Function.update_of_ne ht]
      exact h.nodup t'
  · rcases mem_added.mp hc with hold | ⟨ht, hnew⟩
    · rcases mem_added.mp hc' with hold' | ⟨-, hnew'⟩
      · exact h.apart t' t'' c hold hold'
      · exact absurd hnew' (Nat.ne_of_lt (h.listed t' c hold))
    · rcases mem_added.mp hc' with hold' | ⟨ht', -⟩
      · exact absurd hnew (Nat.ne_of_lt (h.listed t'' c hold'))
      · rw [ht, ht']
  · exact Nat.lt_succ_of_lt (h.run c hc)
  · rcases mem_added.mp hc with hc | ⟨-, rfl⟩
    · exact h.waiting t' c hc hran
    · exact Nat.lt_irrefl _ (h.run _ hran)

end Lists

section Run

variable {r : Router π}

/-- `run` keeps the lists in order, and leaves everything else as it is. -/
theorem Lists.run_list (h : Lists r.collected r.registrations r.ran) (list : Option Nat) :
    Lists (r.run list).collected (r.run list).registrations (r.run list).ran := by
  cases list with
  | none => exact h
  | some t => exact h.ran_out t

/-- A list that is not the one that is run stays as it is. -/
theorem mem_run {list : Option Nat} {t c : Nat} (hother : list ≠ some t) :
    c ∈ (r.run list).collected t ↔ c ∈ r.collected t := by
  cases list with
  | none => exact Iff.rfl
  | some t' => exact mem_emptied.trans (and_iff_right fun h => hother (congrArg some h.symm))

theorem ran_run {list : Option Nat} {c : Nat} :
    c ∈ (r.run list).ran ↔ (∃ t, list = some t ∧ c ∈ r.collected t) ∨ c ∈ r.ran := by
  cases list with
  | none => exact ⟨.inr, fun h => h.resolve_left fun ⟨_, h, _⟩ => nomatch h⟩
  | some t =>
    show c ∈ (r.collected t).reverse ++ r.ran ↔ _
    rw [List.mem_append, List.mem_reverse]
    refine or_congr_left ⟨fun h => ⟨t, rfl, h⟩, ?_⟩
    rintro ⟨t', heq, h⟩
    cases heq
    exact h

end Run

section Steps

variable {r r' : Router π}

/-- The page on screen is the one whose list `cleanups` is. -/
theorem Tidy.onScreen (h : r.Tidy) {t : Nat} (hshown : r.onScreen = some t) :
    r.cleanups = some t := by
  unfold Router.onScreen at hshown
  split_ifs at hshown
  exact h.cleanups.trans hshown

theorem Tidy.render (h : r.Tidy) : r.render.Tidy := by
  have hbuilding : ∀ t ≤ r.ticket, r.render.building t = r.building t := fun t ht =>
    Function.update_of_ne (by omega) _ _
  refine ⟨h.lists.emptied _, fun t ht => ?_, h.cleanups, fun t ht => ?_,
    fun t c hc => Nat.le_succ_of_le (h.registered t c hc), fun t c hc hpage => ?_⟩
  · have ht : r.ticket + 1 < t := ht
    exact (Function.update_of_ne (by omega) _ _).trans (h.later t (by omega))
  · obtain ⟨hdone, hle⟩ := h.shown t ht
    exact ⟨(hbuilding t hle).trans hdone, Nat.le_succ_of_le hle⟩
  · have hle := h.registered t c hc
    rw [hbuilding t hle] at hpage
    exact mem_emptied.mpr ⟨by omega, h.pending t c hc hpage⟩

theorem Tidy.onCleanup (h : r.Tidy) {t : Nat} (ht : t ≤ r.ticket) : (r.onCleanup t).Tidy := by
  have hmem : ∀ t' c, (t', c) ∈ (r.onCleanup t).registered →
      (t', c) ∈ r.registered ∨ t' = t ∧ c = r.registrations := by
    intro t' c hc
    unfold Router.onCleanup at hc
    dsimp only at hc
    split_ifs at hc
    · rcases List.mem_cons.mp hc with heq | hc
      · cases heq
        exact .inr ⟨rfl, rfl⟩
      · exact .inl hc
    · exact .inl hc
  refine ⟨h.lists.added t, h.later, h.cleanups, h.shown, fun t' c hc => ?_,
    fun t' c hc hpage => ?_⟩
  · rcases hmem t' c hc with hc | ⟨rfl, -⟩
    · exact h.registered t' c hc
    · exact ht
  · rcases hmem t' c hc with hc | hnew
    · exact mem_added.mpr (.inl (h.pending t' c hc hpage))
    · exact mem_added.mpr (.inr hnew)

theorem building_ended {t t' : Nat} :
    (r.ended t).building t' = true ↔ t' ≠ t ∧ r.building t' = true := by
  show Function.update r.building t false t' = true ↔ _
  by_cases h : t' = t
  · rw [h, Function.update_self]
    exact iff_of_false Bool.false_ne_true fun h => h.1 rfl
  · rw [Function.update_of_ne h]
    exact (and_iff_right h).symm

theorem Tidy.ended (h : r.Tidy) (t : Nat) : (r.ended t).Tidy := by
  have hnot : ∀ t', r.building t' = false → (r.ended t).building t' = false := fun t' ht' =>
    Bool.eq_false_iff.mpr fun h' => Bool.eq_false_iff.mp ht' (building_ended.mp h').2
  exact ⟨h.lists, fun t' ht' => hnot t' (h.later t' ht'), h.cleanups,
    fun t' ht' => ⟨hnot t' (h.shown t' ht').1, (h.shown t' ht').2⟩, h.registered,
    fun t' c hc hpage => h.pending t' c hc (hpage.imp_left fun h => (building_ended.mp h).2)⟩

theorem run_fields (list : Option Nat) :
    (r.run list).ticket = r.ticket ∧ (r.run list).cleanups = r.cleanups ∧
      (r.run list).outlet = r.outlet ∧ (r.run list).undone = r.undone ∧
      (r.run list).building = r.building ∧ (r.run list).registered = r.registered := by
  cases list <;> exact ⟨rfl, rfl, rfl, rfl, rfl, rfl⟩

/-- The page that is dismantled is not one that is being built. -/
theorem Tidy.building_kept (h : r.Tidy) {t c : Nat} (hc : (t, c) ∈ r.registered)
    (hbuilding : r.building t = true) : c ∈ (r.run r.cleanups).collected t := by
  have hother : r.cleanups ≠ some t := fun hshown =>
    Bool.eq_false_iff.mp (h.shown t hshown).1 hbuilding
  exact (mem_run hother).mpr (h.pending t c hc (.inl hbuilding))

theorem Tidy.install (h : r.Tidy) {t : Nat} (hbuilding : r.building t = true) (page : π) :
    ((r.ended t).install t page).Tidy := by
  have hended := h.ended t
  have hother : r.cleanups ≠ some t := fun hshown =>
    Bool.eq_false_iff.mp (h.shown t hshown).1 hbuilding
  unfold Router.install
  split_ifs with hovertaken
  · refine ⟨hended.lists.ran_out t, hended.later, hended.cleanups, hended.shown, hended.registered,
      fun t' c hc hpage => mem_emptied.mpr ⟨?_, hended.pending t' c hc hpage⟩⟩
    rintro rfl
    rcases hpage with hpage | hpage
    · exact (building_ended.mp hpage).1 rfl
    · exact hother (hended.onScreen hpage)
  · have hle : t ≤ r.ticket := by
      by_contra hlater
      exact Bool.eq_false_iff.mp (h.later t (by omega)) hbuilding
    obtain ⟨hticket, -, -, -, hbuild, hregistered⟩ := run_fields (r := r.ended t) (r.ended t).cleanups
    refine ⟨hended.lists.run_list _, fun t' ht' => ?_, rfl, fun t' ht' => ?_, fun t' c hc => ?_,
      fun t' c hc hpage => ?_⟩
    · exact (congrFun hbuild t').trans (hended.later t' (hticket ▸ ht'))
    · cases ht'
      refine ⟨(congrFun hbuild t).trans ?_, hticket ▸ hle⟩
      exact Bool.eq_false_iff.mpr fun h => (building_ended.mp h).1 rfl
    · have hc : (t', c) ∈ ((r.ended t).run (r.ended t).cleanups).registered := hc
      rw [hregistered] at hc
      exact hticket ▸ h.registered t' c hc
    · have hc : (t', c) ∈ ((r.ended t).run (r.ended t).cleanups).registered := hc
      rw [hregistered] at hc
      rcases hpage with hpage | hpage
      · exact hended.building_kept hc ((congrFun hbuild t').symm.trans hpage)
      · cases hpage
        exact (mem_run hother).mpr (h.pending t c hc (.inl hbuilding))

theorem Tidy.stop (h : r.Tidy) : r.stop.Tidy := by
  obtain ⟨hticket, hcleanups, houtlet, -, hbuild, hregistered⟩ := run_fields (r := r) r.cleanups
  refine ⟨h.lists.run_list _, fun t ht => ?_, ?_, fun t ht => ?_, fun t c hc => ?_,
    fun t c hc hpage => ?_⟩
  · exact (congrFun hbuild t).trans (h.later t (hticket ▸ ht))
  · exact hcleanups.trans (h.cleanups.trans (congrArg _ houtlet.symm))
  · obtain ⟨hdone, hle⟩ := h.shown t (hcleanups.symm.trans ht)
    exact ⟨(congrFun hbuild t).trans hdone, hticket ▸ hle⟩
  · have hc : (t, c) ∈ (r.run r.cleanups).registered := hc
    rw [hregistered] at hc
    exact hticket ▸ h.registered t c hc
  · have hc : (t, c) ∈ (r.run r.cleanups).registered := hc
    rw [hregistered] at hc
    rcases hpage with hpage | hpage
    · exact h.building_kept hc ((congrFun hbuild t).symm.trans hpage)
    · cases hpage

/-- **Every step** leaves the cleanups in order. -/
theorem Tidy.step (h : r.Tidy) {e : RouterEvent π} (hstep : Step r e r') : r'.Tidy := by
  cases hstep with
  | render => exact h.render
  | register started => exact h.onCleanup started.2
  | resolve waits page => exact h.install waits page
  | @reject t waits => exact h.ended t
  | stop => exact h.stop

theorem Runs.tidy {events : List (RouterEvent π)} (hruns : Runs events r) : r.Tidy := by
  induction hruns with
  | mounted =>
    refine ⟨⟨?_, ?_, ?_, ?_, List.nodup_nil, ?_⟩, fun _ _ => rfl, rfl, ?_, ?_, ?_⟩
    · exact fun _ _ hc => nomatch hc
    · exact fun _ => List.nodup_nil
    · exact fun _ _ _ hc => nomatch hc
    · exact fun _ hc => nomatch hc
    · exact fun _ _ hc => nomatch hc
    · exact fun _ ht => nomatch ht
    · exact fun _ _ hc => nomatch hc
    · exact fun _ _ hc => nomatch hc
  | next _ hstep ih => exact ih.step hstep

/-! ## Every cleanup, once -/

/-- The cleanups of the pages that are neither being built nor on screen were run. -/
def Done (r : Router π) : Prop :=
  ∀ t c, (t, c) ∈ r.registered → ¬ (r.building t = true ∨ r.onScreen = some t) → c ∈ r.ran

theorem Tidy.cleanedUp_iff (h : r.Tidy) : r.CleanedUp ↔ r.Done := by
  constructor
  · intro hclean t c hc hgone
    have hcount := hclean t c hc
    rw [if_neg hgone] at hcount
    exact List.count_pos_iff.mp (by omega)
  · intro hdone t c hc
    split_ifs with hpage
    · exact List.count_eq_zero.mpr (h.lists.waiting t c (h.pending t c hc hpage))
    · exact List.count_eq_one_of_mem h.lists.once (hdone t c hc hpage)

/-- **Every step** sees to the cleanups, but for a failure of a render that has registered one. -/
theorem Done.step (hdone : r.Done) (h : r.Tidy) {e : RouterEvent π} (hstep : Step r e r')
    (hquiet : ∀ t, e = .reject t → ∀ c, (t, c) ∉ r.registered) : r'.Done := by
  cases hstep with
  | render =>
    intro t c hc hgone
    have hle := h.registered t c hc
    have hbuilding : r.render.building t = r.building t := Function.update_of_ne (by omega) _ _
    rw [hbuilding] at hgone
    exact hdone t c hc hgone
  | @register t started =>
    intro t' c hc hgone
    unfold Router.onCleanup at hc
    dsimp only at hc
    split_ifs at hc with hbuilding
    · rcases List.mem_cons.mp hc with heq | hc
      · cases heq
        exact absurd (.inl hbuilding) hgone
      · exact hdone t' c hc hgone
    · exact hdone t' c hc hgone
  | @resolve t waits page =>
    have hother : r.cleanups ≠ some t := fun hshown =>
      Bool.eq_false_iff.mp (h.shown t hshown).1 waits
    unfold Router.install
    split_ifs with hovertaken
    · intro t' c hc hgone
      refine ran_run.mpr ?_
      by_cases ht : t' = t
      · subst ht
        exact .inl ⟨t', rfl, h.pending t' c hc (.inl waits)⟩
      · refine .inr (hdone t' c hc fun hpage => hgone (hpage.imp_left fun hbuilding => ?_))
        exact building_ended.mpr ⟨ht, hbuilding⟩
    · obtain ⟨-, -, -, -, hbuild, hregistered⟩ := run_fields (r := r.ended t) (r.ended t).cleanups
      intro t' c hc hgone
      have hc : (t', c) ∈ ((r.ended t).run (r.ended t).cleanups).registered := hc
      rw [hregistered] at hc
      have hne : t' ≠ t := fun heq => hgone (.inr (congrArg some heq.symm))
      have hnot : r.building t' ≠ true := fun hbuilding =>
        hgone (.inl ((congrFun hbuild t').trans (building_ended.mpr ⟨hne, hbuilding⟩)))
      refine ran_run.mpr ?_
      by_cases hshown : r.onScreen = some t'
      · exact .inl ⟨t', h.onScreen hshown, h.pending t' c hc (.inr hshown)⟩
      · exact .inr (hdone t' c hc fun hpage => hpage.elim hnot hshown)
  | @reject t waits =>
    intro t' c hc hgone
    have hne : t' ≠ t := fun heq => hquiet t rfl c (heq ▸ hc)
    refine hdone t' c hc fun hpage => hgone (hpage.imp_left fun hbuilding => ?_)
    exact building_ended.mpr ⟨hne, hbuilding⟩
  | stop =>
    obtain ⟨-, -, -, -, hbuild, hregistered⟩ := run_fields (r := r) r.cleanups
    intro t c hc hgone
    have hc : (t, c) ∈ (r.run r.cleanups).registered := hc
    rw [hregistered] at hc
    have hnot : r.building t ≠ true := fun hbuilding =>
      hgone (.inl ((congrFun hbuild t).trans hbuilding))
    refine ran_run.mpr ?_
    by_cases hshown : r.onScreen = some t
    · exact .inl ⟨t, h.onScreen hshown, h.pending t c hc (.inr hshown)⟩
    · exact .inr (hdone t c hc fun hpage => hpage.elim hnot hshown)

end Steps

/-! ## Runs -/

/-- The number of navigations and refreshes so far. -/
def renders : List (RouterEvent π) → Nat
  | [] => 0
  | .render :: events => renders events + 1
  | _ :: events => renders events

/-- No render fails after its page has registered a cleanup. -/
def Quiet (events : List (RouterEvent π)) : Prop :=
  ∀ t before, (.reject t :: before) <:+ events → .register t ∉ before

/-- A render completes, and no other one was started after it. -/
def Shown (events : List (RouterEvent π)) (t : Nat) (page : π) : Prop :=
  ∃ before, (.resolve t page :: before) <:+ events ∧ renders before = t

/-- The page of the most recent render that completed and was not overtaken. -/
def Newest (events : List (RouterEvent π)) (t : Nat) (page : π) : Prop :=
  Shown events t page ∧ ∀ t' page', Shown events t' page' → t' ≤ t

/-- The cleanups are where they belong, and the page on screen is the newest. -/
def Kept (events : List (RouterEvent π)) (r : Router π) : Prop :=
  r.CleanedUp ∧ ∀ t page, r.outlet = some (t, page) ↔ Newest events t page

section Histories

variable {r : Router π} {events before : List (RouterEvent π)}

theorem Runs.earlier (h : Runs events r) (hearlier : before <:+ events) : ∃ r', Runs before r' := by
  induction h with
  | mounted =>
    rw [List.suffix_nil.mp hearlier]
    exact ⟨_, .mounted⟩
  | @next events e r r' hruns hstep ih =>
    rcases List.suffix_cons_iff.mp hearlier with rfl | hearlier
    · exact ⟨_, hruns.next hstep⟩
    · exact ih hearlier

theorem Quiet.earlier (h : Quiet events) (hearlier : before <:+ events) : Quiet before :=
  fun t _ hreject => h t _ (hreject.trans hearlier)

theorem install_fields (t : Nat) (page : π) :
    (r.install t page).ticket = r.ticket ∧ (r.install t page).building = r.building ∧
      (r.install t page).registered = r.registered := by
  unfold Router.install
  split_ifs
  · exact ⟨rfl, rfl, rfl⟩
  · obtain ⟨hticket, -, -, -, hbuilding, hregistered⟩ := run_fields (r := r) r.cleanups
    exact ⟨hticket, hbuilding, hregistered⟩

theorem Runs.ticket (h : Runs events r) : r.ticket = renders events := by
  induction h with
  | mounted => rfl
  | next _ hstep ih =>
    cases hstep with
    | render => exact congrArg (· + 1) ih
    | register _ => exact ih
    | @resolve t _ page => exact (install_fields t page).1.trans ih
    | reject _ => exact ih
    | stop => exact (run_fields _).1.trans ih

/-- A registration is one that a page has made. -/
theorem Runs.registered (h : Runs events r) {t c : Nat} (hc : (t, c) ∈ r.registered) :
    .register t ∈ events := by
  induction h with
  | mounted => cases hc
  | @next events e r r' hruns hstep ih =>
    cases hstep with
    | render => exact List.mem_cons_of_mem _ (ih hc)
    | @register t' _ =>
      unfold Router.onCleanup at hc
      dsimp only at hc
      split_ifs at hc
      · rcases List.mem_cons.mp hc with heq | hc
        · cases heq
          exact List.mem_cons_self
        · exact List.mem_cons_of_mem _ (ih hc)
      · exact List.mem_cons_of_mem _ (ih hc)
    | @resolve t' _ page =>
      rw [(install_fields t' page).2.2] at hc
      exact List.mem_cons_of_mem _ (ih hc)
    | reject _ => exact List.mem_cons_of_mem _ (ih hc)
    | stop =>
      obtain ⟨-, -, -, -, -, hregistered⟩ := run_fields (r := r) r.cleanups
      have hc : (t, c) ∈ (r.run r.cleanups).registered := hc
      rw [hregistered] at hc
      exact List.mem_cons_of_mem _ (ih hc)

/-- While a page is being built, what it has registered is known. -/
theorem Runs.register (h : Runs events r) {t : Nat} (hregister : .register t ∈ events) :
    t ≤ r.ticket ∧ (r.building t = true → ∃ c, (t, c) ∈ r.registered) := by
  induction h with
  | mounted => cases hregister
  | @next events e r r' hruns hstep ih =>
    cases hstep with
    | render =>
      obtain ⟨hle, hknown⟩ := ih ((List.mem_cons.mp hregister).resolve_left fun h => nomatch h)
      refine ⟨Nat.le_succ_of_le hle, fun hbuilding => hknown ?_⟩
      have hsame : r.render.building t = r.building t := Function.update_of_ne (by omega) _ _
      exact hsame.symm.trans hbuilding
    | @register t' started =>
      rcases List.mem_cons.mp hregister with heq | hregister
      · cases heq
        refine ⟨started.2, fun hbuilding => ⟨r.registrations, ?_⟩⟩
        have hbuilding : r.building t = true := hbuilding
        unfold Router.onCleanup
        rw [if_pos hbuilding]
        exact List.mem_cons_self
      · obtain ⟨hle, hknown⟩ := ih hregister
        refine ⟨hle, fun hbuilding => (hknown hbuilding).imp fun c hc => ?_⟩
        unfold Router.onCleanup
        dsimp only
        split_ifs
        · exact List.mem_cons_of_mem _ hc
        · exact hc
    | @resolve t' waits page =>
      obtain ⟨hle, hknown⟩ := ih ((List.mem_cons.mp hregister).resolve_left fun h => nomatch h)
      obtain ⟨hticket, hbuild, hregistered⟩ := install_fields (r := r.ended t') t' page
      refine ⟨hticket ▸ hle, fun hbuilding => ?_⟩
      rw [hbuild] at hbuilding
      rw [hregistered]
      exact hknown (building_ended.mp hbuilding).2
    | reject _ =>
      obtain ⟨hle, hknown⟩ := ih ((List.mem_cons.mp hregister).resolve_left fun h => nomatch h)
      exact ⟨hle, fun hbuilding => hknown (building_ended.mp hbuilding).2⟩
    | stop =>
      obtain ⟨hle, hknown⟩ := ih ((List.mem_cons.mp hregister).resolve_left fun h => nomatch h)
      obtain ⟨hticket, -, -, -, hbuild, hregistered⟩ := run_fields (r := r) r.cleanups
      refine ⟨hticket ▸ hle, fun hbuilding => ?_⟩
      have hknown := hknown ((congrFun hbuild t).symm.trans hbuilding)
      rwa [← hregistered] at hknown

/-- **In every run** where no render fails after a registration, the cleanups are seen to. -/
theorem Runs.done (h : Runs events r) (hquiet : Quiet events) : r.Done := by
  induction h with
  | mounted => exact fun _ _ hc => nomatch hc
  | @next events e r r' hruns hstep ih =>
    refine (ih (hquiet.earlier (List.suffix_cons _ _))).step hruns.tidy hstep ?_
    rintro t rfl c hc
    exact hquiet t events (List.suffix_refl _) (hruns.registered hc)

/-- The list of a render that fails is never run. -/
theorem Runs.leaks (h : Runs (.reject t :: before) r) (hregister : .register t ∈ before) :
    ¬ r.CleanedUp := by
  cases h with
  | next hruns hstep =>
    cases hstep with
    | @reject _ waits =>
      intro hclean
      have htidy := hruns.tidy
      obtain ⟨c, hc⟩ := (hruns.register hregister).2 waits
      have hwaiting := htidy.lists.waiting t c (htidy.pending t c hc (.inl waits))
      refine hwaiting ((htidy.ended t).cleanedUp_iff.mp hclean t c hc ?_)
      rintro (hbuilding | hshown)
      · exact (building_ended.mp hbuilding).1 rfl
      · have hdone := (htidy.shown t (htidy.onScreen hshown)).1
        exact Bool.eq_false_iff.mp hdone waits

/-! ## The page on screen -/

theorem shown_cons {e : RouterEvent π} {t : Nat} {page : π} :
    Shown (e :: events) t page ↔
      e = .resolve t page ∧ renders events = t ∨ Shown events t page := by
  constructor
  · rintro ⟨before, hearlier, ht⟩
    rcases List.suffix_cons_iff.mp hearlier with heq | hearlier
    · cases heq
      exact .inl ⟨rfl, ht⟩
    · exact .inr ⟨before, hearlier, ht⟩
  · rintro (⟨rfl, ht⟩ | ⟨before, hearlier, ht⟩)
    · exact ⟨events, List.suffix_refl _, ht⟩
    · exact ⟨before, hearlier.trans (List.suffix_cons _ _), ht⟩

/-- What happens beside the completion of the newest render changes nothing about the newest page. -/
theorem newest_cons {e : RouterEvent π} (hother : ∀ t page, e = .resolve t page → renders events ≠ t)
    {t : Nat} {page : π} : Newest (e :: events) t page ↔ Newest events t page := by
  have hshown : ∀ t page, Shown (e :: events) t page ↔ Shown events t page := fun t page =>
    shown_cons.trans (or_iff_right fun h => hother t page h.1 h.2)
  unfold Newest
  simp only [hshown]

/-- A render whose page was shown waits no longer. -/
theorem Runs.shown (h : Runs events r) {t : Nat} {page : π} (hshown : Shown events t page) :
    t ≤ r.ticket ∧ r.building t = false := by
  induction h with
  | mounted =>
    obtain ⟨before, hearlier, -⟩ := hshown
    cases List.suffix_nil.mp hearlier
  | @next events e r r' hruns hstep ih =>
    cases hstep with
    | render =>
      obtain ⟨hle, hdone⟩ := ih ((shown_cons.mp hshown).resolve_left fun h => nomatch h.1)
      exact ⟨Nat.le_succ_of_le hle, (Function.update_of_ne (by omega) _ _).trans hdone⟩
    | register _ => exact ih ((shown_cons.mp hshown).resolve_left fun h => nomatch h.1)
    | @resolve t' waits page' =>
      obtain ⟨hticket, hbuild, -⟩ := install_fields (r := r.ended t') t' page'
      rw [hticket, hbuild]
      rcases shown_cons.mp hshown with ⟨heq, ht⟩ | hshown
      · cases heq
        refine ⟨?_, Function.update_self _ _ _⟩
        exact Nat.le_of_eq (ht.symm.trans hruns.ticket.symm)
      · obtain ⟨hle, hdone⟩ := ih hshown
        exact ⟨hle, Bool.eq_false_iff.mpr fun h =>
          Bool.eq_false_iff.mp hdone (building_ended.mp h).2⟩
    | @reject t' _ =>
      obtain ⟨hle, hdone⟩ := ih ((shown_cons.mp hshown).resolve_left fun h => nomatch h.1)
      exact ⟨hle, Bool.eq_false_iff.mpr fun h =>
        Bool.eq_false_iff.mp hdone (building_ended.mp h).2⟩
    | stop =>
      obtain ⟨hticket, -, -, -, hbuild, -⟩ := run_fields (r := r) r.cleanups
      obtain ⟨hle, hdone⟩ := ih ((shown_cons.mp hshown).resolve_left fun h => nomatch h.1)
      exact ⟨hticket ▸ hle, (congrFun hbuild t).trans hdone⟩

/-- **In every run** the outlet shows the newest page. -/
theorem outlet_newest (h : Runs events r) (t : Nat) (page : π) :
    r.outlet = some (t, page) ↔ Newest events t page := by
  induction h with
  | mounted =>
    refine iff_of_false (fun h => nomatch h) fun ⟨⟨before, hearlier, _⟩, _⟩ => ?_
    cases List.suffix_nil.mp hearlier
  | @next events e r r' hruns hstep ih =>
    cases hstep with
    | render => exact ih.trans (newest_cons fun _ _ h => by cases h).symm
    | register _ => exact ih.trans (newest_cons fun _ _ h => by cases h).symm
    | reject _ => exact ih.trans (newest_cons fun _ _ h => by cases h).symm
    | stop =>
      obtain ⟨-, -, houtlet, -⟩ := run_fields (r := r) r.cleanups
      refine Iff.trans ?_ (ih.trans (newest_cons fun _ _ h => by cases h).symm)
      exact Eq.congr_left houtlet
    | @resolve t' waits page' =>
      unfold Router.install
      split_ifs with hovertaken
      · refine ih.trans (newest_cons fun t page heq hlast => hovertaken ?_).symm
        cases heq
        exact hlast.symm.trans hruns.ticket.symm
      · have hlast : renders events = t' := hruns.ticket.symm.trans (not_not.mp hovertaken).symm
        have hearlier : ∀ t page, Shown events t page → t < t' := by
          intro t page hshown
          obtain ⟨hle, hdone⟩ := hruns.shown hshown
          have hne : t ≠ t' := fun heq => Bool.eq_false_iff.mp hdone (heq ▸ waits)
          have hticket := not_not.mp hovertaken
          show t < t'
          exact Nat.lt_of_le_of_ne (hticket ▸ hle) hne
        have hnew : Shown (.resolve t' page' :: events) t' page' :=
          shown_cons.mpr (.inl ⟨rfl, hlast⟩)
        constructor
        · intro houtlet
          cases houtlet
          refine ⟨hnew, fun t' page' hshown => ?_⟩
          rcases shown_cons.mp hshown with ⟨heq, -⟩ | hshown
          · cases heq
            exact Nat.le_refl _
          · exact Nat.le_of_lt (hearlier t' page' hshown)
        · rintro ⟨hshown, hnewest⟩
          rcases shown_cons.mp hshown with ⟨heq, -⟩ | hshown
          · cases heq
            rfl
          · exact absurd (hnewest t' page' hnew) (Nat.not_le_of_gt (hearlier t page hshown))

end Histories

end Router

open Router

/-- **The router cleans up exactly once and shows the newest page**, at every moment of a run, exactly
when no render fails after its page has registered a cleanup. -/
theorem router_kept_iff {π : Type} {events : List (RouterEvent π)} {r : Router π}
    (hruns : Runs events r) :
    (∀ before r', before <:+ events → Runs before r' → Kept before r') ↔ Quiet events := by
  constructor
  · intro hkept t before hreject hregister
    obtain ⟨r', hruns'⟩ := hruns.earlier hreject
    exact hruns'.leaks hregister (hkept _ r' hreject hruns').1
  · intro hquiet before r' hearlier hruns'
    refine ⟨hruns'.tidy.cleanedUp_iff.mpr ?_, outlet_newest hruns'⟩
    exact hruns'.done (hquiet.earlier hearlier)

/-- A page with a stream gives way to another one. -/
theorem router_kept_page :
    Kept [.resolve 2 "orders", .render, .resolve 1 "order", .register 1, .render]
      ((((((mounted.render.onCleanup 1).ended 1).install 1 "order").render).ended 2).install 2
        "orders") := by
  have hruns : Runs [.resolve 1 "order", .register 1, .render]
      (((mounted.render.onCleanup 1).ended 1).install 1 "order") :=
    ((Runs.mounted.next (.render _)).next (.register ⟨Nat.zero_lt_one, Nat.le_refl _⟩)).next
      (.resolve rfl _)
  have hlast := (hruns.next (.render _)).next (.resolve (t := 2) rfl "orders")
  refine (router_kept_iff hlast).mpr (fun t before hreject => ?_) _ _ (List.suffix_refl _) hlast
  have hmem := hreject.subset List.mem_cons_self
  simp only [List.mem_cons, List.not_mem_nil, reduceCtorEq, or_self] at hmem

/-- **A render that fails half-way** leaves what its page has opened. -/
theorem router_leaks :
    ¬ ∀ (events : List (RouterEvent String)) (r : Router String), Runs events r → Kept events r := by
  intro hall
  have hruns : Runs [.reject 1, .register 1, .render]
      (((mounted : Router String).render.onCleanup 1).ended 1) :=
    ((Runs.mounted.next (.render _)).next (.register ⟨Nat.zero_lt_one, Nat.le_refl _⟩)).next
      (.reject rfl)
  exact hruns.leaks List.mem_cons_self (hall _ _ hruns).1

end Doenerstag
