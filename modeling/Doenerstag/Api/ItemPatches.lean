import Doenerstag.Api.MenuItemEdits
import Doenerstag.Lib.Transactions

/-!
# A change of a dish that links nothing new

A PATCH of a dish whose lists of tags, allergens and additives name only what the dish is linked to already. Its
replacements take links away and add none.

* `Narrowed` — of the links of a dish, those of the lists are left, and the others may be gone; `OnlyListed` — they
  are.
* `replaceLinks_narrows`, `setSelected_narrows`, `applySelectedClassification_narrows` — one list, and all three.
* `patchItem_narrows` — **however the request ends, it has changed nothing, or it has stored the changed row and
  narrowed the links; and if it is answered, exactly the links of the lists are left.**
-/

namespace Doenerstag

open ReadCommitted Prog

/-- The links of the dish that the lists name are left, and none are new. -/
structure Narrowed (itemID : UUID) (linked : Classification → List UUID) (db db' : Db) : Prop where
  items : db'.menuItems = db.menuItems
  availability : db'.menuItemAvailability = db.menuItemAvailability
  fewer : ∀ (c : Classification) l, l ∈ c.links db' → l ∈ c.links db
  kept : ∀ (c : Classification) l, l ∈ c.links db → (l.menuItemID = itemID → l.targetID ∈ linked c) → l ∈ c.links db'

/-- Of one kind, no other links are left. -/
def OnlyListed (itemID : UUID) (linked : Classification → List UUID) (c : Classification) (db : Db) : Prop :=
  ∀ l ∈ c.links db, l.menuItemID = itemID → l.targetID ∈ linked c

/-- The lists name what the dish is linked to. -/
def NamesLinks (itemID : UUID) (linked : Classification → List UUID) (db : Db) : Prop :=
  ∀ (c : Classification), ∀ id ∈ linked c, { menuItemID := itemID, targetID := id } ∈ c.links db

section Links

variable {itemID : UUID} {linked : Classification → List UUID} {db db' db'' : Db} {c : Classification}

theorem Narrowed.refl (itemID : UUID) (linked : Classification → List UUID) (db : Db) :
    Narrowed itemID linked db db :=
  ⟨rfl, rfl, fun _ _ hl => hl, fun _ _ hl _ => hl⟩

theorem Narrowed.trans (h : Narrowed itemID linked db db') (h' : Narrowed itemID linked db' db'') :
    Narrowed itemID linked db db'' where
  items := h'.items.trans h.items
  availability := h'.availability.trans h.availability
  fewer := fun c l hl => h.fewer c l (h'.fewer c l hl)
  kept := fun c l hl hlisted => h'.kept c l (h.kept c l hl hlisted) hlisted

theorem NamesLinks.narrowed (hnames : NamesLinks itemID linked db) (h : Narrowed itemID linked db db') :
    NamesLinks itemID linked db' :=
  fun c id hid => h.kept c _ (hnames c id hid) fun _ => hid

theorem OnlyListed.narrowed (honly : OnlyListed itemID linked c db) (h : Narrowed itemID linked db db') :
    OnlyListed itemID linked c db' :=
  fun l hl => honly l (h.fewer c l hl)

theorem Classification.mem_of {id : UUID} :
    id ∈ c.of itemID db ↔ { menuItemID := itemID, targetID := id } ∈ c.links db := by
  simp only [Classification.of, List.mem_map, List.mem_filter, beq_iff_eq]
  constructor
  · rintro ⟨l, ⟨hl, rfl⟩, rfl⟩
    exact hl
  · intro hl
    exact ⟨_, ⟨hl, rfl⟩, rfl⟩

theorem Classification.mem_links_setLinks {c' : Classification} {rows : List MenuItemLinkRow} {l : MenuItemLinkRow} :
    l ∈ c'.links (c.setLinks db rows) ↔ if c' = c then l ∈ rows else l ∈ c'.links db := by
  split_ifs with hc
  · rw [hc, Classification.links_setLinks]
  · cases c <;> cases c' <;> first | exact Iff.rfl | exact absurd rfl hc

/-- The first statement of a replacement takes away what is not in its list. -/
theorem clearLinks_narrows {rows : Nat} (hclear : c.clearLinks itemID (linked c) db = .ok (db', rows)) :
    Narrowed itemID linked db db' ∧ OnlyListed itemID linked c db' := by
  cases hclear
  have hleft : ∀ l, l ∈ (c.links db).filter (fun l => !(l.menuItemID == itemID && !(linked c).contains l.targetID)) ↔
      l ∈ c.links db ∧ (l.menuItemID = itemID → l.targetID ∈ linked c) := by
    intro l
    simp [List.mem_filter, or_iff_not_imp_left]
  refine ⟨⟨?_, ?_, fun c' l hl => ?_, fun c' l hl hlisted => ?_⟩, fun l hl => ?_⟩
  · cases c <;> rfl
  · cases c <;> rfl
  · rw [Classification.mem_links_setLinks] at hl
    split_ifs at hl with hc
    · rw [hc]
      exact ((hleft l).mp hl).1
    · exact hl
  · rw [Classification.mem_links_setLinks]
    split_ifs with hc
    · subst hc
      exact (hleft l).mpr ⟨hl, hlisted⟩
    · exact hl
  · rw [Classification.links_setLinks] at hl
    exact ((hleft l).mp hl).2

end Links

/-! ## The lists of a request -/

section Lists

variable {h : MenuHandlers} {itemID actor : UUID} {linked : Classification → List UUID} {w w' : World Db Time}
  {c : Classification}

/-- **One call takes away what is not in its list, and adds nothing.** -/
theorem replaceLinks_narrows {ω : LinksStmt → Outcome} {res : Except DbError Unit}
    (hnames : NamesLinks itemID linked w.db)
    (hrun : ((replaceLinks c itemID (linked c) actor).under Outcome.found).run ω w = (res, w')) :
    Narrowed itemID linked w.db w'.db ∧ (res = .ok () → OnlyListed itemID linked c w'.db) := by
  unfold replaceLinks at hrun
  rw [under_bind, under_mapError] at hrun
  obtain ⟨x, hfailed, rfl⟩ | ⟨rows, w₁, hcleared, hrest⟩ := run_bind_cases hrun
  · rw [failed_exec_found hfailed]
    exact ⟨.refl _ _ _, by simp⟩
  obtain ⟨db, hclear, rfl⟩ := run_exec_found (run_mapError_eq_ok hcleared)
  obtain ⟨hnarrowed, honly⟩ := clearLinks_narrows hclear
  split_ifs at hrest with hempty
  · cases hrest
    exact ⟨hnarrowed, fun _ => honly⟩
  rw [under_bind, under_mapError] at hrest
  obtain ⟨x, hfailed, rfl⟩ | ⟨rows', w₂, hinserted, hdone⟩ := run_bind_cases hrest
  · rw [failed_exec_found hfailed]
    exact ⟨hnarrowed, by simp⟩
  obtain ⟨db', hinsert, rfl⟩ := run_exec_found (run_mapError_eq_ok hinserted)
  cases hdone
  have hmissing : c.missing db itemID (linked c) = [] :=
    List.eq_nil_iff_forall_not_mem.mpr fun id hid =>
      (mem_missing.mp hid).2 (hnames.narrowed hnarrowed c id (mem_missing.mp hid).1)
  unfold Classification.insertLinks at hinsert
  rw [hmissing] at hinsert
  cases hinsert
  have hsame : ∀ db, c.setLinks db (c.links db) = db := fun db => by cases c <;> rfl
  simp only [List.map_nil, List.append_nil, hsame]
  exact ⟨hnarrowed, fun _ => honly⟩

theorem setSelected_narrows {values : List String} {ω : MenuStmt → Outcome} {res : Except ApiError Unit}
    (hnames : NamesLinks itemID linked w.db) (hparse : parseIDList h.rt values c.field = .ok (linked c))
    (hrun : ((h.setSelected c itemID (some values) actor).under Outcome.found).run ω w = (res, w')) :
    Narrowed itemID linked w.db w'.db ∧ (res = .ok () → OnlyListed itemID linked c w'.db) := by
  rw [MenuHandlers.setSelected, hparse] at hrun
  change ((MenuHandlers.setLinks c itemID (linked c) actor).under Outcome.found).run ω w = (res, w') at hrun
  rw [MenuHandlers.setLinks, under_mapError, under_within, run_mapError, run_within] at hrun
  rcases hreplace : ((replaceLinks c itemID (linked c) actor).under Outcome.found).run (ω ∘ MenuStmt.classify c) w with
    ⟨r, w₁⟩
  rw [hreplace] at hrun
  obtain ⟨rfl, rfl⟩ := Prod.ext_iff.mp hrun
  obtain ⟨hnarrowed, honly⟩ := replaceLinks_narrows hnames hreplace
  exact ⟨hnarrowed, fun hok => honly (exceptMapError_eq_ok hok)⟩

/-- One list, and what comes after it -/
theorem setSelected_narrows_bind {values : List String} {ω : MenuStmt → Outcome} {β : Type}
    {k : Unit → Handler MenuStmt β} {res : Except ApiError β} (hnames : NamesLinks itemID linked w.db)
    (hparse : parseIDList h.rt values c.field = .ok (linked c))
    (hrun : ((h.setSelected c itemID (some values) actor >>= k).under Outcome.found).run ω w = (res, w')) :
    (Narrowed itemID linked w.db w'.db ∧ ∃ x, res = .error x) ∨
      ∃ w₁, Narrowed itemID linked w.db w₁.db ∧ OnlyListed itemID linked c w₁.db ∧
        ((k ()).under Outcome.found).run ω w₁ = (res, w') := by
  rw [under_bind] at hrun
  obtain ⟨x, hfailed, rfl⟩ | ⟨u, w₁, hset, hrest⟩ := run_bind_cases hrun
  · exact .inl ⟨(setSelected_narrows hnames hparse hfailed).1, x, rfl⟩
  · obtain ⟨hnarrowed, honly⟩ := setSelected_narrows hnames hparse hset
    exact .inr ⟨w₁, hnarrowed, honly rfl, hrest⟩

/-- **All three lists** -/
theorem applySelectedClassification_narrows {values : Classification → List String} {ω : MenuStmt → Outcome}
    {res : Except ApiError Unit} (hnames : NamesLinks itemID linked w.db)
    (hparse : ∀ c, parseIDList h.rt (values c) c.field = .ok (linked c))
    (hrun : ((h.applySelectedClassification itemID (fun c => some (values c)) actor).under Outcome.found).run ω w =
      (res, w')) :
    Narrowed itemID linked w.db w'.db ∧ (res = .ok () → ∀ c, OnlyListed itemID linked c w'.db) := by
  unfold MenuHandlers.applySelectedClassification at hrun
  obtain ⟨hnarrowed, x, rfl⟩ | ⟨w₁, htags, honly, hrest⟩ := setSelected_narrows_bind hnames (hparse .tag) hrun
  · exact ⟨hnarrowed, by simp⟩
  have hnames₁ := hnames.narrowed htags
  obtain ⟨hnarrowed, x, rfl⟩ | ⟨w₂, hallergens, honly', hrest'⟩ :=
    setSelected_narrows_bind hnames₁ (hparse .allergen) hrest
  · exact ⟨htags.trans hnarrowed, by simp⟩
  obtain ⟨hadditives, honly''⟩ := setSelected_narrows (hnames₁.narrowed hallergens) (hparse .additive) hrest'
  refine ⟨(htags.trans hallergens).trans hadditives, fun hok c => ?_⟩
  cases c
  · exact (honly.narrowed hallergens).narrowed hadditives
  · exact honly'.narrowed hadditives
  · exact honly'' hok

/-- **A request that is accepted with a field stores the changed row, and narrows the links.** -/
theorem patchItem_narrows {r : MenuRequest MenuHandlers.PatchMenuItemRequest} {values : Classification → List String}
    {A : UUID × UUID × MenuItemUpdate × MenuHandlers.PatchMenuItemRequest → Prop}
    (hreturns : (h.acceptItemPatch r).Returns (· = w) A)
    (haccepted : ∀ accepted, A accepted → accepted.2.1 = itemID ∧ accepted.2.2.1 ≠ .empty ∧
      accepted.2.2.2.ids = fun c => some (values c))
    (hnames : NamesLinks itemID linked w.db) (hparse : ∀ c, parseIDList h.rt (values c) c.field = .ok (linked c))
    {ω : MenuStmt → Outcome} {res : Except ApiError MenuResponse}
    (hrun : ((h.patchItem r).under Outcome.found).run ω w = (res, w')) :
    (w' = w ∧ ∃ x, res = .error x) ∨
      ∃ accepted m items, A accepted ∧ w.db.livingMenuItem itemID = some m ∧
        (w.db.setMenuItems items).menuItem itemID = some (m.update accepted.1 w.now accepted.2.2.1.apply) ∧
        Narrowed itemID linked (w.db.setMenuItems items) w'.db ∧
        ∀ a, res = .ok a → ∀ c, OnlyListed itemID linked c w'.db := by
  have hreads : ((h.acceptItemPatch r).under Outcome.found).ReadOnly :=
    Steps.under (h.acceptItemPatch_reads r).readOnly _
  unfold MenuHandlers.patchItem at hrun
  rw [under_bind] at hrun
  obtain ⟨rfl, x, rfl⟩ | ⟨accepted, haccept, hrest⟩ := hreads.run_bind_cases hrun
  · exact .inl ⟨rfl, x, rfl⟩
  have hA : A accepted := (hreturns.under Outcome.found).run hreads rfl (congrArg Prod.fst haccept)
  obtain ⟨actor, id, change, body⟩ := accepted
  obtain ⟨rfl, hfields, hids⟩ := haccepted _ hA
  dsimp only at hrest hfields hids
  rw [run_under] at hrest
  obtain ⟨x, hfailed, rfl⟩ | ⟨updated, w₂, hupdated, hrest'⟩ := run_bind_cases hrest
  · have hsame := updateItem_quiet (fun w => w) x (congrArg Prod.fst hfailed)
    rw [hfailed] at hsame
    exact .inl ⟨hsame, x, rfl⟩
  obtain ⟨rfl, m, items, hm, rfl, hrow⟩ := updateMenuItem_stores hfields
    ((run_within _ _ _ _).symm.trans (run_mapError_eq_ok hupdated))
  refine .inr ⟨_, m, items, hA, hm, hrow, ?_⟩
  rw [← run_under, hids, under_bind] at hrest'
  have hnames' : NamesLinks updated.id linked (w.db.setMenuItems items) := fun c => by
    cases c <;> exact hnames _
  obtain ⟨x, hfailed, rfl⟩ | ⟨u, w₃, hlinked, hread⟩ := run_bind_cases hrest'
  · exact ⟨(applySelectedClassification_narrows (w := { w with db := _ }) hnames' hparse hfailed).1, by simp⟩
  obtain ⟨hnarrowed, honly⟩ :=
    applySelectedClassification_narrows (w := { w with db := _ }) hnames' hparse hlinked
  have hback := run_readOnly (Steps.under (P := fun _ s s' => s' = s)
    (MenuHandlers.writeItem_reads updated.id 200).readOnly Outcome.found) ω w₃
  rw [hread] at hback
  obtain rfl : w' = w₃ := hback
  exact ⟨hnarrowed, fun _ _ => honly rfl⟩

end Lists

end Doenerstag
