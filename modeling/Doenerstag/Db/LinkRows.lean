import Doenerstag.Db.MenuItems
import Doenerstag.Db.Orders
import Doenerstag.Lib.LinkSets
import Doenerstag.Lib.Transactions

/-!
# The rows of the link tables (`internal/db/classification.go`)

`replaceLinks` once more, on the rows of the three link tables with all their columns, where `Db` has the
links alone: who made a link, and when, is to survive an unrelated edit.

* `LinkDb` — the tables; `LinkDb.links` — the links alone.
* `replaceLinkRows` — the function on the pool, `replaceLinkRowsIn` — in a transaction.
* `clearLinkRows_links`, `insertLinkRows_links` — its statements are those of `replaceLinks` on the links.
* `replaceLinks_sets` — **on success the links of the item are those of the list, and every other row is as it
  was; in a transaction, on an error nothing has changed.**
-/

namespace Doenerstag

open ReadCommitted Prog LinkSets

/-! ## The tables -/

/-- A row of `menu_item_tag`, `menu_item_allergen` or `menu_item_additive`, with all its columns. -/
structure LinkRow where
  menuItemID : UUID
  targetID : UUID
  createdAt : Time
  createdBy : Option UUID
  updatedAt : Time
  updatedBy : Option UUID
  deriving DecidableEq, Repr

def LinkRow.link (r : LinkRow) : MenuItemLinkRow := { menuItemID := r.menuItemID, targetID := r.targetID }

/-- The three tables, and everything else. -/
structure LinkDb where
  rows : Classification → List LinkRow
  rest : Db

namespace LinkDb

def setRows (c : Classification) (s : LinkDb) (rows : List LinkRow) : LinkDb :=
  { s with rows := fun c' => if c' = c then rows else s.rows c' }

/-- The database with the links of the tables. -/
def links (s : LinkDb) : Db :=
  { s.rest with
    menuItemTags := (s.rows .tag).map LinkRow.link
    menuItemAllergens := (s.rows .allergen).map LinkRow.link
    menuItemAdditives := (s.rows .additive).map LinkRow.link }

end LinkDb

/-- The row that the insert makes of an id. -/
def newLinkRow (itemID actor : UUID) (now : Time) (id : UUID) : LinkRow :=
  { menuItemID := itemID, targetID := id, createdAt := pgTime now, createdBy := some actor
    updatedAt := pgTime now, updatedBy := some actor }

/-! ## The statements -/

/-- `DELETE FROM … WHERE menu_item_id = … AND … <> ALL (…)` -/
def clearLinkRows (c : Classification) (itemID : UUID) (linked : List UUID) (s : LinkDb) :
    Except PgError (LinkDb × Nat) :=
  .ok (s.setRows c (clear LinkRow.menuItemID LinkRow.targetID itemID linked (s.rows c)),
    (s.rows c).countP (stale LinkRow.menuItemID LinkRow.targetID itemID linked))

/-- `INSERT INTO … SELECT …, unnest(…) ON CONFLICT DO NOTHING` -/
def insertLinkRows (c : Classification) (itemID actor : UUID) (linked : List UUID) (now : Time)
    (s : LinkDb) : Except PgError (LinkDb × Nat) :=
  let new := absent LinkRow.menuItemID LinkRow.targetID itemID linked (s.rows c)
  let referred (id : UUID) : Bool :=
    (s.rest.menuItem itemID).isSome && c.known s.rest id && (s.rest.userByID actor).isSome
  if !new.all referred then .error .foreignKeyViolation
  else .ok (s.setRows c (fill LinkRow.menuItemID LinkRow.targetID itemID (newLinkRow itemID actor now) linked
    (s.rows c)), new.length)

/-- `replaceLinks`, on the pool -/
def replaceLinkRows (c : Classification) (itemID : UUID) (linked : List UUID) (actor : UUID) :
    Program LinksStmt LinkDb Time DbError Unit := do
  let _ ← (exec .clear fun _ => clearLinkRows c itemID linked).mapError otherError
  if linked.isEmpty then
    pure ()
  else
    let _ ← (exec .insert (insertLinkRows c itemID actor linked)).mapError linksError
    pure ()

/-- `replaceLinks`, in a transaction -/
def replaceLinkRowsIn (c : Classification) (itemID : UUID) (linked : List UUID) (actor : UUID)
    (tx : Tx PgError LinkDb Time) : Program LinksStmt LinkDb Time DbError (Tx PgError LinkDb Time) := do
  let tx ← (tx.exec .clear fun _ s => (clearLinkRows c itemID linked s).map Prod.fst).mapError otherError
  if linked.isEmpty then
    pure tx
  else
    (tx.exec .insert fun _ s => (insertLinkRows c itemID actor linked tx.began s).map Prod.fst).mapError
      linksError

inductive LinksTxStmt (ℓ : Type) where
  | begin
  /-- before the call, and after it -/
  | other (s : ℓ)
  | links (s : LinksStmt)
  | commit

/-- A transaction with the call in it, rolled back on an error -/
def replaceLinkRowsTx {ℓ : Type}
    (before after : Tx PgError LinkDb Time → Program ℓ LinkDb Time DbError (Tx PgError LinkDb Time))
    (c : Classification) (itemID : UUID) (linked : List UUID) (actor : UUID) :
    Program (LinksTxStmt ℓ) LinkDb Time DbError Unit := do
  let tx ← (begin .begin).mapError otherError
  let tx ← (before tx).within .other
  let tx ← (replaceLinkRowsIn c itemID linked actor tx).within .links
  let tx ← (after tx).within .other
  (tx.commit .commit).mapError otherError

/-! ## The links of the rows -/

section Links

variable {c : Classification} {itemID actor : UUID} {linked : List UUID} {now : Time} {s : LinkDb}

theorem links_of_rows (c : Classification) (s : LinkDb) : c.links s.links = (s.rows c).map LinkRow.link := by
  cases c <;> rfl

theorem links_setRows (c : Classification) (s : LinkDb) (rows : List LinkRow) :
    (s.setRows c rows).links = c.setLinks s.links (rows.map LinkRow.link) := by
  cases c <;> rfl

/-- The delete, on the links -/
theorem clearLinkRows_links : (clearLinkRows c itemID linked s).map (fun r => (r.1.links, r.2)) =
    c.clearLinks itemID linked s.links := by
  have hstale : ∀ r : LinkRow, stale LinkRow.menuItemID LinkRow.targetID itemID linked r =
      (r.link.menuItemID == itemID && !linked.contains r.link.targetID) := by
    intro r
    rw [Bool.eq_iff_iff, stale_iff]
    simp [LinkRow.link]
  unfold clearLinkRows Classification.clearLinks
  simp only [Except.map, links_setRows, links_of_rows, clear, List.filter_map, List.countP_map]
  congr 3
  · congr 2
    funext r
    simp [hstale]
  · funext r
    exact hstale r

/-- The insert, on the links -/
theorem insertLinkRows_links :
    (insertLinkRows c itemID actor linked now s).map (fun r => (r.1.links, r.2)) =
      c.insertLinks itemID actor linked s.links := by
  have hmissing : absent LinkRow.menuItemID LinkRow.targetID itemID linked (s.rows c) =
      c.missing s.links itemID linked := by
    unfold absent Classification.missing
    congr 2
    funext id
    rw [links_of_rows, Bool.eq_iff_iff]
    simp [LinkRow.link]
  have hknown : ∀ id, c.known s.links id = c.known s.rest id := by
    intro id
    cases c <;> rfl
  have hitem : s.links.menuItem itemID = s.rest.menuItem itemID := rfl
  have hactor : s.links.userByID actor = s.rest.userByID actor := rfl
  unfold insertLinkRows Classification.insertLinks
  simp only [hmissing, hknown, hitem, hactor]
  show Except.map _ (ite _ _ _) = ite (_ = true) _ _
  split_ifs with hunknown
  · rfl
  · show Except.ok ((s.setRows c _).links, _) = Except.ok _
    rw [links_setRows, fill, List.map_append, List.map_map, hmissing, links_of_rows]
    rfl

end Links

/-! ## What a call comes to -/

/-- The links of the item are those of the list, and every other row of the three tables is as it was. -/
structure LinksSet (c : Classification) (itemID : UUID) (linked : List UUID) (s s' : LinkDb) : Prop where
  replaced : Replaced LinkRow.menuItemID LinkRow.targetID itemID linked (s.rows c) (s'.rows c)
  otherTables : ∀ c', c' ≠ c → s'.rows c' = s.rows c'
  rest : s'.rest = s.rest

section Calls

variable {c : Classification} {itemID actor : UUID} {linked : List UUID} {now : Time} {s s₁ s₂ : LinkDb}
  {n : Nat} {w w' : World LinkDb Time}

theorem insertLinkRows_eq_ok (h : insertLinkRows c itemID actor linked now s = .ok (s₁, n)) :
    s₁ = s.setRows c (fill LinkRow.menuItemID LinkRow.targetID itemID (newLinkRow itemID actor now) linked
      (s.rows c)) := by
  unfold insertLinkRows at h
  simp only at h
  split_ifs at h
  cases h
  rfl

/-- The delete, and the insert if there is something to insert -/
theorem linksSet_of_statements (actor : UUID) (now : Time)
    (hclear : clearLinkRows c itemID linked s = .ok (s₁, n))
    (hinsert : (linked.isEmpty = true ∧ s₂ = s₁) ∨
      ∃ rows, insertLinkRows c itemID actor linked now s₁ = .ok (s₂, rows)) :
    LinksSet c itemID linked s s₂ := by
  have hfirst : s₁ = s.setRows c (clear LinkRow.menuItemID LinkRow.targetID itemID linked (s.rows c)) := by
    cases hclear
    rfl
  have hrows : s₂.rows c = fill LinkRow.menuItemID LinkRow.targetID itemID (newLinkRow itemID actor now)
      linked (clear LinkRow.menuItemID LinkRow.targetID itemID linked (s.rows c)) ∧
      (∀ c', c' ≠ c → s₂.rows c' = s.rows c') ∧ s₂.rest = s.rest := by
    rcases hinsert with ⟨hempty, rfl⟩ | ⟨rows, hinsert⟩
    · -- of nothing, nothing is absent
      rw [List.isEmpty_iff] at hempty
      rw [hfirst, hempty, fill, absent_nil, List.map_nil, List.append_nil]
      exact ⟨if_pos rfl, fun c' hc => if_neg hc, rfl⟩
    · rw [insertLinkRows_eq_ok hinsert, hfirst]
      refine ⟨?_, fun c' hc => (if_neg hc).trans (if_neg hc), rfl⟩
      show (if c = c then _ else _) = _
      rw [if_pos rfl]
      show fill _ _ _ _ _ (if c = c then _ else _) = _
      rw [if_pos rfl]
  obtain ⟨hrows, hother, hrest⟩ := hrows
  refine ⟨?_, hother, hrest⟩
  rw [hrows]
  exact fill_clear_replaced (fun _ => rfl) fun _ => rfl

/-- On the pool -/
theorem replaceLinkRows_run {ω : LinksStmt → Outcome}
    (hrun : ((replaceLinkRows c itemID linked actor).under Outcome.found).run ω w = (.ok (), w')) :
    LinksSet c itemID linked w.db w'.db := by
  unfold replaceLinkRows at hrun
  rw [under_bind, under_mapError] at hrun
  obtain ⟨rows, w₁, hfirst, hrun⟩ := run_bind_eq_ok hrun
  obtain ⟨s₁, hclear, rfl⟩ := run_exec_found (run_mapError_eq_ok hfirst)
  split_ifs at hrun with hempty
  · cases hrun
    exact linksSet_of_statements actor w.now hclear (.inl ⟨hempty, rfl⟩)
  · rw [under_bind, under_mapError] at hrun
    obtain ⟨rows', w₂, hsecond, hrun⟩ := run_bind_eq_ok hrun
    obtain ⟨s₂, hinsert, rfl⟩ := run_exec_found (run_mapError_eq_ok hsecond)
    cases hrun
    exact linksSet_of_statements actor w.now hclear (.inr ⟨rows', hinsert⟩)

/-- In a transaction the call only stages. -/
theorem replaceLinkRowsIn_readOnly (tx : Tx PgError LinkDb Time) :
    (replaceLinkRowsIn c itemID linked actor tx).ReadOnly := by
  unfold replaceLinkRowsIn
  refine Reads.readOnly (L := fun _ => True) (.bind (.mapError (Tx.exec_reads tx trivial) _) fun tx => ?_)
  split_ifs
  · exact .done _
  · exact .mapError (Tx.exec_reads tx trivial) _

/-- What the transaction sees after the call -/
theorem replaceLinkRowsIn_found {tx : Tx PgError LinkDb Time} (hview : tx.view w.db = .ok s) :
    ((replaceLinkRowsIn c itemID linked actor tx).under Outcome.found).Returns (· = w) fun tx' =>
      ∃ s', tx'.view w.db = .ok s' ∧ LinksSet c itemID linked s s' := by
  unfold replaceLinkRowsIn
  rw [under_bind, under_mapError]
  refine .bind (.mapError (Tx.exec_found hview _) _) fun tx₁ hcleared => ?_
  obtain ⟨-, s₁, hview₁, hfirst⟩ := hcleared
  obtain ⟨r, hclear, rfl⟩ := exceptMap_eq_ok hfirst
  split_ifs with hempty
  · exact returns_done.mpr ⟨_, hview₁, linksSet_of_statements actor tx₁.began hclear
      (.inl ⟨hempty, rfl⟩)⟩
  · rw [under_mapError]
    refine .mapError ((Tx.exec_found hview₁ _).mono fun tx₂ hinserted => ?_) _
    obtain ⟨-, s₂, hview₂, hsecond⟩ := hinserted
    obtain ⟨r', hinsert, rfl⟩ := exceptMap_eq_ok hsecond
    exact ⟨_, hview₂, linksSet_of_statements actor tx₁.began hclear (.inr ⟨r'.2, hinsert⟩)⟩

/-- A transaction that stages its statements and fails has changed nothing. -/
theorem replaceLinkRowsTx_quiet {ℓ γ : Type} {observe : World LinkDb Time → γ}
    {before after : Tx PgError LinkDb Time → Program ℓ LinkDb Time DbError (Tx PgError LinkDb Time)}
    (hbefore : ∀ tx, (before tx).ReadOnly) (hafter : ∀ tx, (after tx).ReadOnly)
    {ω : LinksTxStmt ℓ → Outcome} :
    ((replaceLinkRowsTx before after c itemID linked actor).under Outcome.found).Quiet observe ω w := by
  -- up to the commit it only reads
  have hstage : (((begin .begin).mapError otherError >>= fun tx => (before tx).within .other >>= fun tx =>
      (replaceLinkRowsIn c itemID linked actor tx).within .links >>= fun tx => (after tx).within .other) :
        Program (LinksTxStmt ℓ) LinkDb Time DbError (Tx PgError LinkDb Time)).ReadOnly := by
    refine Steps.bind (Reads.readOnly (L := fun _ => True) (.mapError (begin_reads trivial) _)) fun tx => ?_
    refine Steps.bind (Steps.within (hbefore tx)) fun tx => ?_
    exact Steps.bind (Steps.within (replaceLinkRowsIn_readOnly tx)) fun tx => Steps.within (hafter tx)
  have hquiet := quiet_transaction (l := LinksTxStmt.commit) (g := otherError) (ω := ω) (w := w) observe hstage
    Outcome.found
  simpa only [replaceLinkRowsTx, bind_assoc] using hquiet

/-- **`replaceLinks` sets exactly the given set**, on the pool and as seen in a transaction; and when the
transaction around it ends with an error, nothing has changed. -/
theorem replaceLinks_sets (c : Classification) (itemID : UUID) (linked : List UUID) (actor : UUID)
    (w : World LinkDb Time) :
    (∀ (ω : LinksStmt → Outcome) w',
      ((replaceLinkRows c itemID linked actor).under Outcome.found).run ω w = (.ok (), w') →
        LinksSet c itemID linked w.db w'.db) ∧
    (∀ (ω : LinksStmt → Outcome) (tx tx' : Tx PgError LinkDb Time) s w', tx.view w.db = .ok s →
      ((replaceLinkRowsIn c itemID linked actor tx).under Outcome.found).run ω w = (.ok tx', w') →
        ∃ s', tx'.view w.db = .ok s' ∧ LinksSet c itemID linked s s') ∧
    ∀ (ℓ : Type) (before after : Tx PgError LinkDb Time → Program ℓ LinkDb Time DbError
        (Tx PgError LinkDb Time)) (ω : LinksTxStmt ℓ → Outcome) x w',
      (∀ tx, (before tx).ReadOnly) → (∀ tx, (after tx).ReadOnly) →
      ((replaceLinkRowsTx before after c itemID linked actor).under Outcome.found).run ω w = (.error x, w') →
        w' = w := by
  refine ⟨fun ω w' hrun => replaceLinkRows_run hrun, fun ω tx tx' s w' hview hrun => ?_,
    fun ℓ before after ω x w' hbefore hafter hrun => ?_⟩
  · exact (replaceLinkRowsIn_found hview).run (Steps.under (replaceLinkRowsIn_readOnly tx) _) rfl
      (congrArg Prod.fst hrun)
  · have hquiet : ((replaceLinkRowsTx before after c itemID linked actor).under Outcome.found).Quiet id ω w :=
      replaceLinkRowsTx_quiet hbefore hafter
    have hsame := hquiet x (congrArg Prod.fst hrun)
    rw [hrun] at hsame
    exact hsame

end Calls

/-! ## The tags of a kebab -/

namespace KebabTags

/-- The kebab of `lunch` has two tags, since the epoch. -/
def taggedLunch : LinkDb where
  rows
    | .tag => [⟨⟨4⟩, ⟨20⟩, 0, none, 0, none⟩, ⟨⟨4⟩, ⟨21⟩, 0, none, 0, none⟩]
    | _ => []
  rest := { lunch with tags := [{ id := ⟨20⟩, code := "hot" }, { id := ⟨21⟩, code := "new" }, { id := ⟨22⟩, code := "vegan" }] }

end KebabTags

open KebabTags

/-- One tag stays and one goes; one that is new stands twice in the list. -/
theorem replaceLinks_sets_kebab : ∃ w' : World LinkDb Time,
    ((replaceLinkRows .tag ⟨4⟩ [⟨22⟩, ⟨21⟩, ⟨22⟩] ⟨1⟩).under Outcome.found).run (fun _ => .ok)
      ⟨taggedLunch, 5000⟩ = (.ok (), w') ∧
    LinksSet .tag ⟨4⟩ [⟨22⟩, ⟨21⟩, ⟨22⟩] taggedLunch w'.db := by
  have hok : (((replaceLinkRows .tag ⟨4⟩ [⟨22⟩, ⟨21⟩, ⟨22⟩] ⟨1⟩).under Outcome.found).run (fun _ => .ok)
      ⟨taggedLunch, 5000⟩).1 = .ok () := by decide +kernel
  exact ⟨_, Prod.ext hok rfl, (replaceLinks_sets .tag ⟨4⟩ [⟨22⟩, ⟨21⟩, ⟨22⟩] ⟨1⟩ ⟨taggedLunch, 5000⟩).1
    (fun _ => .ok) _ (Prod.ext hok rfl)⟩

end Doenerstag
