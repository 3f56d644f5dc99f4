import Doenerstag.Lib.Interleaving

/-!
# Statements under READ COMMITTED

Programs whose steps are the statements of a client of a relational database. Every statement is
atomic and sees what is committed when it runs; in a transaction it sees the transaction's own
writes on top. Other clients may commit between any two statements.

A statement fails for one of two reasons: its outcome says so (the connection is lost, the server
is shut down), or the database rejects it. A statement about one row may also find none.

* `read`, `write` — the two kinds of step everything else is an instance of, with their rules.
* `queryRow`, `query`, `exec`, `returning`, `clock` — statements on the pool, each its own
  transaction; `execSeen` — the same in two steps, the snapshot and the commit.
* `Tx` — a transaction, as the writes it has staged; `begin`, `Tx.commit` and its statements.

No locks are modelled. A lock makes a statement wait, so it only takes interleavings away.
-/

namespace ReadCommitted

/-- The committed tables, and the clock. -/
structure World (δ τ : Type) where
  db : δ
  now : τ

/-- How a statement goes. -/
inductive Outcome where
  | ok
  | noRow
  | failure
  deriving DecidableEq, Repr

/-- A statement that goes through finds the rows that are there. -/
def Outcome.found : Outcome → Outcome
  | .noRow => .ok
  | e => e

/-- Why a statement returns an error; `φ` is what the database may reject it with. -/
inductive StmtError (φ : Type) where
  | noRows
  | rejected (reason : φ)
  | failed
  deriving DecidableEq, Repr

/-- A program of statements with labels `ℓ` on tables `δ`, with a clock that shows a `τ`. -/
abbrev Program (ℓ δ τ χ : Type) : Type → Type := Prog ℓ Outcome (World δ τ) χ

variable {ℓ δ τ φ χ α β : Type}

/-- Nothing is committed; time may pass. -/
def OnlyTime (w w' : World δ τ) : Prop := w'.db = w.db

/-! ## Reading and writing -/

/-- A step that leaves the world as it is. -/
def read (l : ℓ) (answer : Outcome → World δ τ → Except χ β) : Program ℓ δ τ χ β :=
  .step l (fun _ w => w) fun e w => .ofExcept (answer e w)

/-- The world after an update that may have been refused. -/
def World.after (w : World δ τ) (r : Except χ (δ × β)) : World δ τ :=
  match r with
  | .ok (db, _) => { w with db }
  | .error _ => w

theorem World.after_now (w : World δ τ) (r : Except χ (δ × β)) : (w.after r).now = w.now := by
  cases r <;> rfl

/-- A step that commits new tables, or none. -/
def write (l : ℓ) (update : Outcome → World δ τ → Except χ (δ × β)) : Program ℓ δ τ χ β :=
  .step l (fun e w => w.after (update e w)) fun e w => .ofExcept ((update e w).map Prod.snd)

theorem run_read (ω : ℓ → Outcome) (l : ℓ) (answer : Outcome → World δ τ → Except χ β)
    (w : World δ τ) : (read l answer).run ω w = (answer (ω l) w, w) := by
  rw [read, Prog.run_step, Prog.run_ofExcept]

theorem run_write (ω : ℓ → Outcome) (l : ℓ) (update : Outcome → World δ τ → Except χ (δ × β))
    (w : World δ τ) :
    (write l update).run ω w = ((update (ω l) w).map Prod.snd, w.after (update (ω l) w)) := by
  rw [write, Prog.run_step, Prog.run_ofExcept]

theorem under_read (f : Outcome → Outcome) (l : ℓ) (answer : Outcome → World δ τ → Except χ β) :
    (read l answer).under f = read l fun e => answer (f e) := by
  rw [read, read, Prog.under]
  congr 1
  funext e w
  cases answer (f e) w <;> rfl

theorem under_write (f : Outcome → Outcome) (l : ℓ)
    (update : Outcome → World δ τ → Except χ (δ × β)) :
    (write l update).under f = write l fun e => update (f e) := by
  rw [write, write, Prog.under]
  congr 1
  funext e w
  cases update (f e) w <;> rfl

section Rules

variable {P : ℓ → World δ τ → World δ τ → Prop} {I : World δ τ → Prop}
  {R G : ℓ → World δ τ → World δ τ → Prop} {Q : Except χ β → World δ τ → Prop}

theorem read_steps {l : ℓ} {answer : Outcome → World δ τ → Except χ β} (h : ∀ w, P l w w) :
    (read l answer).Steps P :=
  Prog.steps_step.mpr fun _ w => ⟨h w, .ofExcept _⟩

theorem write_steps {l : ℓ} {update : Outcome → World δ τ → Except χ (δ × β)}
    (h : ∀ e w, P l w (w.after (update e w))) : (write l update).Steps P :=
  Prog.steps_step.mpr fun e w => ⟨h e w, .ofExcept _⟩

/-- A reading step, once the others have moved within its rely. -/
theorem holds_read {l : ℓ} {answer : Outcome → World δ τ → Except χ β} {w : World δ τ}
    (h : ∀ w', Relation.ReflTransGen (R l) w w' → I w' →
      G l w' w' ∧ ∀ e, Q (answer e w') w') : (read l answer).Holds I R G Q w := by
  refine Prog.holds_step.mpr fun w' hwait hI e => ?_
  obtain ⟨hG, hQ⟩ := h w' hwait hI
  exact ⟨hI, hG, Prog.holds_ofExcept.mpr (hQ e)⟩

/-- A writing step, once the others have moved within its rely. -/
theorem holds_write {l : ℓ} {update : Outcome → World δ τ → Except χ (δ × β)} {w : World δ τ}
    (h : ∀ w', Relation.ReflTransGen (R l) w w' → I w' → ∀ e,
      I (w'.after (update e w')) ∧ G l w' (w'.after (update e w')) ∧
        Q ((update e w').map Prod.snd) (w'.after (update e w'))) :
    (write l update).Holds I R G Q w := by
  refine Prog.holds_step.mpr fun w' hwait hI e => ?_
  obtain ⟨hI', hG, hQ⟩ := h w' hwait hI e
  exact ⟨hI', hG, Prog.holds_ofExcept.mpr hQ⟩

end Rules

/-! ## Statements on the pool -/

/-- What a query for one row returns. -/
def Outcome.row (e : Outcome) (found : Option β) : Except (StmtError φ) β :=
  match e, found with
  | .ok, some b => .ok b
  | .ok, none => .error .noRows
  | .noRow, _ => .error .noRows
  | .failure, _ => .error .failed

/-- What a statement that is not about one row returns. -/
def Outcome.rows (e : Outcome) (result : β) : Except (StmtError φ) β :=
  match e with
  | .failure => .error .failed
  | _ => .ok result

/-- What a statement that changes rows does to the tables, with the number of rows. -/
def Outcome.changed (e : Outcome) (db : δ) (u : Except φ (δ × Nat)) :
    Except (StmtError φ) (δ × Nat) :=
  match e with
  | .ok => u.mapError .rejected
  | .noRow => .ok (db, 0)
  | .failure => .error .failed

/-- What a statement that changes at most one row and returns it does to the tables. -/
def Outcome.returned (e : Outcome) (u : Except φ (δ × Option β)) : Except (StmtError φ) (δ × β) :=
  match e with
  | .ok =>
    match u with
    | .error x => .error (.rejected x)
    | .ok (_, none) => .error .noRows
    | .ok (db, some b) => .ok (db, b)
  | .noRow => .error .noRows
  | .failure => .error .failed

/-- A query for one row. -/
def queryRow (l : ℓ) (q : δ → Option β) : Program ℓ δ τ (StmtError φ) β :=
  read l fun e w => e.row (q w.db)

/-- A query for any number of rows. -/
def query (l : ℓ) (q : δ → β) : Program ℓ δ τ (StmtError φ) β :=
  read l fun e w => e.rows (q w.db)

/-- What a query that the database may reject returns. -/
def Outcome.selected (e : Outcome) (result : Except φ β) : Except (StmtError φ) β :=
  match e with
  | .failure => .error .failed
  | _ => result.mapError .rejected

/-- A query for any number of rows, with an expression that may fail on one of them. -/
def select (l : ℓ) (q : δ → Except φ β) : Program ℓ δ τ (StmtError φ) β :=
  read l fun e w => e.selected (q w.db)

/-- A statement that changes rows, at the moment the clock shows. -/
def exec (l : ℓ) (u : τ → δ → Except φ (δ × Nat)) : Program ℓ δ τ (StmtError φ) Nat :=
  write l fun e w => e.changed w.db (u w.now w.db)

/-- A statement that changes at most one row and returns it, at the moment the clock shows. -/
def returning (l : ℓ) (u : τ → δ → Except φ (δ × Option β)) : Program ℓ δ τ (StmtError φ) β :=
  write l fun e w => e.returned (u w.now w.db)

/-- A statement that changes any number of rows and returns some of them. -/
def returningRows (l : ℓ) (u : τ → δ → Except φ (δ × β)) : Program ℓ δ τ (StmtError φ) β :=
  write l fun e w =>
    match e with
    | .failure => .error .failed
    | _ => (u w.now w.db).mapError .rejected

/-- A statement that changes rows, its snapshot told apart from its commit: what it changes is
settled on the rows it sees, at that moment, and others may commit before it does. -/
def execSeen (seen commit : ℓ) (u : τ → δ → δ → Except φ (δ × Nat)) :
    Program ℓ δ τ (StmtError φ) Nat := do
  let w₀ ← read seen fun e w => e.rows w
  write commit fun e w => e.changed w.db (u w₀.now w₀.db w.db)

/-- A look at the clock. -/
def clock (l : ℓ) : Program ℓ δ τ χ τ :=
  read l fun _ w => .ok w.now

/-! ## Transactions -/

/-- A transaction: when it began, and what it has written. -/
structure Tx (φ δ τ : Type) where
  began : τ
  writes : List (δ → Except φ δ)

/-- The tables as the transaction sees them, over what is committed. -/
def Tx.view (tx : Tx φ δ τ) (db : δ) : Except φ δ :=
  tx.writes.foldlM (fun db u => u db) db

/-- One more write. -/
def Tx.push (tx : Tx φ δ τ) (u : δ → Except φ δ) : Tx φ δ τ :=
  { tx with writes := tx.writes ++ [u] }

/-- Writes go through one after the other. -/
theorem writes_cons_eq_ok {u : δ → Except φ δ} {rest : List (δ → Except φ δ)} {db db' : δ}
    (h : (u :: rest).foldlM (fun db u => u db) db = .ok db') :
    ∃ next, u db = .ok next ∧ rest.foldlM (fun db u => u db) next = .ok db' := by
  rw [List.foldlM_cons] at h
  cases hu : u db with
  | error x => simp [hu, bind, Except.bind] at h
  | ok next => exact ⟨next, rfl, by simpa [hu, bind, Except.bind] using h⟩

theorem Tx.view_nil (began : τ) (db : δ) :
    (Tx.mk began [] : Tx φ δ τ).view db = .ok db := rfl

theorem Tx.view_push (tx : Tx φ δ τ) (u : δ → Except φ δ) (db : δ) :
    (tx.push u).view db = (tx.view db).bind u := by
  simp only [view, push, List.foldlM_append, List.foldlM_cons, List.foldlM_nil]
  cases tx.writes.foldlM (fun db u => u db) db with
  | error x => rfl
  | ok db' => exact bind_pure (u db')

def begin (l : ℓ) : Program ℓ δ τ (StmtError φ) (Tx φ δ τ) :=
  read l fun e w => e.rows { began := w.now, writes := [] }

namespace Tx

variable (tx : Tx φ δ τ)

/-- What a statement of the transaction finds on the tables it sees. -/
def onView (db : δ) (f : δ → Except (StmtError φ) β) : Except (StmtError φ) β :=
  ((tx.view db).mapError .rejected).bind f

def queryRow (l : ℓ) (q : δ → Option β) : Program ℓ δ τ (StmtError φ) β :=
  read l fun e w => tx.onView w.db fun db => e.row (q db)

def query (l : ℓ) (q : δ → β) : Program ℓ δ τ (StmtError φ) β :=
  read l fun e w => tx.onView w.db fun db => e.rows (q db)

def select (l : ℓ) (q : δ → Except φ β) : Program ℓ δ τ (StmtError φ) β :=
  read l fun e w => tx.onView w.db fun db => e.selected (q db)

/-- The transaction after one more write, when the database accepts it now. -/
def stage (db : δ) (u : δ → Except φ δ) : Except (StmtError φ) (Tx φ δ τ) :=
  tx.onView db fun view => ((u view).mapError .rejected).map fun _ => tx.push u

/-- A statement that changes rows. What it changes is settled when it runs, on the rows it sees. -/
def exec (l : ℓ) (u : δ → δ → Except φ δ) : Program ℓ δ τ (StmtError φ) (Tx φ δ τ) :=
  read l fun e w =>
    match e with
    | .ok => tx.onView w.db fun view => tx.stage w.db (u view)
    | .noRow => .ok tx
    | .failure => .error .failed

/-- `exec`, with the number of rows it changes. -/
def execRows (l : ℓ) (u : δ → δ → Except φ δ) (rows : δ → Nat) :
    Program ℓ δ τ (StmtError φ) (Tx φ δ τ × Nat) :=
  read l fun e w =>
    match e with
    | .ok => tx.onView w.db fun view => (tx.stage w.db (u view)).map fun tx' => (tx', rows view)
    | .noRow => .ok (tx, 0)
    | .failure => .error .failed

/-- A statement that adds one given row. -/
def insert (l : ℓ) (u : δ → Except φ δ) : Program ℓ δ τ (StmtError φ) (Tx φ δ τ) :=
  read l fun e w =>
    match e with
    | .failure => .error .failed
    | _ => tx.stage w.db u

/-- The tables the transaction leaves when it commits. -/
def committed (e : Outcome) (db : δ) : Except (StmtError φ) (δ × Unit) :=
  match e with
  | .failure => .error .failed
  | _ => ((tx.view db).mapError .rejected).map fun db' => (db', ())

/-- `COMMIT`: what the transaction has written goes on top of what is committed by now. -/
def commit (l : ℓ) : Program ℓ δ τ (StmtError φ) Unit :=
  write l fun e w => tx.committed e w.db

theorem committed_eq_ok {e : Outcome} {db db' : δ} {u : Unit}
    (h : tx.committed e db = .ok (db', u)) : tx.view db = .ok db' := by
  cases e with
  | failure => cases h
  | ok | noRow =>
    simp only [committed] at h
    cases hv : tx.view db with
    | error x => simp [hv, Except.map] at h
    | ok v => simpa [hv, Except.map] using h

theorem stage_eq_ok {db : δ} {u : δ → Except φ δ} {tx' : Tx φ δ τ}
    (h : tx.stage db u = .ok tx') : tx' = tx.push u := by
  unfold stage onView at h
  cases hv : tx.view db with
  | error x => simp [hv, Except.bind] at h
  | ok v =>
    cases hu : u v with
    | error x => simp [hv, hu, Except.map, Except.bind] at h
    | ok v' => simpa [hv, hu, Except.map, Except.bind, eq_comm] using h

end Tx

/-- Every write of the transaction is of a kind. -/
def Tx.Writes (P : (δ → Except φ δ) → Prop) (tx : Tx φ δ τ) : Prop := ∀ u ∈ tx.writes, P u

namespace Tx.Writes

variable {P : (δ → Except φ δ) → Prop} {tx : Tx φ δ τ}

theorem push (h : tx.Writes P) {u : δ → Except φ δ} (hu : P u) : (tx.push u).Writes P := by
  intro v hv
  rcases List.mem_append.mp hv with hv | hv
  · exact h v hv
  · rw [List.mem_singleton.mp hv]
    exact hu

/-- **What every write does to the tables, up to repetition, the transaction does.** -/
theorem view {K : δ → δ → Prop} (hrefl : ∀ db, K db db)
    (htrans : ∀ db₁ db₂ db₃, K db₁ db₂ → K db₂ db₃ → K db₁ db₃)
    (h : tx.Writes fun u => ∀ db db', u db = .ok db' → K db db') {db db' : δ}
    (hview : tx.view db = .ok db') : K db db' := by
  obtain ⟨began, writes⟩ := tx
  simp only [Tx.view] at hview
  induction writes generalizing db with
  | nil =>
    cases hview
    exact hrefl _
  | cons u rest ih =>
    obtain ⟨next, hu, hrest⟩ := writes_cons_eq_ok hview
    have hfirst : K db next := h u List.mem_cons_self db next hu
    exact htrans _ _ _ hfirst (ih (fun v hv => h v (List.mem_cons_of_mem _ hv)) hrest)

end Tx.Writes

/-! ## Which statements only read -/

section Reads

variable {L : ℓ → Prop} {l : ℓ}

theorem read_reads {answer : Outcome → World δ τ → Except χ β} (hl : L l) :
    (read l answer).Reads L := read_steps fun _ => ⟨rfl, hl⟩

theorem queryRow_reads {q : δ → Option β} (hl : L l) :
    (queryRow l q : Program ℓ δ τ (StmtError φ) β).Reads L := read_reads hl

theorem query_reads {q : δ → β} (hl : L l) :
    (query l q : Program ℓ δ τ (StmtError φ) β).Reads L := read_reads hl

theorem select_reads {q : δ → Except φ β} (hl : L l) :
    (select l q : Program ℓ δ τ (StmtError φ) β).Reads L := read_reads hl

theorem clock_reads (hl : L l) : (clock l : Program ℓ δ τ χ τ).Reads L := read_reads hl

theorem begin_reads (hl : L l) :
    (begin l : Program ℓ δ τ (StmtError φ) (Tx φ δ τ)).Reads L := read_reads hl

variable (tx : Tx φ δ τ)

theorem Tx.queryRow_reads {q : δ → Option β} (hl : L l) : (tx.queryRow l q).Reads L :=
  read_reads hl

theorem Tx.query_reads {q : δ → β} (hl : L l) : (tx.query l q).Reads L := read_reads hl

theorem Tx.select_reads {q : δ → Except φ β} (hl : L l) : (tx.select l q).Reads L := read_reads hl

theorem Tx.exec_reads {u : δ → δ → Except φ δ} (hl : L l) : (tx.exec l u).Reads L := read_reads hl

theorem Tx.execRows_reads {u : δ → δ → Except φ δ} {rows : δ → Nat} (hl : L l) :
    (tx.execRows l u rows).Reads L := read_reads hl

theorem Tx.insert_reads {u : δ → Except φ δ} (hl : L l) : (tx.insert l u).Reads L := read_reads hl

end Reads

/-! ## What statements return -/

section Returns

variable {I : World δ τ → Prop} {l : ℓ}

theorem read_returns {answer : Outcome → World δ τ → Except χ β} {A : β → Prop}
    (h : ∀ e w b, I w → answer e w = .ok b → A b) : (read l answer).Returns I A :=
  Prog.returns_step.mpr fun e w hI => .ofExcept fun b hb => h e w b hI hb

theorem Outcome.row_eq_ok {e : Outcome} {found : Option β} {b : β}
    (h : (e.row found : Except (StmtError φ) β) = .ok b) : found = some b := by
  cases e <;> cases found <;> simp_all [row]

theorem Outcome.rows_eq_ok {e : Outcome} {result b : β}
    (h : (e.rows result : Except (StmtError φ) β) = .ok b) : b = result := by
  cases e <;> simp_all [rows]

theorem Outcome.selected_eq_ok {e : Outcome} {result : Except φ β} {b : β}
    (h : (e.selected result : Except (StmtError φ) β) = .ok b) : result = .ok b := by
  cases e with
  | failure => cases h
  | ok | noRow => exact Prog.exceptMapError_eq_ok h

/-- A statement that changes rows changes none, or what its update says. -/
theorem Outcome.changed_rows {e : Outcome} {db : δ} {u : Except φ (δ × Nat)} {r : δ × Nat}
    (h : e.changed db u = .ok r) : r = (db, 0) ∨ u = .ok r := by
  cases e with
  | failure => cases h
  | noRow =>
    cases h
    exact .inl rfl
  | ok =>
    cases hu : u with
    | error x => simp [changed, hu] at h
    | ok r' => exact .inr (by simpa [changed, hu] using h)

theorem Outcome.changed_eq_ok {e : Outcome} {db : δ} {u : Except φ (δ × Nat)} {r : δ × Nat}
    (h : e.changed db u = .ok r) : r.1 = db ∨ u = .ok r :=
  (changed_rows h).imp_left fun hnone => congrArg Prod.fst hnone

/-- A statement that returns a row has changed what its update says. -/
theorem Outcome.returned_eq_ok {e : Outcome} {u : Except φ (δ × Option β)} {db : δ} {b : β}
    (h : (e.returned u : Except (StmtError φ) (δ × β)) = .ok (db, b)) : u = .ok (db, some b) := by
  cases e with
  | noRow => cases h
  | failure => cases h
  | ok =>
    rcases u with x | ⟨db', _ | b'⟩
    · cases h
    · cases h
    · cases h
      rfl

/-- A statement that changes rows does what its update says, or nothing. -/
theorem exec_steps {P : ℓ → World δ τ → World δ τ → Prop} {u : τ → δ → Except φ (δ × Nat)}
    (hsame : ∀ w, P l w w)
    (hu : ∀ w r, u w.now w.db = .ok r → P l w { w with db := r.1 }) :
    (exec l u : Program ℓ δ τ (StmtError φ) Nat).Steps P := by
  refine write_steps fun e w => ?_
  cases hchanged : e.changed w.db (u w.now w.db) with
  | error x => exact hsame w
  | ok r =>
    rcases Outcome.changed_eq_ok hchanged with hnone | hupdate
    · show P l w { w with db := r.1 }
      rw [hnone]
      exact hsame w
    · exact hu w r hupdate

theorem returning_steps {P : ℓ → World δ τ → World δ τ → Prop}
    {u : τ → δ → Except φ (δ × Option β)} (hsame : ∀ w, P l w w)
    (hu : ∀ w db b, u w.now w.db = .ok (db, some b) → P l w { w with db }) :
    (returning l u : Program ℓ δ τ (StmtError φ) β).Steps P := by
  refine write_steps fun e w => ?_
  cases hreturned : (e.returned (u w.now w.db) : Except (StmtError φ) (δ × β)) with
  | error x => exact hsame w
  | ok r => exact hu w r.1 r.2 (Outcome.returned_eq_ok hreturned)

theorem queryRow_returns {q : δ → Option β} {A : β → Prop}
    (h : ∀ w b, I w → q w.db = some b → A b) :
    (queryRow l q : Program ℓ δ τ (StmtError φ) β).Returns I A :=
  read_returns fun _ w b hI hb => h w b hI (Outcome.row_eq_ok hb)

theorem returning_returns {u : τ → δ → Except φ (δ × Option β)} {A : β → Prop}
    (h : ∀ w db b, I w → u w.now w.db = .ok (db, some b) → A b) :
    (returning l u : Program ℓ δ τ (StmtError φ) β).Returns I A := by
  refine Prog.returns_step.mpr fun e w hI => .ofExcept fun b hb => ?_
  cases hreturned : (e.returned (u w.now w.db) : Except (StmtError φ) (δ × β)) with
  | error x => simp [hreturned, Except.map] at hb
  | ok r =>
    simp only [hreturned, Except.map, Except.ok.injEq] at hb
    exact hb ▸ h w r.1 r.2 hI (Outcome.returned_eq_ok hreturned)

variable {P : (δ → Except φ δ) → Prop}

theorem query_returns {q : δ → β} {A : β → Prop} (h : ∀ w, I w → A (q w.db)) :
    (query l q : Program ℓ δ τ (StmtError φ) β).Returns I A := by
  refine read_returns fun e w b hI hb => ?_
  rw [Outcome.rows_eq_ok hb]
  exact h w hI

theorem begin_returns :
    (begin l : Program ℓ δ τ (StmtError φ) (Tx φ δ τ)).Returns I (Tx.Writes P) := by
  refine read_returns fun _ w tx _ htx => ?_
  rw [Outcome.rows_eq_ok htx]
  exact fun u hu => by cases hu

variable {tx : Tx φ δ τ}

theorem Tx.onView_eq_ok {db : δ} {f : δ → Except (StmtError φ) β} {b : β}
    (h : tx.onView db f = .ok b) : ∃ view, tx.view db = .ok view ∧ f view = .ok b := by
  unfold onView at h
  cases hv : tx.view db with
  | error x => simp [hv, Except.bind] at h
  | ok view => exact ⟨view, rfl, by simpa [hv, Except.bind] using h⟩

/-- A transaction that has written nothing sees what is committed. -/
theorem Tx.onView_unwritten {db : δ} {f : δ → Except (StmtError φ) β} {b : β} (htx : tx.writes = [])
    (h : tx.onView db f = .ok b) : f db = .ok b := by
  obtain ⟨view, hview, hb⟩ := Tx.onView_eq_ok h
  rw [Tx.view, htx] at hview
  cases hview
  exact hb

/-- An insert that goes well is the transaction's last write. -/
theorem Tx.insert_pushes (tx : Tx φ δ τ) {u : δ → Except φ δ} :
    (tx.insert l u).Returns I (· = tx.push u) := by
  refine read_returns fun e w tx' _ htx => ?_
  cases e with
  | failure => cases htx
  | ok | noRow => exact Tx.stage_eq_ok tx htx

theorem Tx.insert_returns {u : δ → Except φ δ} (h : tx.Writes P) (hu : P u) :
    (tx.insert l u).Returns I (Tx.Writes P) :=
  (Tx.insert_pushes tx).mono fun _ htx => htx ▸ h.push hu

theorem Tx.exec_returns {u : δ → δ → Except φ δ} (h : tx.Writes P) (hu : ∀ view, P (u view)) :
    (tx.exec l u).Returns I (Tx.Writes P) := by
  refine read_returns fun e w tx' _ htx => ?_
  cases e with
  | failure => cases htx
  | noRow =>
    cases htx
    exact h
  | ok =>
    obtain ⟨view, -, hstage⟩ := Tx.onView_eq_ok htx
    rw [Tx.stage_eq_ok tx hstage]
    exact h.push (hu view)

theorem Tx.execRows_returns {u : δ → δ → Except φ δ} {rows : δ → Nat} (h : tx.Writes P)
    (hu : ∀ view, P (u view)) :
    (tx.execRows l u rows).Returns I fun staged => staged.1.Writes P := by
  refine read_returns fun e w staged _ hstaged => ?_
  cases e with
  | failure => cases hstaged
  | noRow =>
    cases hstaged
    exact h
  | ok =>
    obtain ⟨view, -, hmap⟩ := Tx.onView_eq_ok hstaged
    cases hstage : tx.stage w.db (u view) with
    | error x => simp [hstage, Except.map] at hmap
    | ok tx' =>
      simp only [hstage, Except.map, Except.ok.injEq] at hmap
      rw [← hmap, Tx.stage_eq_ok tx hstage]
      exact h.push (hu view)

/-- A staged write shows in what the transaction sees. -/
theorem Tx.view_of_stage {db view : δ} (hview : tx.view db = .ok view) {u : δ → Except φ δ}
    {tx' : Tx φ δ τ} (h : tx.stage db u = .ok tx') :
    tx'.began = tx.began ∧ ∃ view', tx'.view db = .ok view' ∧ u view = .ok view' := by
  have hpush := Tx.stage_eq_ok tx h
  unfold Tx.stage Tx.onView at h
  rw [hview] at h
  cases hu : u view with
  | error x => simp [hu, Except.bind, Except.map] at h
  | ok view' =>
    refine ⟨by rw [hpush]; rfl, view', ?_, rfl⟩
    rw [hpush, Tx.view_push, hview]
    exact hu

/-- While nothing else is committed, a statement changes what its transaction sees, or nothing. -/
theorem Tx.exec_views {w : World δ τ} {view : δ} (hview : tx.view w.db = .ok view)
    (u : δ → δ → Except φ δ) :
    (tx.exec l u).Returns (· = w) fun tx' => tx'.began = tx.began ∧
      ∃ view', tx'.view w.db = .ok view' ∧ (view' = view ∨ u view view = .ok view') := by
  refine read_returns fun e w' tx' hw htx => ?_
  subst hw
  cases e with
  | failure => cases htx
  | noRow =>
    cases htx
    exact ⟨rfl, view, hview, .inl rfl⟩
  | ok =>
    obtain ⟨seen, hseen, hstage⟩ := Tx.onView_eq_ok htx
    cases hview.symm.trans hseen
    obtain ⟨hbegan, view', hview', hu⟩ := Tx.view_of_stage hview hstage
    exact ⟨hbegan, view', hview', .inr hu⟩

/-- The same with the number of rows, which is zero if nothing happened. -/
theorem Tx.execRows_views {w : World δ τ} {view : δ} (hview : tx.view w.db = .ok view)
    (u : δ → δ → Except φ δ) (rows : δ → Nat) :
    (tx.execRows l u rows).Returns (· = w) fun staged =>
      staged.2 = 0 ∨ ∃ view', staged.1.view w.db = .ok view' ∧ u view view = .ok view' ∧
        staged.2 = rows view := by
  refine read_returns fun e w' staged hw hstaged => ?_
  subst hw
  cases e with
  | failure => cases hstaged
  | noRow =>
    cases hstaged
    exact .inl rfl
  | ok =>
    obtain ⟨seen, hseen, hmap⟩ := Tx.onView_eq_ok hstaged
    cases hview.symm.trans hseen
    cases hstage : tx.stage w'.db (u view) with
    | error x => simp [hstage, Except.map] at hmap
    | ok tx' =>
      simp only [hstage, Except.map, Except.ok.injEq] at hmap
      obtain ⟨-, view', hview', hu⟩ := Tx.view_of_stage hview hstage
      subst hmap
      exact .inr ⟨view', hview', hu, rfl⟩

end Returns

/-! ## Statements with a snapshot of their own -/

section Seen

variable {seen commit : ℓ} {u : τ → δ → δ → Except φ (δ × Nat)}

/-- With nobody in between, the snapshot and the commit are one moment. -/
theorem execSeen_run {ω : ℓ → Outcome} (hseen : ω seen ≠ .failure) (w : World δ τ) :
    (execSeen seen commit u).run ω w =
      (exec commit fun now db => u now db db : Program ℓ δ τ (StmtError φ) Nat).run ω w := by
  unfold execSeen
  rw [Prog.run_bind, run_read]
  cases hω : ω seen with
  | failure => exact absurd hω hseen
  | ok | noRow => simp only [Outcome.rows, exec, run_write]

/-- What the snapshot shows and others keep is there at the commit. -/
theorem holds_execSeen {I : World δ τ → Prop} {R G : ℓ → World δ τ → World δ τ → Prop}
    (F : World δ τ → World δ τ → Prop) {w : World δ τ} (hG : ∀ l w, G l w w)
    (hstart : ∀ w, I w → F w w) (hkeeps : ∀ w₀ w w', R commit w w' → F w₀ w → F w₀ w')
    (hwrite : ∀ w₀ w r, I w → F w₀ w → u w₀.now w₀.db w.db = .ok r →
      I { w with db := r.1 } ∧ G commit w { w with db := r.1 }) :
    (execSeen seen commit u).Holds I R G (Prog.Ends fun _ _ => True) w := by
  refine Prog.holds_seq (M := F) ?_ fun w₀ w hF => ?_
  · refine holds_read fun w' _ hI => ⟨hG seen w', fun e w₀ hw₀ => ?_⟩
    rw [Outcome.rows_eq_ok hw₀]
    exact hstart w' hI
  · refine holds_write fun w' hwait hI e => ?_
    have hF' : F w₀ w' := Prog.star_keeps (hkeeps w₀) hwait hF
    cases hchanged : e.changed w'.db (u w₀.now w₀.db w'.db) with
    | error x => exact ⟨hI, hG commit w', fun _ _ => trivial⟩
    | ok r =>
      rcases Outcome.changed_eq_ok hchanged with hsame | hu
      · -- the statement has found no row
        have hworld : w'.after (.ok r : Except (StmtError φ) (δ × Nat)) = w' := by
          show { w' with db := r.1 } = w'
          rw [hsame]
        rw [hworld]
        exact ⟨hI, hG commit w', fun _ _ => trivial⟩
      · obtain ⟨hI', hG'⟩ := hwrite w₀ w' r hI hF' hu
        exact ⟨hI', hG', fun _ _ => trivial⟩

end Seen

/-! ## Statements that find what is there -/

section Found

variable {I : World δ τ → Prop} {R G : ℓ → World δ τ → World δ τ → Prop} {F : World δ τ → Prop}
  {l : ℓ} {w : World δ τ}

/-- A statement of a transaction stages what it settles on the rows it sees. -/
theorem Tx.holds_exec (tx : Tx φ δ τ) (u : δ → δ → Except φ δ)
    (hkeeps : ∀ w w', R l w w' → F w → F w') (hG : ∀ w, G l w w) (hF : F w) :
    ((tx.exec l u).under Outcome.found).Holds I R G
      (Prog.Ends fun tx' w' => F w' ∧ I w' ∧ ∃ view, tx.view w'.db = .ok view ∧
        tx' = tx.push (u view)) w := by
  rw [Tx.exec, under_read]
  refine holds_read fun w' hwait hI => ⟨hG w', fun e tx' htx => ?_⟩
  refine ⟨Prog.star_keeps hkeeps hwait hF, hI, ?_⟩
  cases e with
  | failure => cases htx
  | ok | noRow =>
    obtain ⟨view, hview, hstage⟩ := Tx.onView_eq_ok htx
    exact ⟨view, hview, Tx.stage_eq_ok tx hstage⟩

theorem Tx.holds_execRows (tx : Tx φ δ τ) (u : δ → δ → Except φ δ) (rows : δ → Nat)
    (hkeeps : ∀ w w', R l w w' → F w → F w') (hG : ∀ w, G l w w) (hF : F w) :
    ((tx.execRows l u rows).under Outcome.found).Holds I R G
      (Prog.Ends fun staged w' => F w' ∧ I w' ∧ ∃ view, tx.view w'.db = .ok view ∧
        staged.1 = tx.push (u view)) w := by
  rw [Tx.execRows, under_read]
  refine holds_read fun w' hwait hI => ⟨hG w', fun e staged hstaged => ?_⟩
  refine ⟨Prog.star_keeps hkeeps hwait hF, hI, ?_⟩
  cases e with
  | failure => cases hstaged
  | ok | noRow =>
    obtain ⟨view, hview, hmap⟩ := Tx.onView_eq_ok hstaged
    cases hstage : tx.stage w'.db (u view) with
    | error x => simp [hstage, Except.map] at hmap
    | ok tx' =>
      simp only [hstage, Except.map, Except.ok.injEq] at hmap
      rw [← hmap]
      exact ⟨view, hview, Tx.stage_eq_ok tx hstage⟩

end Found

end ReadCommitted
