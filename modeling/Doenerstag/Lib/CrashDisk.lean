import Doenerstag.Lib.Interleaving
import Mathlib.Data.List.Basic
import Mathlib.Logic.Function.Basic

/-!
# A disk that may crash

Files are told apart by number, and names refer to them. What has been written to a file is safe from a
crash once it has been flushed and as long as nothing is written to it; until then a crash may leave
anything in it. A change of a name is never torn, but it may be lost in a crash, for directories are not
flushed here.

* `Disk`, `Disk.Crash` — the disk, and what a crash may leave of it.
* `Disk.Keeps` — whatever a name refers to, now and after a crash, is a file of which a property holds;
  the lemmas beside it say which operations leave that alone.
* `Disk.Keeps.crash` — **a crash leaves it alone.**
* `Reaches` — a program that runs alone has come so far; `Reaches.of_along` — what it keeps, it keeps
  wherever it is cut short. `deferred` — with another one at its end.
-/

namespace CrashDisk

variable {ν κ ο : Type}

abbrev Inode := Nat

/-- A file: its content, who may use it, the content a crash leaves, if that is settled, and the modes
a crash may bring back. -/
structure File (κ ο : Type) where
  content : List κ
  mode : Nat
  owner : ο
  saved : Option (List κ)
  older : List Nat

/-- A crash leaves what is read of the file. -/
def File.Settled (f : File κ ο) : Prop := f.saved = some f.content ∧ ∀ mode ∈ f.older, mode = f.mode

/-- What is read of a file. -/
def File.read (f : File κ ο) : List κ × Nat := (f.content, f.mode)

def File.append (f : File κ ο) (more : List κ) : File κ ο :=
  { f with content := f.content ++ more, saved := none }

def File.sync (f : File κ ο) : File κ ο := { f with saved := some f.content, older := [] }

def File.chmod (f : File κ ο) (mode : Nat) : File κ ο := { f with mode, older := f.mode :: f.older }

def File.chown (f : File κ ο) (owner : ο) : File κ ο := { f with owner }

/-- A file that has just been made. -/
def File.made (mode : Nat) (owner : ο) : File κ ο :=
  { content := [], mode, owner, saved := none, older := [] }

structure Disk (ν κ ο : Type) where
  entry : ν → Option Inode
  /-- what a name has referred to since the last crash, and may refer to after the next one -/
  earlier : ν → List (Option Inode)
  files : Inode → File κ ο
  next : Inode

namespace Disk

variable [DecidableEq ν] (d : Disk ν κ ο)

def file (name : ν) : Option (File κ ο) := (d.entry name).map d.files

/-- A name comes to refer to something else. -/
def relink (name : ν) (e : Option Inode) : Disk ν κ ο :=
  { d with
    entry := Function.update d.entry name e
    earlier := Function.update d.earlier name (d.entry name :: d.earlier name) }

def setFile (i : Inode) (f : File κ ο) : Disk ν κ ο := { d with files := Function.update d.files i f }

/-- A new file under a name. -/
def create (name : ν) (mode : Nat) (owner : ο) : Disk ν κ ο :=
  { (d.setFile d.next (.made mode owner)).relink name (some d.next) with next := d.next + 1 }

def append (i : Inode) (more : List κ) : Disk ν κ ο := d.setFile i ((d.files i).append more)

def sync (i : Inode) : Disk ν κ ο := d.setFile i (d.files i).sync

def chmod (i : Inode) (mode : Nat) : Disk ν κ ο := d.setFile i ((d.files i).chmod mode)

def chown (i : Inode) (owner : ο) : Disk ν κ ο := d.setFile i ((d.files i).chown owner)

def rename (source target : ν) : Disk ν κ ο :=
  match d.entry source with
  | none => d
  | some i => if source = target then d else (d.relink target (some i)).relink source none

def remove (name : ν) : Disk ν κ ο :=
  match d.entry name with
  | none => d
  | some _ => d.relink name none

/-- What a name may refer to, now or after a crash. -/
def Refers (name : ν) (e : Option Inode) : Prop := e = d.entry name ∨ e ∈ d.earlier name

/-- Whatever a name may refer to is a file that is safe from a crash, and of which `P` holds; or it is
no file, and `P` allows that. -/
def Keeps (P : Option (List κ × Nat) → Prop) (name : ν) (d : Disk ν κ ο) : Prop :=
  ∀ e, d.Refers name e → P (e.map fun i => (d.files i).read) ∧
    ∀ i, e = some i → i < d.next ∧ (d.files i).Settled

end Disk

/-- What a crash may leave of a file. -/
structure File.Leaves (f f' : File κ ο) : Prop where
  content : ∀ content, f.saved = some content → f'.content = content
  mode : f'.mode = f.mode ∨ f'.mode ∈ f.older
  saved : f'.saved = some f'.content
  older : f'.older = []

namespace Disk

/-- What a crash may leave of a disk. -/
structure Crash (d d' : Disk ν κ ο) : Prop where
  entry : ∀ name, d.Refers name (d'.entry name)
  earlier : ∀ name, d'.earlier name = []
  files : ∀ i < d.next, (d.files i).Leaves (d'.files i)
  next : d'.next = d.next

section Lemmas

variable {d d' : Disk ν κ ο} {P : Option (List κ × Nat) → Prop} {name other : ν} {i : Inode}
  {e : Option Inode} {f : File κ ο}

theorem Keeps.mono {P' : Option (List κ × Nat) → Prop} (h : d.Keeps P name) (himp : ∀ r, P r → P' r) :
    d.Keeps P' name :=
  fun e he => ⟨himp _ (h e he).1, (h e he).2⟩

@[simp] theorem setFile_entry : (d.setFile i f).entry = d.entry := rfl

@[simp] theorem setFile_files : (d.setFile i f).files i = f := Function.update_self ..

/-- A file that the name does not refer to. -/
theorem Keeps.setFile (h : d.Keeps P name) (hother : ¬ d.Refers name (some i)) :
    (d.setFile i f).Keeps P name := by
  intro e he
  obtain ⟨hP, hsaved⟩ := h e he
  have hsame : ∀ j, e = some j → (d.setFile i f).files j = d.files j := by
    rintro j rfl
    refine Function.update_of_ne ?_ _ _
    rintro rfl
    exact hother he
  cases e with
  | none => exact ⟨hP, nofun⟩
  | some j =>
    have hj := hsame j rfl
    refine ⟨?_, ?_⟩
    · rw [Option.map_some, hj]
      exact hP
    · rintro _ ⟨⟩
      rw [hj]
      exact hsaved j rfl

/-- The next file has no name yet. -/
theorem Keeps.not_refers_next (h : d.Keeps P name) : ¬ d.Refers name (some d.next) :=
  fun he => Nat.lt_irrefl _ ((h _ he).2 _ rfl).1

/-- Setting the mode a file has. -/
theorem Keeps.chmod (h : d.Keeps P name) {mode : Nat} (hmode : (d.files i).mode = mode) :
    (d.chmod i mode).Keeps P name := by
  intro e he
  obtain ⟨hP, hsettled⟩ := h e he
  cases e with
  | none => exact ⟨hP, nofun⟩
  | some j =>
    obtain ⟨hlt, hsaved, holder⟩ := hsettled j rfl
    by_cases hj : j = i
    · subst hj
      have hfile : (d.chmod j mode).files j = (d.files j).chmod mode := Function.update_self ..
      refine ⟨?_, ?_⟩
      · rw [Option.map_some, hfile, ← hmode]
        exact hP
      · rintro _ ⟨⟩
        rw [hfile]
        refine ⟨hlt, hsaved, fun m hm => ?_⟩
        rcases List.mem_cons.mp hm with rfl | hm
        · exact hmode
        · exact (holder m hm).trans hmode
    · have hfile : (d.chmod i mode).files j = d.files j := Function.update_of_ne hj _ _
      refine ⟨?_, ?_⟩
      · rw [Option.map_some, hfile]
        exact hP
      · rintro _ ⟨⟩
        rw [hfile]
        exact ⟨hlt, hsaved, holder⟩

/-- **A crash.** What the name refers to afterwards is one of the files it may have referred to, as it
was. -/
theorem Keeps.crash (h : d.Keeps P name) (hcrash : Crash d d') : d'.Keeps P name := by
  intro e he
  have hentry : e = d'.entry name := by
    rcases he with he | he
    · exact he
    · rw [hcrash.earlier] at he
      cases he
  obtain ⟨hP, hsaved⟩ := h e (hentry ▸ hcrash.entry name)
  cases e with
  | none => exact ⟨hP, nofun⟩
  | some i =>
    obtain ⟨hlt, hsave, holder⟩ := hsaved i rfl
    have hleft := hcrash.files i hlt
    have hread : (d'.files i).read = (d.files i).read := by
      unfold File.read
      rw [hleft.content _ hsave, hleft.mode.elim id (holder _)]
    refine ⟨?_, ?_⟩
    · rw [Option.map_some, hread]
      exact hP
    · rintro _ ⟨⟩
      refine ⟨hcrash.next ▸ hlt, hleft.saved, fun m hm => ?_⟩
      rw [hleft.older] at hm
      cases hm

theorem Keeps.file (h : d.Keeps P name) : P ((d.file name).map File.read) := by
  have hP := (h _ (.inl rfl)).1
  unfold Disk.file
  rwa [Option.map_map]

variable [DecidableEq ν]

@[simp] theorem relink_files : (d.relink name e).files = d.files := rfl

@[simp] theorem relink_next : (d.relink name e).next = d.next := rfl

@[simp] theorem relink_entry : (d.relink name e).entry name = e := Function.update_self ..

theorem relink_entry_of_ne (hne : name ≠ other) : (d.relink other e).entry name = d.entry name :=
  Function.update_of_ne hne _ _

theorem refers_relink {e' : Option Inode} :
    (d.relink name e).Refers name e' ↔ e' = e ∨ d.Refers name e' := by
  unfold Refers relink
  simp only [Function.update_self, List.mem_cons]

theorem refers_relink_of_ne (hne : name ≠ other) {e' : Option Inode} :
    (d.relink other e).Refers name e' ↔ d.Refers name e' := by
  unfold Refers relink
  simp only [Function.update_of_ne hne]

theorem Keeps.relink_of_ne (h : d.Keeps P name) (hne : name ≠ other) :
    (d.relink other e).Keeps P name :=
  fun e' he' => h e' ((refers_relink_of_ne hne).mp he')

theorem Keeps.create (h : d.Keeps P name) (hne : name ≠ other) (mode : Nat) (owner : ο) :
    (d.create other mode owner).Keeps P name := by
  have hkeeps := (h.setFile (f := .made mode owner) h.not_refers_next).relink_of_ne (e := some d.next) hne
  intro e he
  obtain ⟨hP, hsaved⟩ := hkeeps e he
  refine ⟨hP, fun i hi => ?_⟩
  obtain ⟨hlt, hi'⟩ := hsaved i hi
  exact ⟨Nat.lt_succ_of_lt hlt, hi'⟩

/-- A file that is safe from a crash comes to the name, and `P` holds of it. -/
theorem Keeps.relink (h : d.Keeps P name) (hlt : i < d.next) (hsettled : (d.files i).Settled)
    (hP : P (some (d.files i).read)) : (d.relink name (some i)).Keeps P name := by
  intro e he
  rcases refers_relink.mp he with rfl | he
  · refine ⟨hP, ?_⟩
    rintro _ ⟨⟩
    exact ⟨hlt, hsettled⟩
  · exact h e he

end Lemmas

end Disk

/-! ## Programs that are cut short -/

section Alone

open Prog

variable {ℓ ε σ χ α β : Type}

/-- A program that runs alone gets the state so far, or to its end. -/
def Reaches (p : Prog ℓ ε σ χ α) (s s' : σ) : Prop :=
  ∃ c : Config Unit ℓ ε σ χ α,
    Run (fun _ _ => False) (fun _ _ _ => True) { state := s, procs := fun _ => p } c ∧ c.state = s'

theorem Reaches.advance (p : Prog ℓ ε σ χ α) (s : σ) (es : List ε) :
    Reaches p s (Config.advance { state := s, procs := fun _ : Unit => p } () es).state :=
  ⟨_, run_alone _ () es, rfl⟩

/-- A program with another one that is run at its end, whatever that is. -/
def deferred (body : Prog ℓ ε σ χ α) (last : Prog ℓ ε σ χ Unit) : Prog ℓ ε σ χ α :=
  (body.handle fun x => last >>= fun _ => fail x) >>= fun a => last >>= fun _ => done a

/-- Run to its end, the last program leaves the result as it is, if it does not fail. -/
theorem run_deferred {ω : ℓ → ε} {body : Prog ℓ ε σ χ α} {last : Prog ℓ ε σ χ Unit}
    (hlast : ∀ s, (last.run ω s).1 = .ok ()) (s : σ) :
    (deferred body last).run ω s = ((body.run ω s).1, (last.run ω (body.run ω s).2).2) := by
  have hthen : ∀ (k : Unit → Prog ℓ ε σ χ α) s, (last >>= k).run ω s = (k ()).run ω (last.run ω s).2 := by
    intro k s
    have hok := hlast s
    rw [run_bind]
    generalize last.run ω s = r at hok ⊢
    rcases r with ⟨_ | _, s'⟩
    · cases hok
    · rfl
  unfold deferred
  rw [run_bind, run_handle]
  rcases body.run ω s with ⟨x | a, s'⟩
  · simp only [hthen, run_fail]
  · simp only [hthen, run_done]

/-- Nobody else takes a step. -/
def NoOthers (_ : ℓ) (_ _ : σ) : Prop := False

/-- The program keeps the invariant at each of its steps, from `s` on, and ends as `Q` says. -/
def Along (I : σ → Prop) (Q : Except χ α → σ → Prop) (p : Prog ℓ ε σ χ α) (s : σ) : Prop :=
  p.Holds I NoOthers (fun _ _ _ => True) Q s

variable {I : σ → Prop} {Q : Except χ α → σ → Prop} {s s' : σ}

theorem along_step {l : ℓ} {effect : ε → σ → σ} {next : ε → σ → Prog ℓ ε σ χ α}
    (h : ∀ e, I (effect e s) ∧ Along I Q (next e s) (effect e s)) :
    Along I Q (.step l effect next) s := by
  refine holds_step.mpr fun s' hwait _ e => ?_
  have hsame : s' = s := by
    induction hwait with
    | refl => rfl
    | tail _ hR _ => exact hR.elim
  subst hsame
  exact ⟨(h e).1, trivial, (h e).2⟩

theorem along_done {a : α} (h : Q (.ok a) s) : Along I Q (done a : Prog ℓ ε σ χ α) s := holds_done.mpr h

theorem along_fail {x : χ} (h : Q (.error x) s) : Along I Q (fail x : Prog ℓ ε σ χ α) s := holds_fail.mpr h

/-- The last program starts where the first one has ended. -/
theorem along_deferred {M : σ → Prop} {body : Prog ℓ ε σ χ α} {last : Prog ℓ ε σ χ Unit}
    (hbody : Along I (fun _ => M) body s) (hlast : ∀ s, M s → Along I (fun _ _ => True) last s) :
    Along I (fun _ _ => True) (deferred body last) s := by
  refine holds_bind (fun _ => M) (holds_handle (fun _ => M) (hbody.mono ?_) fun x s hM => ?_) fun a s hM => ?_
  · rintro (x | a) s h
    · exact h
    · exact h
  · refine holds_bind (fun _ _ => True) ((hlast s hM).mono ?_) fun _ s _ => holds_fail.mpr trivial
    rintro (x | _) s _ <;> trivial
  · refine holds_bind (fun _ _ => True) ((hlast s hM).mono ?_) fun _ s _ => holds_done.mpr trivial
    rintro (x | _) s _ <;> trivial

/-- **Wherever it is cut short**, the invariant holds. -/
theorem Reaches.of_along {p : Prog ℓ ε σ χ α} (h : Reaches p s s') (hI : I s)
    (hp : Along I (fun _ _ => True) p s) : I s' := by
  obtain ⟨c, hrun, rfl⟩ := h
  have hsafe : Config.Safe I NoOthers (fun _ _ _ => True)
      ({ state := s, procs := fun _ : Unit => p } : Config Unit ℓ ε σ χ α) := ⟨hI, fun _ => hp⟩
  have halone : ∀ {c c' : Config Unit ℓ ε σ χ α},
      Run (fun _ _ => False) (fun _ _ _ => True) c c' → Run (fun _ _ => False) NoOthers c c' := by
    intro c c' hrun
    induction hrun with
    | refl => exact .refl _
    | tail _ move _ ih =>
      refine ih.tail move ?_
      cases move with
      | exec => exact undisturbed_alone
      | env change => exact change.elim
  exact (hsafe.run (fun _ _ hfalse => hfalse.elim) (halone hrun)).inv

end Alone

end CrashDisk
