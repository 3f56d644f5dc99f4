import Mathlib.Algebra.GroupWithZero.Nat
import Mathlib.Data.List.Basic

/-!
# A response as it is written

A handler writes its response piece by piece: a status, bytes, and flushes in between. The status line goes
out once, with the first of them; what was not asked for is a 200. With it goes the length that the body is
announced to have, and bytes beyond that length are refused. Of the header fields only that length is kept.

* `Action`, `Output.perform` — what a handler may do, and what it makes of the response.
* `goesOut` — the status that the first actions send, and `status_performAll`.
* `Output.Whole` — the body is as long as it was announced to be.
* `Output.answer`, `answer_delivered_iff` — a response that is given at the end.
* `noted`, `Orderly` — what a wrapper takes for the status that sees statuses and bytes, but no flushes, and
  when it is right: `orderly_iff`.
-/

namespace ResponseWriting

/-- What may be given to `WriteHeader` -/
structure Status where
  code : Nat
  valid : 100 ≤ code ∧ code ≤ 999
  deriving DecidableEq

/-- A 1xx goes out beside the response; only 101 is a response itself. -/
def Status.informational (s : Status) : Bool := s.code < 200 && s.code ≠ 101

inductive Action (β : Type) where
  /-- `Header().Set("Content-Length", …)`, or `Del` -/
  | setLength (n : Option Nat)
  | writeHeader (s : Status)
  | write (b : β)
  | flush

structure Output (β : Type) where
  /-- the `Content-Length` that stands in the header -/
  length : Option Nat
  /-- the status line, once it has gone out -/
  status : Option Nat
  /-- the length that went out with it -/
  announced : Option Nat
  body : List β
  deriving DecidableEq

section Performing

variable {β : Type} (size : β → Nat)

namespace Output

def fresh : Output β := { length := none, status := none, announced := none, body := [] }

def bodySize (r : Output β) : Nat := (r.body.map size).sum

def sendHeader (r : Output β) (code : Nat) : Output β :=
  match r.status with
  | some _ => r
  | none => { r with status := some code, announced := r.length }

/-- There is room for the bytes. -/
def fits (r : Output β) (b : β) : Bool := r.announced.all fun n => r.bodySize size + size b ≤ n

def append (r : Output β) (b : β) : Output β := if r.fits size b then { r with body := r.body ++ [b] } else r

def perform (r : Output β) : Action β → Output β
  | .setLength n => { r with length := n }
  | .writeHeader s => if s.informational then r else r.sendHeader s.code
  | .write b => (r.sendHeader 200).append size b
  | .flush => r.sendHeader 200

def performAll (r : Output β) (actions : List (Action β)) : Output β := actions.foldl (perform size) r

/-- A body of another length than was announced is cut off. -/
def Whole (r : Output β) : Prop := ∀ n ∈ r.announced, r.bodySize size = n

end Output

/-! ## The status line -/

/-- The status that is sent by the first action that sends one -/
def goesOut : List (Action β) → Option Nat
  | [] => none
  | .setLength _ :: actions => goesOut actions
  | .writeHeader s :: actions => if s.informational then goesOut actions else some s.code
  | .write _ :: _ => some 200
  | .flush :: _ => some 200

theorem status_sendHeader (r : Output β) (code : Nat) : (r.sendHeader code).status = r.status.or (some code) := by
  unfold Output.sendHeader
  cases h : r.status <;> simp [h]

theorem status_append (r : Output β) (b : β) : (r.append size b).status = r.status := by
  unfold Output.append
  split_ifs <;> rfl

theorem status_performAll (actions : List (Action β)) (r : Output β) :
    (r.performAll size actions).status = r.status.or (goesOut actions) := by
  induction actions generalizing r with
  | nil => simp [Output.performAll, goesOut]
  | cons action actions ih =>
    show ((r.perform size action).performAll size actions).status = _
    rw [ih]
    cases action with
    | setLength n => rfl
    | writeHeader s =>
      by_cases hs : s.informational = true
      · have hsame : r.perform size (.writeHeader s) = r := if_pos hs
        have hout : goesOut (.writeHeader s :: actions) = goesOut actions := if_pos hs
        rw [hsame, hout]
      · have hsent : r.perform size (.writeHeader s) = r.sendHeader s.code := if_neg hs
        have hout : goesOut (.writeHeader s :: actions) = some s.code := if_neg hs
        rw [hsent, hout, status_sendHeader, Option.or_assoc]
        rfl
    | write b =>
      show (((r.sendHeader 200).append size b).status).or _ = r.status.or (some 200)
      rw [status_append, status_sendHeader, Option.or_assoc]
      rfl
    | flush =>
      show ((r.sendHeader 200).status).or _ = r.status.or (some 200)
      rw [status_sendHeader, Option.or_assoc]
      rfl

/-- The length that stands in the header at the end -/
def lengthAfter (n : Option Nat) : List (Action β) → Option Nat
  | [] => n
  | .setLength m :: actions => lengthAfter m actions
  | .writeHeader _ :: actions | .write _ :: actions | .flush :: actions => lengthAfter n actions

theorem length_sendHeader (r : Output β) (code : Nat) : (r.sendHeader code).length = r.length := by
  unfold Output.sendHeader
  cases r.status <;> rfl

theorem length_performAll (actions : List (Action β)) (r : Output β) :
    (r.performAll size actions).length = lengthAfter r.length actions := by
  induction actions generalizing r with
  | nil => rfl
  | cons action actions ih =>
    show ((r.perform size action).performAll size actions).length = _
    rw [ih]
    cases action with
    | setLength n => rfl
    | writeHeader s =>
      show lengthAfter (if s.informational then r else r.sendHeader s.code).length actions = _
      split_ifs
      · rfl
      · rw [length_sendHeader]
        rfl
    | write b =>
      have hsame : ((r.sendHeader 200).append size b).length = r.length := by
        unfold Output.append
        split_ifs <;> exact length_sendHeader r 200
      show lengthAfter ((r.sendHeader 200).append size b).length actions = _
      rw [hsame]
      rfl
    | flush =>
      show lengthAfter (r.sendHeader 200).length actions = _
      rw [length_sendHeader]
      rfl

/-- As long as no status line has gone out, nothing else has. -/
theorem body_of_unsent {actions : List (Action β)} (h : goesOut actions = none) :
    ∀ {r : Output β}, r.status = none → (r.performAll size actions).body = r.body := by
  induction actions with
  | nil => exact fun _ => rfl
  | cons action actions ih =>
    intro r hr
    cases action with
    | setLength n => exact ih h hr
    | writeHeader s =>
      unfold goesOut at h
      split_ifs at h with hinformational
      have hsame : r.perform size (.writeHeader s) = r := if_pos hinformational
      show ((r.perform size (.writeHeader s)).performAll size actions).body = r.body
      rw [hsame]
      exact ih h hr
    | write b => cases h
    | flush => cases h

/-! ## One body at the end -/

/-- A status that is no informational one, and a body -/
def Output.answer (r : Output β) (s : Status) (b : β) : Output β :=
  (r.perform size (.writeHeader s)).perform size (.write b)

theorem answer_unsent {r : Output β} (hr : r.status = none) {s : Status} (hs : s.informational = false) (b : β) :
    r.answer size s b =
      ({ r with status := some s.code, announced := r.length } : Output β).append size b := by
  have hsent : r.perform size (.writeHeader s) = { r with status := some s.code, announced := r.length } := by
    show (if s.informational then r else r.sendHeader s.code) = _
    rw [hs, Output.sendHeader, hr]
    rfl
  unfold Output.answer
  rw [hsent]
  rfl

theorem status_answer (r : Output β) {s : Status} (hs : s.informational = false) (b : β) :
    (r.answer size s b).status = r.status.or (some s.code) := by
  have hsent : r.perform size (.writeHeader s) = r.sendHeader s.code := if_neg (by simp [hs])
  unfold Output.answer
  show (((r.perform size (.writeHeader s)).sendHeader 200).append size b).status = _
  rw [hsent, status_append, status_sendHeader, status_sendHeader, Option.or_assoc]
  rfl

/-- **It is delivered as a whole exactly when no other length was announced.** -/
theorem answer_delivered_iff {r : Output β} (hr : r.status = none) (hbody : r.body = []) {s : Status}
    (hs : s.informational = false) (b : β) :
    (r.answer size s b).body = [b] ∧ (r.answer size s b).Whole size ↔
      r.length = none ∨ r.length = some (size b) := by
  rw [answer_unsent size hr hs]
  unfold Output.append Output.fits Output.Whole Output.bodySize
  cases r.length with
  | none => simp [hbody]
  | some n =>
    simp only [Option.all_some, hbody, List.map_nil, List.sum_nil, Nat.zero_add, decide_eq_true_eq]
    split_ifs with hfits
    · simp [eq_comm]
    · simp only [false_and, Option.some.injEq, false_or, false_iff]
      omega

/-! ## What a wrapper notes -/

/-- The first status that is written, or a 200 if bytes are written before -/
def noted : List (Action β) → Option Nat
  | [] => none
  | .setLength _ :: actions => noted actions
  | .writeHeader s :: _ => some s.code
  | .write _ :: _ => some 200
  | .flush :: actions => noted actions

/-- After a flush a 200 is noted. -/
def NotesOK : List (Action β) → Prop
  | [] => False
  | .setLength _ :: actions => NotesOK actions
  | .writeHeader s :: _ => s.code = 200
  | .write _ :: _ => True
  | .flush :: actions => NotesOK actions

/-- The first status is no informational one, and what is flushed before it is a 200. -/
def Orderly : List (Action β) → Prop
  | [] => True
  | .setLength _ :: actions => Orderly actions
  | .writeHeader s :: _ => s.informational = false
  | .write _ :: _ => True
  | .flush :: actions => NotesOK actions

theorem notesOK_iff (actions : List (Action β)) : NotesOK actions ↔ noted actions = some 200 := by
  fun_induction noted actions with
  | case1 => simp [NotesOK]
  | case2 n actions ih => exact ih
  | case3 s actions => simp [NotesOK]
  | case4 b actions => simp [NotesOK]
  | case5 actions ih => exact ih

theorem goesOut_ne (actions : List (Action β)) {s : Status} (hs : s.informational = true) :
    goesOut actions ≠ some s.code := by
  have hinformational : ∀ {t : Status}, t.informational = true → t.code ≠ 101 ∧ t.code < 200 := by
    intro t ht
    simp only [Status.informational, ne_eq, decide_not, Bool.and_eq_true, decide_eq_true_eq, Bool.not_eq_true',
      decide_eq_false_iff_not] at ht
    exact ht.symm
  obtain ⟨h101, h200⟩ := hinformational hs
  fun_induction goesOut actions with
  | case1 => simp
  | case2 n actions ih => exact ih
  | case3 t actions ht ih => exact ih
  | case4 t actions ht =>
    intro heq
    have hcode : t.code = s.code := Option.some.inj heq
    exact ht (by simp [Status.informational, hcode, h101, h200])
  | case5 b actions =>
    intro heq
    have hcode := Option.some.inj heq
    omega
  | case6 actions =>
    intro heq
    have hcode := Option.some.inj heq
    omega

/-- **The wrapper is right exactly on orderly responses**, when a status other than 200 is sent at the end. -/
theorem orderly_iff {last : Nat} (hlast : 200 < last) (actions : List (Action β)) :
    Orderly actions ↔ (noted actions).getD last = (goesOut actions).getD last := by
  have hplain : ∀ {s : Status}, s.informational = true → s.code ≠ last := by
    intro s hs heq
    simp only [Status.informational, ne_eq, decide_not, Bool.and_eq_true, decide_eq_true_eq] at hs
    omega
  fun_induction Orderly actions with
  | case1 => simp [noted, goesOut]
  | case2 n actions ih => exact ih
  | case3 s actions =>
    unfold noted goesOut
    split_ifs with hs
    · simp only [hs, Bool.true_eq_false, Option.getD_some, false_iff]
      cases hout : goesOut actions with
      | none => exact hplain hs
      | some code =>
        intro heq
        exact goesOut_ne actions hs (hout.trans (congrArg some heq.symm))
    · simp [hs]
  | case4 b actions => simp [noted, goesOut]
  | case5 actions =>
    rw [notesOK_iff]
    show noted actions = some 200 ↔ (noted actions).getD last = 200
    cases noted actions with
    | none =>
      simp only [reduceCtorEq, Option.getD_none, false_iff]
      omega
    | some code => simp

end Performing

end ResponseWriting
