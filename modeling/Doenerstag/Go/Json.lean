import Doenerstag.Go.Strings
import Mathlib.Logic.Function.Basic

/-!
# Reading JSON (`encoding/json`)

A value that has been scanned is stored in a Go value, with `DisallowUnknownFields`. An object that goes into a
struct has its members stored one after the other, each in the field that its key is found for; one that goes
into a map keeps its keys as they are.

* `Struct.decode` — a value into a struct.
* `Struct.Fills` — some member of an object went into the field.
* `Struct.lookup_name`, `Struct.lookup_fold` — the field of a key is the one of that name, up to case.
* `mapOf` — a value into a `map[string]any`.
-/

namespace Doenerstag

/-- A value. The members of an object stand in their order with those that occur again, their keys unquoted; a
number is its literal. -/
inductive Json where
  | null
  | bool (b : Bool)
  | number (literal : List Char)
  | string (s : String)
  | array (elements : List Json)
  | object (members : List (String × Json))

namespace Json

/-! ## Values -/

/-- What a value is stored in: the value that there is already may stay. An error is the type that the value is
not of. -/
abbrev Into (α : Type) := Json → α → Except String α

def intoString : Into String
  | .null, old => .ok old
  | .string s, _ => .ok s
  | _, _ => .error "string"

/-- `int` and `int64` -/
def intoInt (type : String) : Into Int64
  | .null, old => .ok old
  | .number literal, _ =>
    match parseInt64 literal with
    | some n => .ok (Int64.ofInt n)
    | none => .error type
  | _, _ => .error type

def intoBool : Into Bool
  | .null, old => .ok old
  | .bool b, _ => .ok b
  | _, _ => .error "bool"

/-- A pointer keeps what it points to, and `null` clears it. -/
def intoPointer {α : Type} (zero : α) (into : Into α) : Into (Option α)
  | .null, _ => .ok none
  | v, old => (into v (old.getD zero)).map some

/-- A slice, with what the array behind it holds after its end -/
structure Slice (α : Type) where
  elements : List α
  spare : List α
  deriving DecidableEq, Repr

/-- The elements are stored over those that stand in the array. -/
def intoElements {α : Type} (zero : α) (into : Into α) : List Json → List α → Except String (List α)
  | [], _ => .ok []
  | v :: rest, old => do
    let a ← into v (old.headD zero)
    let as ← intoElements zero into rest old.tail
    pure (a :: as)

def intoSlice {α : Type} (type : String) (zero : α) (into : Into α) : Into (Slice α)
  | .null, _ => .ok ⟨[], []⟩
  | .array [], _ => .ok ⟨[], []⟩
  | .array vs, old =>
    (intoElements zero into vs (old.elements ++ old.spare)).map fun as =>
      ⟨as, (old.elements ++ old.spare).drop vs.length⟩
  | _, _ => .error type

/-! ## Structs -/

/-- `foldName`. Outside ASCII, `foldRune` is the least of the characters that differ in nothing but case. -/
def foldName (foldRune : Char → Char) (key : String) : String :=
  String.ofList (key.toList.map fun c => if c.toNat < 128 then c.toUpper else foldRune c)

structure StructField (σ : Type) where
  name : String
  store : Into σ

/-- A field of a struct, by the value in it -/
def StructField.of {σ α : Type} (name : String) (into : Into α) (get : σ → α) (set : α → σ → σ) : StructField σ where
  name := name
  store := fun v s => (into v (get s)).map fun a => set a s

/-- A struct with the fields that have a JSON name. No two names are the same up to case. -/
structure Struct (σ : Type) where
  type : String
  zero : σ
  fields : List (StructField σ)
  ascii : (fields.all fun f => f.name.toList.all fun c => decide (c.toNat < 128)) = true
  distinct : (fields.map fun f => foldName id f.name).Nodup

inductive DecodeError where
  /-- `UnmarshalTypeError` -/
  | mismatch (field type : String)
  | unknownField (key : String)
  deriving DecidableEq, Repr

namespace Struct

variable {σ : Type} (foldRune : Char → Char) (S : Struct σ)

/-- The field of a key: the one of that name, or else the first that is the same up to case -/
def lookup (key : String) : Option (StructField σ) :=
  (S.fields.find? fun f => f.name == key).or
    (S.fields.find? fun f => foldName foldRune f.name == foldName foldRune key)

def storeMember (s : σ) (member : String × Json) : Except DecodeError σ :=
  match S.lookup foldRune member.1 with
  | none => .error (.unknownField member.1)
  | some f => (f.store member.2 s).mapError (.mismatch f.name)

/-- `Decoder.Decode` into the struct: the first error counts. -/
def decode : Json → Except DecodeError σ
  | .null => .ok S.zero
  | .object members => members.foldlM (S.storeMember foldRune) S.zero
  | _ => .error (.mismatch "" S.type)

/-- Some member was stored in the field. -/
def Fills (members : List (String × Json)) (f : StructField σ) : Prop :=
  ∃ m ∈ members, S.lookup foldRune m.1 = some f

variable {foldRune S} {key : String} {f g : StructField σ} {members : List (String × Json)} {s s' : σ}

/-! ## The field of a key -/

theorem lookup_mem (h : S.lookup foldRune key = some f) : f ∈ S.fields := by
  unfold lookup at h
  rcases Option.or_eq_some_iff.mp h with hexact | ⟨-, hfolded⟩
  · exact List.mem_of_find?_eq_some hexact
  · exact List.mem_of_find?_eq_some hfolded

theorem lookup_fold (h : S.lookup foldRune key = some f) : foldName foldRune f.name = foldName foldRune key := by
  unfold lookup at h
  rcases Option.or_eq_some_iff.mp h with hexact | ⟨-, hfolded⟩
  · have hname := List.find?_some hexact
    rw [beq_iff_eq.mp hname]
  · have hname := List.find?_some hfolded
    exact beq_iff_eq.mp hname

/-- The names are told apart whatever the case. -/
theorem name_inj (foldRune : Char → Char) (hf : f ∈ S.fields) (hg : g ∈ S.fields)
    (h : foldName foldRune f.name = foldName foldRune g.name) : f = g := by
  have hplain : ∀ f ∈ S.fields, foldName foldRune f.name = foldName id f.name := by
    intro f hf
    have hall := List.all_eq_true.mp S.ascii f hf
    unfold foldName
    congr 1
    refine List.map_congr_left fun c hc => ?_
    have hc := of_decide_eq_true (List.all_eq_true.mp hall c hc)
    rw [if_pos hc, if_pos hc]
  rw [hplain f hf, hplain g hg] at h
  exact List.inj_on_of_nodup_map S.distinct hf hg h

/-- A field is the field of its name. -/
theorem lookup_name (hf : f ∈ S.fields) : S.lookup foldRune f.name = some f := by
  unfold lookup
  cases hfound : S.fields.find? fun g => g.name == f.name with
  | none => exact absurd (beq_self_eq_true f.name) (List.find?_eq_none.mp hfound f hf)
  | some g =>
    have hname := List.find?_some hfound
    rw [Option.some_or, name_inj foldRune (List.mem_of_find?_eq_some hfound) hf
      (by rw [beq_iff_eq.mp hname])]

/-- Every member of an object that was decoded has a field. -/
theorem exists_lookup (h : S.decode foldRune (.object members) = .ok s) {m : String × Json} (hm : m ∈ members) :
    ∃ f, S.lookup foldRune m.1 = some f := by
  replace h : members.foldlM (S.storeMember foldRune) S.zero = .ok s := h
  generalize S.zero = s₀ at h
  induction members generalizing s₀ with
  | nil => cases hm
  | cons first rest ih =>
    rw [List.foldlM_cons] at h
    cases hfirst : S.storeMember foldRune s₀ first with
    | error e =>
      rw [hfirst] at h
      cases h
    | ok s₁ =>
      rw [hfirst] at h
      rcases List.mem_cons.mp hm with rfl | hm
      · unfold storeMember at hfirst
        cases hlookup : S.lookup foldRune m.1 with
        | none =>
          rw [hlookup] at hfirst
          cases hfirst
        | some f => exact ⟨f, rfl⟩
      · exact ih hm s₁ h

end Struct

/-! ## Maps -/

/-- `json.Unmarshal` into a `map[string]any`: the last member with a key counts. -/
def mapOf : Json → Option (String → Option Json)
  | .null => some fun _ => none
  | .object members => some
    (members.foldl (fun (m : String → Option Json) member => Function.update m member.1 (some member.2))
      fun _ => none)
  | _ => none

theorem foldl_update_isSome {members : List (String × Json)} {m : String → Option Json} {key : String} :
    (members.foldl (fun (m : String → Option Json) member => Function.update m member.1 (some member.2)) m
      key).isSome ↔
      (m key).isSome ∨ ∃ member ∈ members, member.1 = key := by
  induction members generalizing m with
  | nil => simp
  | cons first rest ih =>
    rw [List.foldl_cons, ih]
    by_cases hkey : first.1 = key
    · simp [hkey]
    · rw [Function.update_of_ne (Ne.symm hkey)]
      simp [hkey]

/-- A key of a map is one of the object's. -/
theorem mapOf_isSome {members : List (String × Json)} {m : String → Option Json}
    (h : mapOf (.object members) = some m) (key : String) :
    (m key).isSome ↔ ∃ member ∈ members, member.1 = key := by
  cases h
  rw [foldl_update_isSome]
  simp

end Json

end Doenerstag
