import Doenerstag.Go
import Mathlib.Data.List.Infix
import Mathlib.Logic.Function.Basic

/-!
# Redaction (`internal/logging/redact.go`)

What is logged of a struct or a map is a map of its own, in which sensitive values are replaced. The names of the
fields and the keys are looked at on the first level only, and a field with a tag under the name in the tag only.

* `redactStruct`, `redactMap` — the maps that are logged.
* `Agree` — two values that differ only in what is sensitive or suppressed, at whatever depth.
* `Clean` — nothing in a value is. `clean_iff` — **two values that agree are the same if and only if they are clean.**
* `Shielded` — all that is shown of a value is clean.
* `redact_agree_iff` — **what is logged of all values that agree is the same if and only if they are shielded.**
-/

namespace Doenerstag.Logging

/-! ## Values -/

/-- A field of a struct type; `tag` is the one with the key `log`. -/
structure StructField where
  name : String
  exported : Bool
  tag : Option String
  deriving DecidableEq, Repr

/-- The kinds of values with parts -/
inductive Kind where
  | slice
  | map
  | struct
  deriving DecidableEq, Repr

/-- What a part of a value stands under -/
abbrev Label : Kind → Type
  | .slice => Unit
  | .map => String
  | .struct => StructField

mutual

/-- A Go value. The values of the other types without parts are as these. -/
inductive Value : Type where
  | text (s : String)
  | number (n : Int)
  | truth (b : Bool)
  | nilPointer
  | pointer (target : Value)
  | parts {k : Kind} (ps : Parts k)

/-- The elements of a slice, the entries of a map or the fields of a struct -/
inductive Parts : Kind → Type where
  | nil {k : Kind} : Parts k
  | cons {k : Kind} (label : Label k) (v : Value) (rest : Parts k) : Parts k

end

/-! ## Names -/

/-- `Redacted` -/
def redacted : Value := .text "***"

def sensitiveSubstrings : List String :=
  ["password", "passwd", "secret", "token", "authorization", "cookie", "csrf", "credential", "private_key",
    "privatekey", "apikey", "api_key"]

def isSensitive (rt : Runtime) (name : String) : Bool :=
  sensitiveSubstrings.any fun needle => decide (needle.toList <:+: (rt.toLower name).toList)

/-- What is before the first comma of a tag -/
def tagName (tag : String) : String := String.ofList (tag.toList.takeWhile (· != ','))

namespace StructField

variable (rt : Runtime) (f : StructField)

/-- The field is tagged `log:"-"`. -/
def suppressed : Bool := f.tag.any fun tag => tagName tag == "-"

/-- The name in the tag, or else the name of the field -/
def logName : String :=
  match f.tag with
  | none => f.name
  | some tag => if tagName tag = "" then f.name else tagName tag

end StructField

/-! ## What is logged -/

/-- A Go map from names to values -/
abbrev Logged : Type := String → Option Value

/-- The empty map -/
def Logged.empty : Logged := fun _ => none

def redactValue (rt : Runtime) (name : String) (value : Value) : Value :=
  if isSensitive rt name then redacted else value

/-- The loop over entries or fields: `nameOf` says under which name one is put into the map, if it is. -/
def redactParts (rt : Runtime) {k : Kind} (nameOf : Label k → Option String) : Parts k → Logged → Logged
  | .nil, out => out
  | .cons label v rest, out =>
    redactParts rt nameOf rest
      (match nameOf label with
        | none => out
        | some name => Function.update out name (some (redactValue rt name v)))

/-- `RedactMap`; the keys of a map are each there once, so that their order does not matter. -/
def redactMap (rt : Runtime) (fields : Option (Parts .map)) : Option Logged :=
  fields.map fun ps => redactParts rt (k := .map) some ps Logged.empty

/-- The name under which a field is put into the map: a field that is not exported or suppressed is not. -/
def fieldName (f : StructField) : Option String :=
  if !f.exported then none else if f.suppressed then none else some f.logName

/-- `RedactStruct` -/
def redactStruct (rt : Runtime) : Value → Option Logged
  | .nilPointer => none
  | .pointer v => redactStruct rt v
  | .parts (k := .struct) ps => some (redactParts rt (k := .struct) fieldName ps Logged.empty)
  | v => some (Function.update Logged.empty "value" (some v))

/-! ## Values that agree -/

/-- The part is sensitive, under any of its names, or suppressed. -/
def hidden (rt : Runtime) : {k : Kind} → Label k → Bool
  | .slice, _ => false
  | .map, key => isSensitive rt key
  | .struct, f => isSensitive rt f.name || (f.tag.any fun tag => isSensitive rt (tagName tag)) || f.suppressed

mutual

/-- The values are of one type, as far as it decides what else the first could be. -/
inductive SameType : Value → Value → Prop where
  | text (s s' : String) : SameType (.text s) (.text s')
  | number (n n' : Int) : SameType (.number n) (.number n')
  | truth (b b' : Bool) : SameType (.truth b) (.truth b')
  | nilPointers : SameType .nilPointer .nilPointer
  | toNil (v : Value) : SameType (.pointer v) .nilPointer
  | fromNil (v : Value) : SameType .nilPointer (.pointer v)
  | pointers (v v' : Value) : SameType (.pointer v) (.pointer v')
  | slices (ps ps' : Parts .slice) : SameType (.parts ps) (.parts ps')
  | maps (ps ps' : Parts .map) : SameType (.parts ps) (.parts ps')
  | structs {ps ps' : Parts .struct} (fields : SameTypes ps ps') : SameType (.parts ps) (.parts ps')

/-- The structs have the same fields, with values of the same types. -/
inductive SameTypes : Parts .struct → Parts .struct → Prop where
  | nil : SameTypes .nil .nil
  | cons (f : StructField) {v v' : Value} {rest rest' : Parts .struct} (value : SameType v v')
      (more : SameTypes rest rest') : SameTypes (.cons f v rest) (.cons f v' rest')

end

mutual

/-- The values have the same shape, and differ only in what is hidden. -/
inductive Agree (rt : Runtime) : Value → Value → Prop where
  | text (s : String) : Agree rt (.text s) (.text s)
  | number (n : Int) : Agree rt (.number n) (.number n)
  | truth (b : Bool) : Agree rt (.truth b) (.truth b)
  | nilPointer : Agree rt .nilPointer .nilPointer
  | pointer {v v' : Value} (target : Agree rt v v') : Agree rt (.pointer v) (.pointer v')
  | parts {k : Kind} {ps ps' : Parts k} (agree : AgreeParts rt ps ps') : Agree rt (.parts ps) (.parts ps')

inductive AgreeParts (rt : Runtime) : {k : Kind} → Parts k → Parts k → Prop where
  | nil {k : Kind} : AgreeParts rt (.nil : Parts k) .nil
  | concealed {k : Kind} {label : Label k} (isHidden : hidden rt label = true) {v v' : Value} {rest rest' : Parts k}
      (value : SameType v v') (more : AgreeParts rt rest rest') :
      AgreeParts rt (.cons label v rest) (.cons label v' rest')
  | disclosed {k : Kind} {label : Label k} (isShown : hidden rt label = false) {v v' : Value} {rest rest' : Parts k}
      (value : Agree rt v v') (more : AgreeParts rt rest rest') :
      AgreeParts rt (.cons label v rest) (.cons label v' rest')

end

/-! ## Values with nothing that is hidden -/

mutual

/-- The type of the value has another one. -/
def Value.Varies : Value → Prop
  | .text _ => True
  | .number _ => True
  | .truth _ => True
  | .nilPointer => True
  | .pointer _ => True
  | .parts ps => ps.Varies

/-- There are slices of every length, and maps with any keys. -/
def Parts.Varies : {k : Kind} → Parts k → Prop
  | .slice, _ => True
  | .map, _ => True
  | .struct, .nil => False
  | .struct, .cons _ v rest => v.Varies ∨ rest.Varies

end

mutual

/-- Nothing in the value is hidden, unless its type has no other value. -/
def Value.Clean (rt : Runtime) : Value → Prop
  | .text _ => True
  | .number _ => True
  | .truth _ => True
  | .nilPointer => True
  | .pointer v => v.Clean rt
  | .parts ps => ps.Clean rt

def Parts.Clean (rt : Runtime) : {k : Kind} → Parts k → Prop
  | _, .nil => True
  | _, .cons label v rest => (if hidden rt label then ¬ v.Varies else v.Clean rt) ∧ rest.Clean rt

end

mutual

theorem SameType.refl : ∀ v : Value, SameType v v
  | .text s => .text s s
  | .number n => .number n n
  | .truth b => .truth b b
  | .nilPointer => .nilPointers
  | .pointer v => .pointers v v
  | .parts (k := .slice) ps => .slices ps ps
  | .parts (k := .map) ps => .maps ps ps
  | .parts (k := .struct) ps => .structs (SameTypes.refl ps)

theorem SameTypes.refl : ∀ ps : Parts .struct, SameTypes ps ps
  | .nil => .nil
  | .cons f v rest => .cons f (SameType.refl v) (SameTypes.refl rest)

end

theorem varies_slice (ps : Parts .slice) : ps.Varies := by
  cases ps <;> trivial

theorem varies_map (ps : Parts .map) : ps.Varies := by
  cases ps <;> trivial

mutual

/-- A value whose type has no other one is that of its type. -/
theorem SameType.eq_of_not_varies : ∀ {v v' : Value}, SameType v v' → ¬ v.Varies → v = v'
  | .text _, _, _, h => absurd trivial h
  | .number _, _, _, h => absurd trivial h
  | .truth _, _, _, h => absurd trivial h
  | .nilPointer, _, _, h => absurd trivial h
  | .pointer _, _, _, h => absurd trivial h
  | .parts (k := .slice) ps, _, _, h => absurd (varies_slice ps) h
  | .parts (k := .map) ps, _, _, h => absurd (varies_map ps) h
  | .parts (k := .struct) _, .parts (k := .struct) _, .structs fields, h =>
    congrArg Value.parts (SameTypes.eq_of_not_varies fields h)

theorem SameTypes.eq_of_not_varies : ∀ {ps ps' : Parts .struct}, SameTypes ps ps' → ¬ ps.Varies → ps = ps'
  | .nil, _, .nil, _ => rfl
  | .cons f v rest, .cons _ v' rest', .cons _ value more, h => by
    obtain ⟨hv, hrest⟩ := not_or.mp h
    rw [SameType.eq_of_not_varies value hv, SameTypes.eq_of_not_varies more hrest]

end

mutual

theorem Value.Varies.exists_other : ∀ {v : Value}, v.Varies → ∃ v', SameType v v' ∧ v' ≠ v
  | .text s, _ => ⟨.text (s ++ "*"), .text _ _, fun h => by simpa using Value.text.inj h⟩
  | .number n, _ => ⟨.number (n + 1), .number _ _, fun h => by simp at h⟩
  | .truth b, _ => ⟨.truth (!b), .truth _ _, fun h => by simp at h⟩
  | .nilPointer, _ => ⟨.pointer .nilPointer, .fromNil _, fun h => by cases h⟩
  | .pointer v, _ => ⟨.nilPointer, .toNil v, fun h => by cases h⟩
  | .parts (k := .slice) .nil, _ => ⟨.parts (k := .slice) (.cons () .nilPointer .nil), .slices _ _, fun h => by cases h⟩
  | .parts (k := .slice) (.cons _ _ _), _ => ⟨.parts (k := .slice) .nil, .slices _ _, fun h => by cases h⟩
  | .parts (k := .map) .nil, _ => ⟨.parts (k := .map) (.cons "" .nilPointer .nil), .maps _ _, fun h => by cases h⟩
  | .parts (k := .map) (.cons _ _ _), _ => ⟨.parts (k := .map) .nil, .maps _ _, fun h => by cases h⟩
  | .parts (k := .struct) ps, h => by
    obtain ⟨ps', hsame, hne⟩ : ∃ ps', SameTypes ps ps' ∧ ps' ≠ ps := Parts.Varies.exists_other h
    exact ⟨.parts ps', .structs hsame, fun h => hne (by cases h; rfl)⟩

theorem Parts.Varies.exists_other : ∀ {ps : Parts .struct}, ps.Varies → ∃ ps', SameTypes ps ps' ∧ ps' ≠ ps
  | .nil, h => h.elim
  | .cons f v rest, h => by
    obtain hv | hrest := h
    · obtain ⟨v', hsame, hne⟩ := Value.Varies.exists_other hv
      exact ⟨.cons f v' rest, .cons f hsame (SameTypes.refl rest), fun h => hne (by cases h; rfl)⟩
    · obtain ⟨rest', hsame, hne⟩ := Parts.Varies.exists_other hrest
      exact ⟨.cons f v rest', .cons f (SameType.refl v) hsame, fun h => hne (by cases h; rfl)⟩

end

section Clean

variable {rt : Runtime}

mutual

theorem Agree.refl : ∀ v : Value, Agree rt v v
  | .text s => .text s
  | .number n => .number n
  | .truth b => .truth b
  | .nilPointer => .nilPointer
  | .pointer v => .pointer (Agree.refl v)
  | .parts ps => .parts (AgreeParts.refl ps)

theorem AgreeParts.refl : ∀ {k : Kind} (ps : Parts k), AgreeParts rt ps ps
  | _, .nil => .nil
  | _, .cons label v rest => by
    by_cases h : hidden rt label = true
    · exact .concealed h (SameType.refl v) (AgreeParts.refl rest)
    · exact .disclosed (Bool.eq_false_iff.mpr h) (Agree.refl v) (AgreeParts.refl rest)

end

mutual

theorem Agree.eq_of_clean : ∀ {v v' : Value}, Agree rt v v' → v.Clean rt → v = v'
  | _, _, .text _, _ => rfl
  | _, _, .number _, _ => rfl
  | _, _, .truth _, _ => rfl
  | _, _, .nilPointer, _ => rfl
  | _, _, .pointer target, h => congrArg Value.pointer (Agree.eq_of_clean target h)
  | _, _, .parts agree, h => congrArg Value.parts (AgreeParts.eq_of_clean agree h)

theorem AgreeParts.eq_of_clean : ∀ {k : Kind} {ps ps' : Parts k}, AgreeParts rt ps ps' → ps.Clean rt → ps = ps'
  | _, _, _, .nil, _ => rfl
  | _, .cons label v rest, .cons _ v' rest', .concealed isHidden value more, h => by
    obtain ⟨hv, hrest⟩ := h
    rw [if_pos isHidden] at hv
    rw [SameType.eq_of_not_varies value hv, AgreeParts.eq_of_clean more hrest]
  | _, .cons label v rest, .cons _ v' rest', .disclosed isShown value more, h => by
    obtain ⟨hv, hrest⟩ := h
    rw [if_neg (by simp [isShown])] at hv
    rw [Agree.eq_of_clean value hv, AgreeParts.eq_of_clean more hrest]

end

/-- A part that is put in the place of another one -/
theorem AgreeParts.cons {k : Kind} {label : Label k} {v v' : Value} {rest rest' : Parts k}
    (hv : if hidden rt label then SameType v v' else Agree rt v v') (more : AgreeParts rt rest rest') :
    AgreeParts rt (.cons label v rest) (.cons label v' rest') := by
  split_ifs at hv with h
  · exact .concealed h hv more
  · exact .disclosed (Bool.eq_false_iff.mpr h) hv more

mutual

theorem Value.exists_agree : ∀ {v : Value}, ¬ v.Clean rt → ∃ v', Agree rt v v' ∧ v' ≠ v
  | .text _, h => absurd trivial h
  | .number _, h => absurd trivial h
  | .truth _, h => absurd trivial h
  | .nilPointer, h => absurd trivial h
  | .pointer v, h => by
    obtain ⟨v', hagree, hne⟩ := Value.exists_agree (v := v) h
    exact ⟨.pointer v', .pointer hagree, fun heq => hne (by cases heq; rfl)⟩
  | .parts ps, h => by
    obtain ⟨ps', hagree, hne⟩ : ∃ ps', AgreeParts rt ps ps' ∧ ps' ≠ ps := Parts.exists_agree h
    exact ⟨.parts ps', .parts hagree, fun heq => hne (by cases heq; rfl)⟩

theorem Parts.exists_agree : ∀ {k : Kind} {ps : Parts k}, ¬ ps.Clean rt → ∃ ps', AgreeParts rt ps ps' ∧ ps' ≠ ps
  | _, .nil, h => absurd trivial h
  | _, .cons label v rest, h => by
    obtain hv | hrest := not_and_or.mp h
    · -- the value is hidden and has another one, or something in it is
      obtain ⟨v', hv', hne⟩ : ∃ v', (if hidden rt label then SameType v v' else Agree rt v v') ∧ v' ≠ v := by
        split_ifs at hv ⊢
        · exact Value.Varies.exists_other (not_not.mp hv)
        · exact Value.exists_agree hv
      exact ⟨.cons label v' rest, .cons hv' (AgreeParts.refl rest), fun heq => hne (by cases heq; rfl)⟩
    · obtain ⟨rest', hagree, hne⟩ := Parts.exists_agree hrest
      refine ⟨.cons label v rest', .cons ?_ hagree, fun heq => hne (by cases heq; rfl)⟩
      split_ifs
      · exact SameType.refl v
      · exact Agree.refl v

end

/-- **All that agrees with a value is the value if and only if the value is clean.** -/
theorem clean_iff {v : Value} : (∀ v', Agree rt v v' → v = v') ↔ v.Clean rt := by
  constructor
  · intro h
    by_contra hclean
    obtain ⟨v', hagree, hne⟩ := Value.exists_agree hclean
    exact hne (h v' hagree).symm
  · exact fun hclean v' hagree => hagree.eq_of_clean hclean

end Clean

/-! ## What is shown -/

/-- What is logged under a name: the last value that is put there -/
def Parts.logged (rt : Runtime) {k : Kind} (nameOf : Label k → Option String) : Parts k → Logged
  | .nil, _ => none
  | .cons label v rest, name =>
    (Parts.logged rt nameOf rest name).or (if nameOf label = some name then some (redactValue rt name v) else none)

/-- All that is shown of the parts is clean: of each that is put under a name that is not sensitive, and is not put
out of its place by a later one. -/
def Parts.Shielded (rt : Runtime) {k : Kind} (nameOf : Label k → Option String) : Parts k → Prop
  | .nil => True
  | .cons label v rest =>
    (∀ name, nameOf label = some name → Parts.logged rt nameOf rest name = none → isSensitive rt name = false →
      if hidden rt label then ¬ v.Varies else v.Clean rt) ∧ Parts.Shielded rt nameOf rest

/-- All that `redactStruct` shows of a value is clean. -/
def Value.Shielded (rt : Runtime) : Value → Prop
  | .nilPointer => True
  | .pointer v => v.Shielded rt
  | .parts (k := .struct) ps => ps.Shielded rt fieldName
  | v => v.Clean rt

section Shown

variable {rt : Runtime} {k : Kind} {nameOf : Label k → Option String}

theorem redactParts_apply : ∀ (ps : Parts k) (out : Logged) (name : String),
    redactParts rt nameOf ps out name = (ps.logged rt nameOf name).or (out name)
  | .nil, _, _ => rfl
  | .cons label v rest, out, name => by
    rw [redactParts, redactParts_apply rest, Parts.logged, Option.or_assoc]
    congr 1
    cases hname : nameOf label with
    | none => simp
    | some other =>
      by_cases hother : other = name
      · simp [hother]
      · have hne : name ≠ other := Ne.symm hother
        simp [Function.update_of_ne hne, hother]

/-- Values that agree are put under the same names. -/
theorem AgreeParts.logged_eq_none_iff : ∀ {ps ps' : Parts k}, AgreeParts rt ps ps' → ∀ name : String,
    ps.logged rt nameOf name = none ↔ ps'.logged rt nameOf name = none
  | _, _, .nil, _ => Iff.rfl
  | .cons label v rest, .cons _ v' rest', .concealed _ _ more, name => by
    rw [Parts.logged, Parts.logged, Option.or_eq_none_iff, Option.or_eq_none_iff, more.logged_eq_none_iff]
    simp
  | .cons label v rest, .cons _ v' rest', .disclosed _ _ more, name => by
    rw [Parts.logged, Parts.logged, Option.or_eq_none_iff, Option.or_eq_none_iff, more.logged_eq_none_iff]
    simp

/-- A part of agreeing values: of one type if it is hidden, and else agreeing -/
theorem AgreeParts.head {label : Label k} {v : Value} {rest ps' : Parts k}
    (h : AgreeParts rt (.cons label v rest) ps') : ∃ v' rest', ps' = .cons label v' rest' ∧
      (if hidden rt label then SameType v v' else Agree rt v v') ∧ AgreeParts rt rest rest' := by
  cases h with
  | concealed isHidden value more => exact ⟨_, _, rfl, by rwa [if_pos isHidden], more⟩
  | disclosed isShown value more => exact ⟨_, _, rfl, by rwa [if_neg (by simp [isShown])], more⟩

theorem eq_of_part {label : Label k} {v v' : Value}
    (hagree : if hidden rt label then SameType v v' else Agree rt v v')
    (hclean : if hidden rt label then ¬ v.Varies else v.Clean rt) : v = v' := by
  split_ifs at hagree hclean
  · exact hagree.eq_of_not_varies hclean
  · exact hagree.eq_of_clean hclean

theorem exists_part {label : Label k} {v : Value} (h : ¬ if hidden rt label then ¬ v.Varies else v.Clean rt) :
    ∃ v', (if hidden rt label then SameType v v' else Agree rt v v') ∧ v' ≠ v := by
  split_ifs at h ⊢
  · exact Value.Varies.exists_other (not_not.mp h)
  · exact Value.exists_agree h

theorem part_refl (label : Label k) (v : Value) : if hidden rt label then SameType v v else Agree rt v v := by
  split_ifs
  · exact SameType.refl v
  · exact Agree.refl v

/-- **The same is logged of all that agree if and only if all that is shown is clean.** -/
theorem logged_agree_iff : ∀ ps : Parts k,
    (∀ ps', AgreeParts rt ps ps' → ps.logged rt nameOf = ps'.logged rt nameOf) ↔ ps.Shielded rt nameOf
  | .nil => by
    refine iff_of_true (fun ps' h => ?_) trivial
    cases h
    rfl
  | .cons label v rest => by
    have ih := logged_agree_iff rest
    constructor
    · intro h
      refine ⟨fun name hname hlast hplain => ?_, ih.mp fun rest' hrest => ?_⟩
      · by_contra hleak
        obtain ⟨v', hv', hne⟩ := exists_part hleak
        have hsame := congrFun (h _ (.cons hv' (AgreeParts.refl rest))) name
        simp only [Parts.logged, hlast, Option.none_or, hname, if_true, redactValue, hplain] at hsame
        exact hne (Option.some.inj hsame).symm
      · funext name
        have hsame := congrFun (h _ (.cons (part_refl label v) hrest)) name
        rw [Parts.logged, Parts.logged] at hsame
        cases hlast : rest.logged rt nameOf name with
        | none => rw [(hrest.logged_eq_none_iff name).mp hlast]
        | some shown =>
          obtain ⟨shown', hlast'⟩ : ∃ shown', rest'.logged rt nameOf name = some shown' := by
            rw [← Option.ne_none_iff_exists', Ne, ← hrest.logged_eq_none_iff name, hlast]
            exact Option.some_ne_none shown
          rw [hlast, hlast', Option.some_or, Option.some_or] at hsame
          rw [hlast', hsame]
    · rintro ⟨hhead, hrest⟩ ps' hagree
      obtain ⟨v', rest', rfl, hv', hmore⟩ := hagree.head
      funext name
      rw [Parts.logged, Parts.logged, ← congrFun (ih.mpr hrest rest' hmore) name]
      cases hlast : rest.logged rt nameOf name with
      | some shown => rfl
      | none =>
        by_cases hname : nameOf label = some name
        · rw [if_pos hname, if_pos hname]
          cases hplain : isSensitive rt name with
          | true => simp [redactValue, hplain]
          | false => rw [eq_of_part hv' (hhead name hname hlast hplain)]
        · rw [if_neg hname, if_neg hname]

theorem redactParts_agree_iff (ps : Parts k) :
    (∀ ps', AgreeParts rt ps ps' → redactParts rt nameOf ps Logged.empty = redactParts rt nameOf ps' Logged.empty) ↔
      ps.Shielded rt nameOf := by
  have hlogged (qs : Parts k) : redactParts rt nameOf qs Logged.empty = qs.logged rt nameOf := by
    funext name
    rw [redactParts_apply, Logged.empty, Option.or_none]
  simp only [hlogged]
  exact logged_agree_iff ps

end Shown

/-! ## The two functions -/

theorem redactMap_agree_iff (rt : Runtime) (m : Parts .map) :
    (∀ m', AgreeParts rt m m' → redactMap rt (some m) = redactMap rt (some m')) ↔ m.Shielded rt some := by
  rw [← redactParts_agree_iff]
  exact forall₂_congr fun m' _ => Option.some_inj

/-- Values that are logged as they are, under one name -/
theorem value_agree_iff {rt : Runtime} {v : Value}
    (hvalue : ∀ v', Agree rt v v' → redactStruct rt v' = some (Function.update Logged.empty "value" (some v'))) :
    (∀ v', Agree rt v v' → redactStruct rt v = redactStruct rt v') ↔ v.Clean rt := by
  rw [← clean_iff]
  refine forall₂_congr fun v' hagree => ?_
  rw [hvalue v (Agree.refl v), hvalue v' hagree]
  constructor
  · intro h
    have happly := congrFun (Option.some.inj h) "value"
    rw [Function.update_self, Function.update_self] at happly
    exact Option.some.inj happly
  · rintro rfl
    rfl

theorem redactStruct_agree_iff (rt : Runtime) : ∀ v : Value,
    (∀ v', Agree rt v v' → redactStruct rt v = redactStruct rt v') ↔ v.Shielded rt
  | .nilPointer => by
    refine iff_of_true (fun v' h => ?_) trivial
    cases h
    rfl
  | .pointer v => by
    rw [Value.Shielded, ← redactStruct_agree_iff rt v]
    constructor
    · exact fun h v' hagree => h (.pointer v') (.pointer hagree)
    · intro h w hagree
      cases hagree with
      | pointer target =>
        rw [redactStruct, redactStruct]
        exact h _ target
  | .parts (k := .struct) ps => by
    rw [Value.Shielded, ← redactParts_agree_iff]
    constructor
    · exact fun h ps' hagree => Option.some.inj (h (.parts ps') (.parts hagree))
    · intro h w hagree
      cases hagree with
      | parts agree => exact congrArg some (h _ agree)
  | .text _ => value_agree_iff fun v' h => by
    cases h
    rfl
  | .number _ => value_agree_iff fun v' h => by
    cases h
    rfl
  | .truth _ => value_agree_iff fun v' h => by
    cases h
    rfl
  | .parts (k := .slice) _ => value_agree_iff fun v' h => by
    cases h
    rfl
  | .parts (k := .map) _ => value_agree_iff fun v' h => by
    cases h
    rfl

/-- **What is logged of two values that differ only in what is hidden is the same, for all such values, if and only
if nothing hidden is in what is shown.** -/
theorem redact_agree_iff (rt : Runtime) :
    (∀ v : Value, (∀ v', Agree rt v v' → redactStruct rt v = redactStruct rt v') ↔ v.Shielded rt) ∧
      ∀ m : Parts .map,
        (∀ m', AgreeParts rt m m' → redactMap rt (some m) = redactMap rt (some m')) ↔ m.Shielded rt some :=
  ⟨redactStruct_agree_iff rt, redactMap_agree_iff rt⟩

/-- A struct with the field `Password`, which is tagged `log:"pw"` -/
def taggedPassword (password : String) : Value :=
  .parts (k := .struct) (.cons { name := "Password", exported := true, tag := some "pw" } (.text password) .nil)

/-- A password is logged when the tag of its field has another name for it. -/
theorem redact_agree_not :
    ¬ ∀ (rt : Runtime) (v v' : Value), Agree rt v v' → redactStruct rt v = redactStruct rt v' := by
  intro hevery
  have hagree : Agree .ascii (taggedPassword "hunter2") (taggedPassword "") :=
    .parts (.concealed (by decide +kernel) (.text _ _) .nil)
  have hshielded := hevery .ascii _ _ hagree
  have hpassword (password : String) : redactStruct .ascii (taggedPassword password) =
      some (Function.update Logged.empty "pw" (some (.text password))) := by
    have hname : fieldName { name := "Password", exported := true, tag := some "pw" } = some "pw" := by decide +kernel
    have hplain : isSensitive .ascii "pw" = false := by decide +kernel
    simp [redactStruct, taggedPassword, redactParts, hname, redactValue, hplain]
  rw [hpassword, hpassword] at hshielded
  have happly := congrFun (Option.some.inj hshielded) "pw"
  rw [Function.update_self, Function.update_self] at happly
  exact absurd (Value.text.inj (Option.some.inj happly)) (by decide)

end Doenerstag.Logging
