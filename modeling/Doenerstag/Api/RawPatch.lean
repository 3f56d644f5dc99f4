import Doenerstag.Api.AvailabilityEdits
import Doenerstag.Api.MenuItems
import Doenerstag.Api.OrderItems
import Doenerstag.Go.Json
import Doenerstag.Lib.Loops
import Mathlib.Data.List.DropRight

/-!
# The body of a PATCH (`internal/api/json.go`)

`decodeJSONWithRaw` reads a body twice: into a struct, where a key finds its field up to case, and into a map,
whose keys are what they are. The handlers take a nullable column and a list from the struct when the map has
the field.

* `decodeJSONWithRaw` — both passes, and the errors of the first.
* `Reports` — the map has the fields that the struct was given.
* `reports_iff` — **it does if and only if each key that is spelled otherwise stands beside the field's own.**
* `Reports.patchItem`, … — what the handlers are asked then is what the body asks.
-/

namespace Doenerstag

open Json

def codeMalformedJSON : Code := 1000

/-- 1 MiB -/
def maxJSONBodyBytes : Nat := 2 ^ 20

/-! ## Decoding -/

/-- What the scanner finds in a body. -/
inductive Scan where
  /-- nothing but white space -/
  | empty
  | truncated
  | malformed (offset : Nat)
  /-- a value, and something behind it or not -/
  | value (v : Json) (more : Bool)

structure JSONBody where
  /-- `Content-Type` -/
  contentType : String
  /-- in bytes -/
  length : Nat
  scan : Scan

/-- What depends on the tables of Unicode: the least of the characters that differ in case only, and
`strconv.Quote` -/
structure JSONReader where
  foldRune : Char → Char
  quote : String → String

inductive JSONError where
  | empty
  | tooLarge
  | truncated
  | malformed (offset : Nat)
  | decode (e : DecodeError)
  deriving DecidableEq, Repr

namespace JSONReader

variable (rd : JSONReader)

/-- `strings.EqualFold` -/
def equalFold (s t : String) : Bool := foldName rd.foldRune s == foldName rd.foldRune t

/-- A type that is not declared is accepted. -/
def hasJSONContentType (declared : String) : Bool :=
  declared == "" ||
    rd.equalFold (trimSpace (String.ofList (declared.toList.takeWhile (· != ';')))) "application/json"

/-- The text between the quotes of the message -/
def unknownKey (key : String) : String :=
  String.ofList (((rd.quote key).toList.dropWhile (· == '"')).rdropWhile (· == '"'))

def jsonError : JSONError → ApiError
  | .empty => { code := codeMalformedJSON, field := "", detail := "the request body is empty" }
  | .tooLarge =>
    { code := codeInvalidField, field := ""
      detail := s!"the request body may be at most {maxJSONBodyBytes} bytes" }
  | .malformed offset => { code := codeMalformedJSON, field := "", detail := s!"invalid JSON at byte {offset}" }
  | .decode (.mismatch field type) => { code := codeInvalidField, field, detail := s!"expected a {type}" }
  | .decode (.unknownField key) =>
    { code := codeInvalidField, field := rd.unknownKey key, detail := "unknown field" }
  | .truncated => .of codeMalformedJSON

end JSONReader

/-- `rawPatch` -/
abbrev RawPatch := String → Option Json

def RawPatch.has (p : RawPatch) (key : String) : Bool := (p key).isSome

/-- The numbers that the first pass accepts are no larger than an `int64`, so that the second one has no trouble
with them. -/
def decodeJSONWithRaw {σ : Type} (rd : JSONReader) (target : Struct σ) (body : JSONBody) :
    Except ApiError (σ × RawPatch) :=
  if !rd.hasJSONContentType body.contentType then
    .error { code := codeInvalidField, field := "", detail := "the request body must be application/json" }
  else if maxJSONBodyBytes < body.length then .error (rd.jsonError .tooLarge)
  else match body.scan with
    | .empty => .error (rd.jsonError .empty)
    | .truncated => .error (rd.jsonError .truncated)
    | .malformed offset => .error (rd.jsonError (.malformed offset))
    | .value v more =>
      match target.decode rd.foldRune v with
      | .error e => .error (rd.jsonError (.decode e))
      | .ok s =>
        if more then
          .error { code := codeMalformedJSON, field := ""
                   detail := "the request body must contain exactly one JSON object" }
        else match mapOf v with
          | none => .error (.of codeMalformedJSON)
          | some raw => .ok (s, raw)

/-! ## What is reported -/

section Reports

variable {σ : Type} {rd : JSONReader} {S : Struct σ} {body : JSONBody} {members : List (String × Json)} {more : Bool}
  {s : σ} {raw : RawPatch}

theorem decodeJSONWithRaw_eq_ok (hscan : body.scan = .value (.object members) more)
    (h : decodeJSONWithRaw rd S body = .ok (s, raw)) :
    S.decode rd.foldRune (.object members) = .ok s ∧ mapOf (.object members) = some raw := by
  unfold decodeJSONWithRaw at h
  rw [hscan] at h
  dsimp only at h
  cases hdecode : S.decode rd.foldRune (.object members) with
  | error e =>
    rw [hdecode] at h
    dsimp only at h
    split_ifs at h
  | ok s' =>
    rw [hdecode] at h
    dsimp only [mapOf] at h
    split_ifs at h
    cases h
    exact ⟨rfl, rfl⟩

/-- The fields that are reported are those that some key of the body was decoded into. -/
def Reports (rd : JSONReader) (S : Struct σ) (members : List (String × Json)) (raw : RawPatch) : Prop :=
  ∀ f ∈ S.fields, (raw.has f.name = true ↔ S.Fills rd.foldRune members f)

/-- Each key is a name of the struct, or stands beside the one that it is up to case. -/
def SpelledOut (rd : JSONReader) (S : Struct σ) (members : List (String × Json)) : Prop :=
  ∀ m ∈ members, ∃ m' ∈ members, m'.1 ∈ S.fields.map StructField.name ∧
    foldName rd.foldRune m'.1 = foldName rd.foldRune m.1

/-- A field that is reported was given. -/
theorem fills_of_has (hraw : mapOf (.object members) = some raw) {f : StructField σ} (hf : f ∈ S.fields)
    (hhas : raw.has f.name = true) : S.Fills rd.foldRune members f := by
  obtain ⟨m, hm, hkey⟩ := (mapOf_isSome hraw f.name).mp hhas
  exact ⟨m, hm, hkey ▸ Struct.lookup_name hf⟩

/-- **The fields that are reported are the ones that were given, if and only if each key that is not a name
stands beside the name.** -/
theorem reports_iff (rd : JSONReader) (S : Struct σ) (body : JSONBody) (hscan : body.scan = .value (.object members) more)
    (haccepted : decodeJSONWithRaw rd S body = .ok (s, raw)) : Reports rd S members raw ↔ SpelledOut rd S members := by
  obtain ⟨hdecode, hraw⟩ := decodeJSONWithRaw_eq_ok hscan haccepted
  constructor
  · intro hreports m hm
    obtain ⟨f, hlookup⟩ := Struct.exists_lookup hdecode hm
    have hf : f ∈ S.fields := Struct.lookup_mem hlookup
    have hhas : raw.has f.name = true := (hreports f hf).mpr ⟨m, hm, hlookup⟩
    obtain ⟨m', hm', hkey⟩ := (mapOf_isSome hraw f.name).mp hhas
    refine ⟨m', hm', ?_, ?_⟩
    · rw [hkey]
      exact List.mem_map_of_mem hf
    · rw [hkey]
      exact Struct.lookup_fold hlookup
  · intro hspelled f hf
    refine ⟨fills_of_has hraw hf, ?_⟩
    rintro ⟨m, hm, hlookup⟩
    obtain ⟨m', hm', hname, hfold⟩ := hspelled m hm
    obtain ⟨g, hg, hgname⟩ := List.mem_map.mp hname
    -- the name that stands beside the key is the field's
    have hsame : g = f := by
      refine Struct.name_inj rd.foldRune hg hf ?_
      rw [hgname, hfold, Struct.lookup_fold hlookup]
    exact (mapOf_isSome hraw f.name).mpr ⟨m', hm', by rw [← hgname, hsame]⟩

/-- Some key of the body is one for the field. -/
def asks (rd : JSONReader) (S : Struct σ) (members : List (String × Json)) (name : String) : Bool :=
  members.any fun m => (S.lookup rd.foldRune m.1).any fun f => f.name == name

theorem Reports.has_eq (h : Reports rd S members raw) (name : String) (hname : name ∈ S.fields.map StructField.name) :
    raw.has name = asks rd S members name := by
  obtain ⟨f, hf, rfl⟩ := List.mem_map.mp hname
  rw [Bool.eq_iff_iff, h f hf]
  unfold asks Struct.Fills
  rw [List.any_eq_true]
  refine exists_congr fun m => and_congr_right fun _ => ?_
  rw [Option.any_eq_true]
  constructor
  · intro hlookup
    exact ⟨f, hlookup, beq_self_eq_true f.name⟩
  · rintro ⟨g, hlookup, hname⟩
    rw [hlookup]
    exact congrArg some (Struct.name_inj rd.foldRune (Struct.lookup_mem hlookup) hf
      (by rw [beq_iff_eq.mp hname]))

end Reports

/-! ## The bodies

What a handler takes from a body depends on the fields that it believes to have been sent. -/

/-- `patchItemRequest`, of an order item -/
structure PatchItemBody where
  quantity : Option Int64
  note : Option String
  modificationIDs : Slice String

def patchItemStruct : Struct PatchItemBody where
  type := "api.patchItemRequest"
  zero := { quantity := none, note := none, modificationIDs := ⟨[], []⟩ }
  fields := [
    .of "quantity" (intoPointer 0 (intoInt "int")) PatchItemBody.quantity fun v b => { b with quantity := v },
    .of "note" (intoPointer "" intoString) PatchItemBody.note fun v b => { b with note := v },
    .of "modification_ids" (intoSlice "[]string" "" intoString) PatchItemBody.modificationIDs
      fun v b => { b with modificationIDs := v }]
  ascii := by decide +kernel
  distinct := by decide +kernel

def PatchItemBody.request (b : PatchItemBody) (sent : String → Bool) : OrderHandlers.PatchItemRequest where
  quantity := b.quantity
  note := b.note
  modificationIDs := if sent "modification_ids" then some b.modificationIDs.elements else none

/-- `patchMenuItemRequest` -/
structure PatchMenuItemBody where
  categoryID : Option String
  externalID : Option String
  name : Option String
  description : Option String
  imageID : Option String
  priceCents : Option Int64
  available : Option Bool
  tagIDs : Slice String
  allergenIDs : Slice String
  additiveIDs : Slice String

def patchMenuItemStruct : Struct PatchMenuItemBody where
  type := "api.patchMenuItemRequest"
  zero :=
    { categoryID := none, externalID := none, name := none, description := none, imageID := none
      priceCents := none, available := none, tagIDs := ⟨[], []⟩, allergenIDs := ⟨[], []⟩
      additiveIDs := ⟨[], []⟩ }
  fields := [
    .of "category_id" (intoPointer "" intoString) PatchMenuItemBody.categoryID fun v b => { b with categoryID := v },
    .of "external_id" (intoPointer "" intoString) PatchMenuItemBody.externalID fun v b => { b with externalID := v },
    .of "name" (intoPointer "" intoString) PatchMenuItemBody.name fun v b => { b with name := v },
    .of "description" (intoPointer "" intoString) PatchMenuItemBody.description
      fun v b => { b with description := v },
    .of "image_id" (intoPointer "" intoString) PatchMenuItemBody.imageID fun v b => { b with imageID := v },
    .of "price_cents" (intoPointer 0 (intoInt "int64")) PatchMenuItemBody.priceCents
      fun v b => { b with priceCents := v },
    .of "available" (intoPointer false intoBool) PatchMenuItemBody.available fun v b => { b with available := v },
    .of "tag_ids" (intoSlice "[]string" "" intoString) PatchMenuItemBody.tagIDs fun v b => { b with tagIDs := v },
    .of "allergen_ids" (intoSlice "[]string" "" intoString) PatchMenuItemBody.allergenIDs
      fun v b => { b with allergenIDs := v },
    .of "additive_ids" (intoSlice "[]string" "" intoString) PatchMenuItemBody.additiveIDs
      fun v b => { b with additiveIDs := v }]
  ascii := by decide +kernel
  distinct := by decide +kernel

def PatchMenuItemBody.ids (b : PatchMenuItemBody) : Classification → Slice String
  | .tag => b.tagIDs
  | .allergen => b.allergenIDs
  | .additive => b.additiveIDs

def PatchMenuItemBody.request (b : PatchMenuItemBody) (sent : String → Bool) : MenuHandlers.PatchMenuItemRequest where
  categoryID := if sent "category_id" then some b.categoryID else none
  externalID := b.externalID
  name := b.name
  description := b.description
  imageID := if sent "image_id" then some b.imageID else none
  priceCents := b.priceCents
  available := b.available
  ids := fun c => if sent c.field then some (b.ids c).elements else none

/-- `availabilityRequest` -/
structure AvailabilityPatchBody where
  name : Option String
  onDate : Option String
  weekdays : Option (Slice Int64)
  startTime : Option String
  endTime : Option String
  sortOrder : Option Int64

def availabilityStruct : Struct AvailabilityPatchBody where
  type := "api.availabilityRequest"
  zero := { name := none, onDate := none, weekdays := none, startTime := none, endTime := none, sortOrder := none }
  fields := [
    .of "name" (intoPointer "" intoString) AvailabilityPatchBody.name fun v b => { b with name := v },
    .of "on_date" (intoPointer "" intoString) AvailabilityPatchBody.onDate fun v b => { b with onDate := v },
    .of "weekdays" (intoPointer ⟨[], []⟩ (intoSlice "[]int" 0 (intoInt "int"))) AvailabilityPatchBody.weekdays
      fun v b => { b with weekdays := v },
    .of "start_time" (intoPointer "" intoString) AvailabilityPatchBody.startTime fun v b => { b with startTime := v },
    .of "end_time" (intoPointer "" intoString) AvailabilityPatchBody.endTime fun v b => { b with endTime := v },
    .of "sort_order" (intoPointer 0 (intoInt "int")) AvailabilityPatchBody.sortOrder
      fun v b => { b with sortOrder := v }]
  ascii := by decide +kernel
  distinct := by decide +kernel

def AvailabilityPatchBody.request (b : AvailabilityPatchBody) (sent : String → Bool) : AvailabilityRequest where
  name := b.name
  onDate := if sent "on_date" then some b.onDate else none
  weekdays := b.weekdays.map fun days => days.elements.map Int64.toInt
  startTime := if sent "start_time" then some b.startTime else none
  endTime := if sent "end_time" then some b.endTime else none
  sortOrder := b.sortOrder

/-- `patchRestaurantRequest` -/
structure PatchRestaurantBody where
  name : Option String
  currencyCode : Option String
  logoImageID : Option String
  minOrderValueCents : Option Int64
  deliveryFeeCents : Option Int64
  notes : Option String

def patchRestaurantStruct : Struct PatchRestaurantBody where
  type := "api.patchRestaurantRequest"
  zero :=
    { name := none, currencyCode := none, logoImageID := none, minOrderValueCents := none
      deliveryFeeCents := none, notes := none }
  fields := [
    .of "name" (intoPointer "" intoString) PatchRestaurantBody.name fun v b => { b with name := v },
    .of "currency_code" (intoPointer "" intoString) PatchRestaurantBody.currencyCode
      fun v b => { b with currencyCode := v },
    .of "logo_image_id" (intoPointer "" intoString) PatchRestaurantBody.logoImageID
      fun v b => { b with logoImageID := v },
    .of "min_order_value_cents" (intoPointer 0 (intoInt "int64")) PatchRestaurantBody.minOrderValueCents
      fun v b => { b with minOrderValueCents := v },
    .of "delivery_fee_cents" (intoPointer 0 (intoInt "int64")) PatchRestaurantBody.deliveryFeeCents
      fun v b => { b with deliveryFeeCents := v },
    .of "notes" (intoPointer "" intoString) PatchRestaurantBody.notes fun v b => { b with notes := v }]
  ascii := by decide +kernel
  distinct := by decide +kernel

/-- What `validatePatch` of a restaurant goes by. A nullable column may be sent and `none`. -/
structure PatchRestaurantRequest where
  name : Option String
  currencyCode : Option String
  logoImageID : Option (Option String)
  minOrderValueCents : Option (Option Int64)
  deliveryFeeCents : Option (Option Int64)
  notes : Option String
  deriving DecidableEq, Repr

def PatchRestaurantBody.request (b : PatchRestaurantBody) (sent : String → Bool) : PatchRestaurantRequest where
  name := b.name
  currencyCode := b.currencyCode
  logoImageID := if sent "logo_image_id" then some b.logoImageID else none
  minOrderValueCents := if sent "min_order_value_cents" then some b.minOrderValueCents else none
  deliveryFeeCents := if sent "delivery_fee_cents" then some b.deliveryFeeCents else none
  notes := b.notes

/-! ## What the handlers are asked -/

namespace Reports

variable {rd : JSONReader} {members : List (String × Json)} {raw : RawPatch}

theorem patchItem (h : Reports rd patchItemStruct members raw) (b : PatchItemBody) :
    b.request raw.has = b.request (asks rd patchItemStruct members) := by
  unfold PatchItemBody.request
  rw [h.has_eq "modification_ids" (by decide +kernel)]

theorem patchMenuItem (h : Reports rd patchMenuItemStruct members raw) (b : PatchMenuItemBody) :
    b.request raw.has = b.request (asks rd patchMenuItemStruct members) := by
  have hids : ∀ c : Classification, raw.has c.field = asks rd patchMenuItemStruct members c.field := by
    intro c
    exact h.has_eq c.field (by cases c <;> decide +kernel)
  unfold PatchMenuItemBody.request
  rw [h.has_eq "category_id" (by decide +kernel), h.has_eq "image_id" (by decide +kernel)]
  simp only [hids]

theorem patchAvailability (h : Reports rd availabilityStruct members raw) (b : AvailabilityPatchBody) :
    b.request raw.has = b.request (asks rd availabilityStruct members) := by
  unfold AvailabilityPatchBody.request
  rw [h.has_eq "on_date" (by decide +kernel), h.has_eq "start_time" (by decide +kernel),
    h.has_eq "end_time" (by decide +kernel)]

theorem patchRestaurant (h : Reports rd patchRestaurantStruct members raw) (b : PatchRestaurantBody) :
    b.request raw.has = b.request (asks rd patchRestaurantStruct members) := by
  unfold PatchRestaurantBody.request
  rw [h.has_eq "logo_image_id" (by decide +kernel),
    h.has_eq "min_order_value_cents" (by decide +kernel),
    h.has_eq "delivery_fee_cents" (by decide +kernel)]

end Reports

/-! ## A list in capitals -/

def plainReader : JSONReader where
  foldRune := id
  quote := fun s => "\"" ++ s ++ "\""

/-- A body that clears the modifications of an order item, under these keys -/
def clearing (keys : List String) : JSONBody where
  contentType := "application/json"
  length := 25
  scan := .value (.object (keys.map fun key => (key, .array []))) false

theorem exists_accepted (keys : List String)
    (h : (decodeJSONWithRaw plainReader patchItemStruct (clearing keys)).isOk = true) :
    ∃ s raw, decodeJSONWithRaw plainReader patchItemStruct (clearing keys) = .ok (s, raw) := by
  obtain ⟨⟨s, raw⟩, h⟩ := Loops.exists_of_isOk h
  exact ⟨s, raw, h⟩

/-- Beside the name itself, another spelling does no harm. -/
theorem reports_both : ∃ s raw,
    decodeJSONWithRaw plainReader patchItemStruct (clearing ["modification_ids", "MODIFICATION_IDS"]) =
        .ok (s, raw) ∧
      Reports plainReader patchItemStruct
        (["modification_ids", "MODIFICATION_IDS"].map fun key => (key, .array [])) raw := by
  obtain ⟨s, raw, haccepted⟩ := exists_accepted ["modification_ids", "MODIFICATION_IDS"] (by decide +kernel)
  refine ⟨s, raw, haccepted, (reports_iff plainReader patchItemStruct _ rfl haccepted).mpr ?_⟩
  unfold SpelledOut
  decide +kernel

/-- In capitals alone, the list is accepted, and the handler is asked for nothing. -/
theorem capitals_ignored : ∃ s raw,
    decodeJSONWithRaw plainReader patchItemStruct (clearing ["MODIFICATION_IDS"]) = .ok (s, raw) ∧
      asks plainReader patchItemStruct [("MODIFICATION_IDS", .array [])] "modification_ids" = true ∧
      (s.request raw.has).modificationIDs = none ∧
      ¬ Reports plainReader patchItemStruct [("MODIFICATION_IDS", .array [])] raw := by
  obtain ⟨s, raw, haccepted⟩ := exists_accepted ["MODIFICATION_IDS"] (by decide +kernel)
  have hasked : asks plainReader patchItemStruct [("MODIFICATION_IDS", .array [])] "modification_ids" = true := by
    decide +kernel
  have hraw := (decodeJSONWithRaw_eq_ok rfl haccepted).2
  have hhas : raw.has "modification_ids" = false := by
    rw [Bool.eq_false_iff]
    intro hhas
    obtain ⟨m, hm, hkey⟩ := (mapOf_isSome hraw "modification_ids").mp hhas
    obtain rfl := List.mem_singleton.mp hm
    exact absurd hkey (by decide)
  refine ⟨s, raw, haccepted, hasked, ?_, fun hreports => ?_⟩
  · unfold PatchItemBody.request
    rw [hhas]
    rfl
  · rw [hreports.has_eq "modification_ids" (by decide +kernel), hasked] at hhas
    cases hhas

end Doenerstag
