import Doenerstag.Frontend.Router
import Doenerstag.Go.Strings
import Doenerstag.Lib.Utf8

/-!
# The routes (`frontend/src/router.ts`)

`render` tries the routes in their order and builds the page of the first that matches. A parameter of a
path is decoded while it is matched, and decoding may throw.

* `matchPath_eq` — what matching one pattern comes to.
* `build_iff` — `Serves`: when a page is built.
* `visit_shows_iff` — **a visit ends with its page in the outlet, unless a parameter that is reached is
  malformed, or the page itself fails.**
-/

namespace Doenerstag

/-! ## `decodeURIComponent` -/

/-- What the language throws -/
structure URIError where
  deriving DecidableEq, Repr

def hexValue (c : Char) : Option Nat :=
  if c.isDigit then some (c.toNat - '0'.toNat)
  else if 'a' ≤ c ∧ c ≤ 'f' then some (c.toNat - 'a'.toNat + 10)
  else if 'A' ≤ c ∧ c ≤ 'F' then some (c.toNat - 'A'.toNat + 10)
  else none

/-- The bytes of a text that has escapes; none if a percent sign begins no escape -/
def unescape : Text → Option (List UInt8)
  | [] => some []
  | '%' :: high :: low :: rest =>
    (hexValue high).bind fun h => (hexValue low).bind fun l =>
      (unescape rest).map (UInt8.ofNat (16 * h + l) :: ·)
  | c :: rest => if c = '%' then none else (unescape rest).map (String.utf8EncodeChar c ++ ·)

def decodeURIComponent (text : Text) : Option Text := (unescape text).bind Utf8.decode

/-! ## Matching -/

/-- An object with the parameters of a path -/
abbrev Params := Text → Option Text

def segments (path : Text) : List Text := (path.splitOn '/').filter (· ≠ [])

/-- The loop over the segments of a pattern -/
def matchSegments : List Text → List Text → Params → Except URIError (Option Params)
  | [], _, params => .ok (some params)
  | part :: expected, actual, params =>
    let value := actual.head?.getD []
    if part.head? = some ':' then
      if value = [] then .ok none
      else match decodeURIComponent value with
        | none => .error ⟨⟩
        | some decoded => matchSegments expected actual.tail (Function.update params part.tail (some decoded))
    else if part ≠ value then .ok none
    else matchSegments expected actual.tail params

def matchPath (pattern path : Text) : Except URIError (Option Params) :=
  let expected := segments pattern
  let actual := segments path
  if expected.length ≠ actual.length then .ok none
  else matchSegments expected actual fun _ => none

/-- `RouteContext` -/
structure RouteContext where
  path : Text
  params : Params
  query : Text

/-- `Route`: a page of any kind is built, or building it fails. -/
structure Route (ε π : Type) where
  pattern : Text
  render : RouteContext → Except ε π

/-- Why a render has no page -/
inductive RenderError (ε : Type) where
  | uri (e : URIError)
  | page (e : ε)
  deriving DecidableEq, Repr

section Build

variable {ε π : Type}

/-- `render`, from the loop over the routes to the page -/
def build (routes : List (Route ε π)) (notFound : RouteContext → Except ε π) (path query : Text) :
    Except (RenderError ε) π :=
  match routes with
  | [] => (notFound ⟨path, fun _ => none, query⟩).mapError .page
  | route :: rest =>
    match matchPath route.pattern path with
    | .error e => .error (.uri e)
    | .ok (some params) => (route.render ⟨path, params, query⟩).mapError .page
    | .ok none => build rest notFound path query

end Build

/-! ## One pattern -/

/-- Segments that do not keep a pattern from matching -/
def Agrees (part value : Text) : Prop := part.head? = some ':' ∨ part = value

/-- The pattern is one of the path, whatever its parameters are. -/
def PathFits (pattern path : Text) : Prop := List.Forall₂ Agrees (segments pattern) (segments path)

/-- Matching segment by segment meets a parameter that cannot be decoded. -/
inductive Stumbles : List Text → List Text → Prop where
  | here {part value : Text} (expected actual : List Text) (param : part.head? = some ':')
      (malformed : decodeURIComponent value = none) : Stumbles (part :: expected) (value :: actual)
  | later {part value : Text} {expected actual : List Text} (agrees : Agrees part value)
      (later : Stumbles expected actual) : Stumbles (part :: expected) (value :: actual)

/-- The path has as many segments as the pattern, and a malformed one where the pattern has a parameter,
with nothing before it that does not match. -/
def Malformed (pattern path : Text) : Prop :=
  (segments pattern).length = (segments path).length ∧ Stumbles (segments pattern) (segments path)

/-- The parameters of a path, in their order -/
def capture (expected actual : List Text) (params : Params) : Params :=
  (expected.zip actual).foldl (fun params segment =>
    if segment.1.head? = some ':' then Function.update params segment.1.tail (decodeURIComponent segment.2)
    else params) params

theorem stumbles_cons {part value : Text} {expected actual : List Text} :
    Stumbles (part :: expected) (value :: actual) ↔
      (part.head? = some ':' ∧ decodeURIComponent value = none) ∨ (Agrees part value ∧ Stumbles expected actual) := by
  constructor
  · intro h
    cases h with
    | here _ _ param malformed => exact .inl ⟨param, malformed⟩
    | later agrees later => exact .inr ⟨agrees, later⟩
  · rintro (⟨param, malformed⟩ | ⟨agrees, later⟩)
    · exact .here expected actual param malformed
    · exact .later agrees later

section Steps

variable {part value : Text} {expected actual : List Text} {params : Params}

theorem matchSegments_malformed (hparam : part.head? = some ':') (hvalue : value ≠ [])
    (hmalformed : decodeURIComponent value = none) :
    matchSegments (part :: expected) (value :: actual) params = .error ⟨⟩ := by
  simp [matchSegments, hparam, hvalue, hmalformed]

theorem matchSegments_decoded {decoded : Text} (hparam : part.head? = some ':') (hvalue : value ≠ [])
    (hdecoded : decodeURIComponent value = some decoded) :
    matchSegments (part :: expected) (value :: actual) params =
      matchSegments expected actual (Function.update params part.tail (some decoded)) := by
  simp [matchSegments, hparam, hvalue, hdecoded]

theorem matchSegments_same (hparam : ¬ part.head? = some ':') :
    matchSegments (part :: expected) (part :: actual) params = matchSegments expected actual params := by
  simp [matchSegments, hparam]

theorem matchSegments_differs (hparam : ¬ part.head? = some ':') (hdiffers : part ≠ value) :
    matchSegments (part :: expected) (value :: actual) params = .ok none := by
  simp [matchSegments, hparam, hdiffers]

end Steps

open Classical in
/-- Segment by segment: the exception, the parameters, or nothing -/
theorem matchSegments_eq {expected actual : List Text} (params : Params)
    (hlength : expected.length = actual.length) (hactual : ∀ value ∈ actual, value ≠ []) :
    matchSegments expected actual params =
      if Stumbles expected actual then .error ⟨⟩
      else if List.Forall₂ Agrees expected actual then .ok (some (capture expected actual params))
      else .ok none := by
  induction expected generalizing actual params with
  | nil =>
    obtain rfl : actual = [] := List.length_eq_zero_iff.mp hlength.symm
    rw [if_neg (fun h => nomatch h), if_pos List.Forall₂.nil]
    rfl
  | cons part expected ih =>
    cases actual with
    | nil => simp at hlength
    | cons value actual =>
      have hvalue : value ≠ [] := hactual value List.mem_cons_self
      have hrest := fun params => ih params (by simpa using hlength) fun v hv =>
        hactual v (List.mem_cons_of_mem _ hv)
      simp only [stumbles_cons, List.forall₂_cons]
      by_cases hparam : part.head? = some ':'
      · have hagrees : Agrees part value := .inl hparam
        cases hdecoded : decodeURIComponent value with
        | none =>
          rw [matchSegments_malformed hparam hvalue hdecoded]
          simp [hparam]
        | some decoded =>
          have hcapture : capture (part :: expected) (value :: actual) params =
              capture expected actual (Function.update params part.tail (some decoded)) := by
            simp [capture, hparam, hdecoded]
          rw [matchSegments_decoded hparam hvalue hdecoded, hrest, hcapture]
          simp [hagrees]
      · by_cases hsame : part = value
        · subst hsame
          have hagrees : Agrees part part := .inr rfl
          have hcapture : capture (part :: expected) (part :: actual) params =
              capture expected actual params := by
            simp [capture, hparam]
          rw [matchSegments_same hparam, hrest, hcapture]
          simp [hparam, hagrees]
        · have hdiffers : ¬ Agrees part value := fun h => h.elim hparam hsame
          rw [matchSegments_differs hparam hsame]
          simp [hparam, hdiffers]

theorem segments_ne_nil (path : Text) : ∀ value ∈ segments path, value ≠ [] := by
  intro value hvalue
  simpa using (List.mem_filter.mp hvalue).2

open Classical in
/-- **Matching one pattern** throws if a malformed parameter is met. -/
theorem matchPath_eq (pattern path : Text) : matchPath pattern path =
    if Malformed pattern path then .error ⟨⟩
    else if PathFits pattern path then .ok (some (capture (segments pattern) (segments path) fun _ => none))
    else .ok none := by
  unfold matchPath Malformed PathFits
  dsimp only
  by_cases hlength : (segments pattern).length = (segments path).length
  · rw [if_neg (not_not_intro hlength), matchSegments_eq _ hlength (segments_ne_nil path)]
    by_cases hstumbles : Stumbles (segments pattern) (segments path)
    · simp [hlength, hstumbles]
    · by_cases hfits : List.Forall₂ Agrees (segments pattern) (segments path)
      · simp [hlength, hstumbles, hfits]
      · simp [hlength, hstumbles, hfits]
  · have hfits : ¬ List.Forall₂ Agrees (segments pattern) (segments path) := fun h => hlength h.length_eq
    simp [hlength, hfits]

/-! ## All of them -/

section Visit

variable {ε π : Type} {routes : List (Route ε π)} {notFound : RouteContext → Except ε π} {path query : Text}

/-- Nothing malformed is met up to the route that fits, and that route, or the page for none, has a page. -/
structure Serves (routes : List (Route ε π)) (notFound : RouteContext → Except ε π) (path query : Text) :
    Prop where
  decodes : ∀ before route after, routes = before ++ route :: after →
    (∀ r ∈ before, ¬ PathFits r.pattern path) → ¬ Malformed route.pattern path
  renders : ∀ before route after, routes = before ++ route :: after →
    (∀ r ∈ before, ¬ PathFits r.pattern path) → PathFits route.pattern path → ∃ page,
      route.render ⟨path, capture (segments route.pattern) (segments path) fun _ => none, query⟩ = .ok page
  otherwise : (∀ r ∈ routes, ¬ PathFits r.pattern path) → ∃ page, notFound ⟨path, fun _ => none, query⟩ = .ok page

theorem exists_ok_mapError {ε' : Type} {f : ε → ε'} {x : Except ε π} :
    (∃ page, x.mapError f = .ok page) ↔ ∃ page, x = .ok page := by
  cases x <;> simp [Except.mapError]

/-- A route that does not fit is passed. -/
theorem serves_cons {route : Route ε π} (hmalformed : ¬ Malformed route.pattern path)
    (hfits : ¬ PathFits route.pattern path) :
    Serves (route :: routes) notFound path query ↔ Serves routes notFound path query := by
  have hcons : ∀ {before : List (Route ε π)}, (∀ r ∈ before, ¬ PathFits r.pattern path) →
      ∀ r ∈ route :: before, ¬ PathFits r.pattern path := fun hbefore r hr =>
    (List.mem_cons.mp hr).elim (fun h => h ▸ hfits) (hbefore r)
  constructor
  · rintro ⟨hdecodes, hrenders, hotherwise⟩
    refine ⟨fun before r after h hbefore => ?_, fun before r after h hbefore => ?_, fun h => ?_⟩
    · exact hdecodes (route :: before) r after (by rw [h, List.cons_append]) (hcons hbefore)
    · exact hrenders (route :: before) r after (by rw [h, List.cons_append]) (hcons hbefore)
    · exact hotherwise (hcons h)
  · rintro ⟨hdecodes, hrenders, hotherwise⟩
    refine ⟨fun before r after h hbefore => ?_, fun before r after h hbefore hr => ?_, fun h => ?_⟩
    · cases before with
      | nil =>
        obtain ⟨rfl, rfl⟩ := List.cons.inj h
        exact hmalformed
      | cons first before =>
        obtain ⟨rfl, hroutes⟩ := List.cons.inj h
        exact hdecodes before r after hroutes fun r' hr' => hbefore r' (List.mem_cons_of_mem _ hr')
    · cases before with
      | nil =>
        obtain ⟨rfl, rfl⟩ := List.cons.inj h
        exact absurd hr hfits
      | cons first before =>
        obtain ⟨rfl, hroutes⟩ := List.cons.inj h
        exact hrenders before r after hroutes (fun r' hr' => hbefore r' (List.mem_cons_of_mem _ hr')) hr
    · exact hotherwise fun r hr => h r (List.mem_cons_of_mem _ hr)

/-- **When a page is built** -/
theorem build_iff : (∃ page, build routes notFound path query = .ok page) ↔ Serves routes notFound path query := by
  induction routes with
  | nil =>
    refine exists_ok_mapError.trans ⟨fun h => ⟨?_, ?_, fun _ => h⟩, fun h => h.otherwise (by simp)⟩
    all_goals
      intro before route after hnil
      simp at hnil
  | cons route rest ih =>
    unfold build
    rw [matchPath_eq]
    split_ifs with hmalformed hfits
    · constructor
      · rintro ⟨page, h⟩
        cases h
      · intro h
        exact absurd hmalformed (h.decodes [] route rest rfl (by simp))
    · refine exists_ok_mapError.trans ⟨fun h => ?_, fun h => h.renders [] route rest rfl (by simp) hfits⟩
      -- no other route is before the one that fits
      have hfirst : ∀ {before after : List (Route ε π)} {r : Route ε π}, route :: rest = before ++ r :: after →
          (∀ r' ∈ before, ¬ PathFits r'.pattern path) → r = route := by
        intro before after r heq hbefore
        cases before with
        | nil => exact (List.cons.inj heq).1.symm
        | cons first before =>
          obtain ⟨rfl, -⟩ := List.cons.inj heq
          exact absurd hfits (hbefore _ List.mem_cons_self)
      refine ⟨fun before r after heq hbefore => ?_, fun before r after heq hbefore _ => ?_,
        fun hnone => absurd hfits (hnone route List.mem_cons_self)⟩
      · rw [hfirst heq hbefore]
        exact hmalformed
      · rw [hfirst heq hbefore]
        exact h
    · exact ih.trans (serves_cons hmalformed hfits).symm

/-! ## In the router -/

/-- A navigation, a refresh or the start, with nothing else meanwhile: the render waits for its page, and
nothing catches what it throws. -/
def Router.visit {ε : Type} (r : Router π) (page : Except ε π) : Router π :=
  match page with
  | .ok page => ((r.render.ended (r.ticket + 1)).install (r.ticket + 1) page)
  | .error _ => r.render.ended (r.ticket + 1)

theorem Router.visit_runs {events : List (RouterEvent π)} {r : Router π} (hruns : Router.Runs events r)
    (page : Except (RenderError ε) π) : ∃ events, Router.Runs events (r.visit page) := by
  have hrender := hruns.next (.render r)
  have hwaits : r.render.building (r.ticket + 1) = true := Function.update_self ..
  cases page with
  | ok page => exact ⟨_, hrender.next (.resolve hwaits page)⟩
  | error e => exact ⟨_, hrender.next (.reject hwaits)⟩

theorem Router.outlet_install {r : Router π} {t : Nat} (hnewest : r.ticket = t) (page : π) :
    (r.install t page).outlet = some (t, page) := by
  unfold Router.install
  rw [if_neg (not_not_intro hnewest.symm)]

/-- **A visit ends with its page in the outlet**, for every page that was there before, if and only if no
malformed parameter is met and the page does not fail. -/
theorem visit_shows_iff (routes : List (Route ε π)) (notFound : RouteContext → Except ε π) (path query : Text)
    {events : List (RouterEvent π)} {r : Router π} (hruns : Router.Runs events r) :
    (∃ page, (r.visit (build routes notFound path query)).outlet = some (r.ticket + 1, page)) ↔
      Serves routes notFound path query := by
  rw [← build_iff]
  have hold : ∀ page, r.outlet ≠ some (r.ticket + 1, page) := by
    intro page hpage
    -- a page in the outlet was built by an earlier render
    have htidy := hruns.tidy
    have hshown := htidy.shown (r.ticket + 1) (htidy.cleanups.trans (congrArg (Option.map Prod.fst) hpage))
    omega
  cases build routes notFound path query with
  | ok page =>
    have hnewest : ((r.render.ended (r.ticket + 1)).install (r.ticket + 1) page).outlet =
        some (r.ticket + 1, page) := Router.outlet_install rfl page
    exact ⟨fun _ => ⟨page, rfl⟩, fun _ => ⟨page, hnewest⟩⟩
  | error e =>
    constructor
    · rintro ⟨page, hpage⟩
      exact absurd hpage (hold page)
    · rintro ⟨page, hpage⟩
      cases hpage

/-- An order is shown. -/
theorem visit_shows_order :
    (∃ page, (Router.mounted.visit (build [⟨"/orders/:id".toList, fun context => .ok (context.params "id".toList)⟩]
        (fun _ => .error ()) "/orders/7%20b".toList [])).outlet = some (1, page)) ↔
      Serves [⟨"/orders/:id".toList, fun context => .ok (context.params "id".toList)⟩]
        (fun _ => .error ()) "/orders/7%20b".toList [] :=
  visit_shows_iff _ _ _ _ .mounted

/-- A link that lost its end leaves an empty page, although every page can be built. -/
theorem visit_shows_nothing :
    ¬ ∀ (routes : List (Route Empty Unit)) (notFound : RouteContext → Except Empty Unit) (path query : Text),
      ∃ page, (Router.mounted.visit (build routes notFound path query)).outlet = some (1, page) := by
  intro h
  obtain ⟨page, hpage⟩ := h [⟨"/orders/:id".toList, fun _ => .ok ()⟩] (fun _ => .ok ()) "/orders/100%".toList []
  have hempty : (Router.mounted.visit (build (ε := Empty) [⟨"/orders/:id".toList, fun _ => .ok ()⟩] (fun _ => .ok ())
      "/orders/100%".toList [])).outlet = none := rfl
  rw [hempty] at hpage
  cases hpage

example : decodeURIComponent "d%C3%B6ner%20%".toList = none ∧
    decodeURIComponent "d%C3%B6ner".toList = some "döner".toList := by decide +kernel

end Visit

end Doenerstag
