import Doenerstag.Api.OrderBody
import Doenerstag.Frontend.Money
import Doenerstag.Frontend.OrderPage

/-!
# The menu beside an order (`frontend/src/pages/order/index.ts`, `context.ts`)

The page of an order loads the menu once, for the order as it first was: the restaurant, its categories and dishes,
with a verdict for each at the time of fulfilment, and the format of its prices. A refresh replaces the order alone.

* `MenuPage.Step` — the steps of `OrderPage`, the requests for the menu, and the changes of menus.
* `MenuPage.MenuOfOrder` — the menu is that of the order that the page shows.
* `MenuPage.Unmoved` — an order that arrives is of the same restaurant, in the same currency, for the same time.
* `Consistent.step` — **such a step keeps all that the page has, or has asked for, that of its order.**
* `menu_of_order` — **so that the menu is, once all requests are answered and no menu has changed since.**
-/

namespace Doenerstag

/-! ## Menus -/

structure Currency where
  code : String
  minorUnit : ℕ
  minorPerMajor : Option ℤ
  deriving DecidableEq, Repr

def defaultMoneyFormat : MoneyFormat := { digits := 2, perMajor := 100 }

def moneyFormatOf (currencies : List Currency) (code : String) : MoneyFormat :=
  match currencies.find? fun candidate => candidate.code == code with
  | none => defaultMoneyFormat
  | some currency =>
    { digits := currency.minorUnit, perMajor := currency.minorPerMajor.getD (10 ^ currency.minorUnit) }

/-- What the server answers the requests of the page with -/
structure Menus (R C I : Type) where
  /-- `GET /restaurants/{id}` -/
  restaurant : String → R
  /-- `GET /restaurants/{id}/categories` -/
  categories : String → List C
  /-- `menuPath`: the dishes of a restaurant, with their verdicts at a time -/
  menuItems : String → String → List I

/-- What `ctx` has beside the order -/
structure MenuParts (R C I : Type) where
  restaurant : R
  moneyFormat : MoneyFormat
  categoryList : List C
  menuItems : List I

/-- The menus, by the number of changes to them, that an answer was taken from -/
structure Seen where
  restaurant : ℕ
  categories : ℕ
  menuItems : ℕ
  deriving DecidableEq, Repr

section Menus

variable {R C I : Type} (menus : ℕ → Menus R C I) (currencies : List Currency)

/-- What belongs to an order, in these menus -/
def partsSeen (seen : Seen) (order : OrderHeaderBody) : MenuParts R C I :=
  { restaurant := (menus seen.restaurant).restaurant order.restaurantID
    moneyFormat := moneyFormatOf currencies order.currencyCode
    categoryList := (menus seen.categories).categories order.restaurantID
    menuItems := (menus seen.menuItems).menuItems order.restaurantID order.fulfilmentAt }

/-- The orders are of one restaurant, in one currency, for one time. -/
structure SameMenu (o o' : OrderHeaderBody) : Prop where
  restaurantID : o'.restaurantID = o.restaurantID
  fulfilmentAt : o'.fulfilmentAt = o.fulfilmentAt
  currencyCode : o'.currencyCode = o.currencyCode

theorem SameMenu.refl (o : OrderHeaderBody) : SameMenu o o := ⟨rfl, rfl, rfl⟩

theorem SameMenu.trans {o o' o'' : OrderHeaderBody} (h : SameMenu o o') (h' : SameMenu o' o'') : SameMenu o o'' :=
  ⟨h'.restaurantID.trans h.restaurantID, h'.fulfilmentAt.trans h.fulfilmentAt, h'.currencyCode.trans h.currencyCode⟩

theorem SameMenu.partsSeen {o o' : OrderHeaderBody} (h : SameMenu o o') (seen : Seen) :
    partsSeen menus currencies seen o' = partsSeen menus currencies seen o := by
  unfold Doenerstag.partsSeen
  rw [h.restaurantID, h.fulfilmentAt, h.currencyCode]

end Menus

/-! ## The page -/

/-- The page with its menu. A request is told by the order that it was sent for, and by the menus at that moment. -/
structure MenuPage (R C I : Type) where
  page : OrderPage
  /-- the number of changes to the menus -/
  version : ℕ
  /-- the requests that are sent once the order is there -/
  loading : Option (ℕ × ℕ)
  /-- none before these are answered -/
  parts : Option (MenuParts R C I)
  seen : Seen
  /-- the requests of `reloadMenu` -/
  reloads : List (ℕ × ℕ)

namespace MenuPage

variable {R C I : Type}

def opening (server version : ℕ) : MenuPage R C I :=
  { page := .opening server, version, loading := none, parts := none, seen := ⟨0, 0, 0⟩, reloads := [] }

/-- What can happen next; `orders` are the order after each of its changes. The requests that are sent together are
each answered at some moment before all of them have arrived. -/
inductive Step (menus : ℕ → Menus R C I) (currencies : List Currency) (orders : ℕ → OrderHeaderBody) :
    MenuPage R C I → MenuPage R C I → Prop where
  /-- somebody changes a menu -/
  | edited (q : MenuPage R C I) : Step menus currencies orders q { q with version := q.version + 1 }
  /-- the order is there, and its menu is asked for -/
  | first {q : MenuPage R C I} {p : OrderPage} {v : ℕ} (hstep : OrderPage.Step q.page p)
      (hearly : q.page.order = none) (horder : p.order = some v) :
      Step menus currencies orders q { q with page := p, loading := some (v, q.version) }
  /-- all that was asked for has arrived, and the page is laid out -/
  | loaded {q : MenuPage R C I} {v sent : ℕ} {seen : Seen} (hloading : q.loading = some (v, sent))
      (hseen : ∀ k ∈ [seen.restaurant, seen.categories, seen.menuItems], sent ≤ k ∧ k ≤ q.version) :
      Step menus currencies orders q
        { q with loading := none, parts := some (partsSeen menus currencies seen (orders v)), seen }
  /-- something else happens to the order or its stream, which is there once the page is laid out -/
  | page {q : MenuPage R C I} {p : OrderPage} (hstep : OrderPage.Step q.page p)
      (hearly : q.page.order = none → p.order = none) (hstream : p.stream ≠ none → q.parts ≠ none) :
      Step menus currencies orders q { q with page := p }
  /-- a dish was saved -/
  | reload {q : MenuPage R C I} {v : ℕ} (hlaid : q.parts ≠ none) (horder : q.page.order = some v) :
      Step menus currencies orders q { q with reloads := q.reloads ++ [(v, q.version)] }
  /-- both answers for `reloadMenu` have arrived -/
  | reloaded {q : MenuPage R C I} {before after : List (ℕ × ℕ)} {v sent : ℕ} {parts : MenuParts R C I}
      {categories menuItems : ℕ} (hreloads : q.reloads = before ++ (v, sent) :: after) (hparts : q.parts = some parts)
      (hseen : ∀ k ∈ [categories, menuItems], sent ≤ k ∧ k ≤ q.version) :
      Step menus currencies orders q
        { q with
          reloads := before ++ after
          parts := some
            { parts with
              categoryList := (menus categories).categories (orders v).restaurantID
              menuItems := (menus menuItems).menuItems (orders v).restaurantID (orders v).fulfilmentAt }
          seen := { q.seen with categories, menuItems } }

/-- Every request has been answered. -/
def AllAnswered (q : MenuPage R C I) : Prop := q.page.fetches = [] ∧ q.loading = none ∧ q.reloads = []

/-- The menus are as they were when the page saw them. -/
def Unchanged (menus : ℕ → Menus R C I) (q : MenuPage R C I) : Prop :=
  ∀ k ∈ [q.seen.restaurant, q.seen.categories, q.seen.menuItems], menus k = menus q.version

/-- What the page has is that of its order. -/
def MenuOfOrder (menus : ℕ → Menus R C I) (currencies : List Currency) (orders : ℕ → OrderHeaderBody)
    (q : MenuPage R C I) : Prop :=
  ∀ v, q.page.order = some v →
    q.parts = some (partsSeen menus currencies ⟨q.version, q.version, q.version⟩ (orders v))

/-- An order that takes the place of another one has the same menu. -/
def Unmoved (orders : ℕ → OrderHeaderBody) (q q' : MenuPage R C I) : Prop :=
  ∀ v w, q.page.order = some v → q'.page.order = some w → SameMenu (orders v) (orders w)

/-! ## What the page has asked for -/

variable {menus : ℕ → Menus R C I} {currencies : List Currency} {orders : ℕ → OrderHeaderBody}
  {q q' : MenuPage R C I}

/-- What the page has, or has asked for, is that of its order, in the menus that it saw. -/
structure Consistent (menus : ℕ → Menus R C I) (currencies : List Currency) (orders : ℕ → OrderHeaderBody)
    (q : MenuPage R C I) : Prop where
  early : q.page.order = none → q.reloads = []
  loading : ∀ u sent v, q.loading = some (u, sent) → q.page.order = some v → SameMenu (orders u) (orders v)
  parts : ∀ v, q.page.order = some v → q.loading = none →
    q.parts = some (partsSeen menus currencies q.seen (orders v))
  reloads : ∀ r ∈ q.reloads, ∀ v, q.page.order = some v → SameMenu (orders r.1) (orders v)

/-- An order stays on the page. -/
theorem order_stays {p p' : OrderPage} (h : OrderPage.Step p p') {v : ℕ} (hv : p.order = some v) :
    ∃ w, p'.order = some w := by
  cases h with
  | arrive => exact ⟨_, rfl⟩
  | @opened s =>
    unfold OrderPage.onOpen
    split_ifs <;> exact ⟨v, hv⟩
  | _ => exact ⟨v, hv⟩

theorem Consistent.opening (server version : ℕ) : Consistent menus currencies orders (.opening server version) where
  early _ := rfl
  loading := by rintro u sent v ⟨⟩
  parts := by rintro v ⟨⟩
  reloads := by rintro r ⟨⟩

/-- **A step that leaves the order where it is** keeps all that the page has, or has asked for, that of its order. -/
theorem Consistent.step (h : Consistent menus currencies orders q) (hstep : Step menus currencies orders q q')
    (hunmoved : Unmoved orders q q') : Consistent menus currencies orders q' := by
  cases hstep with
  | edited => exact ⟨h.early, h.loading, h.parts, h.reloads⟩
  | @first p v hstep hearly horder =>
    constructor
    case early => exact fun hnone => absurd (horder.symm.trans hnone) (Option.some_ne_none v)
    case loading =>
      rintro u sent w ⟨⟩ hw
      obtain rfl := Option.some.inj (horder.symm.trans hw)
      exact .refl _
    case parts => exact fun w _ hnone => absurd hnone (Option.some_ne_none _)
    case reloads =>
      intro r hr
      rw [show q.reloads = [] from h.early hearly] at hr
      cases hr
  | @loaded u sent seen hloading hseen =>
    constructor
    case early => exact h.early
    case loading => rintro u sent w ⟨⟩
    case parts =>
      exact fun v hv _ => congrArg some ((h.loading u sent v hloading hv).partsSeen menus currencies seen).symm
    case reloads => exact h.reloads
  | @page p hstep hearly hstream =>
    -- the order that was there before has the menu of the one that is there now
    have hbefore : ∀ w, p.order = some w → ∃ v, q.page.order = some v ∧ SameMenu (orders v) (orders w) := by
      intro w hw
      cases hv : q.page.order with
      | none => exact absurd ((hearly hv).symm.trans hw) (Option.some_ne_none w).symm
      | some v => exact ⟨v, rfl, hunmoved v w hv hw⟩
    constructor
    case early =>
      intro hnone
      refine h.early ?_
      cases hv : q.page.order with
      | none => rfl
      | some v =>
        obtain ⟨w, hw⟩ := order_stays hstep hv
        exact absurd (hw.symm.trans hnone) (Option.some_ne_none w)
    case loading =>
      intro u sent w hu hw
      obtain ⟨v, hv, hsame⟩ := hbefore w hw
      exact (h.loading u sent v hu hv).trans hsame
    case parts =>
      intro w hw hnone
      obtain ⟨v, hv, hsame⟩ := hbefore w hw
      rw [hsame.partsSeen]
      exact h.parts v hv hnone
    case reloads =>
      intro r hr w hw
      obtain ⟨v, hv, hsame⟩ := hbefore w hw
      exact (h.reloads r hr v hv).trans hsame
  | @reload v hlaid horder =>
    constructor
    case early => exact fun hnone => absurd (horder.symm.trans hnone) (Option.some_ne_none v)
    case loading => exact h.loading
    case parts => exact h.parts
    case reloads =>
      intro r hr w hw
      obtain hr | hr := List.mem_append.mp hr
      · exact h.reloads r hr w hw
      · obtain rfl := List.mem_singleton.mp hr
        obtain rfl := Option.some.inj (horder.symm.trans hw)
        exact .refl _
  | @reloaded before after u sent parts categories menuItems hreloads hparts hseen =>
    have hmem : (u, sent) ∈ q.reloads := hreloads ▸ List.mem_append_right _ List.mem_cons_self
    constructor
    case early =>
      intro hnone
      rw [h.early hnone] at hmem
      cases hmem
    case loading => exact h.loading
    case parts =>
      intro v hv hnone
      obtain rfl := Option.some.inj (hparts.symm.trans (h.parts v hv hnone))
      have hsame := h.reloads (u, sent) hmem v hv
      unfold partsSeen
      rw [hsame.restaurantID, hsame.fulfilmentAt]
    case reloads =>
      intro r hr
      refine h.reloads r (hreloads ▸ ?_)
      obtain hr | hr := List.mem_append.mp hr
      · exact List.mem_append_left _ hr
      · exact List.mem_append_right _ (List.mem_cons_of_mem _ hr)

end MenuPage

open MenuPage in
/-- **The menu is that of the order.** In every run in which no order arrives that is of another restaurant, in
another currency or for another time than the one before, all that the page has is that of its order once every
request has been answered and no menu has changed since. -/
theorem menu_of_order {R C I : Type} {server version : ℕ} {menus : ℕ → Menus R C I} {currencies : List Currency}
    {orders : ℕ → OrderHeaderBody} {q : MenuPage R C I}
    (hrun : Transition.Run (Step menus currencies orders) (Unmoved orders) (opening server version) q)
    (hanswered : q.AllAnswered) (hunchanged : q.Unchanged menus) : q.MenuOfOrder menus currencies orders := by
  have hconsistent : Consistent menus currencies orders q :=
    hrun.invariant (fun _ _ hstep hunmoved h => h.step hstep hunmoved) (.opening server version)
  obtain ⟨-, hloaded, -⟩ := hanswered
  intro v hv
  rw [hconsistent.parts v hv hloaded]
  unfold partsSeen
  rw [hunchanged _ (by simp), hunchanged q.seen.categories (by simp), hunchanged q.seen.menuItems (by simp)]

/-! ## A lunch that is put off -/

section PutOff

open MenuPage

/-- The menu has the dishes of the time that it is for. -/
def dailyMenus : ℕ → Menus String String String := fun _ =>
  { restaurant := id, categories := fun _ => [], menuItems := fun _ time => [time] }

/-- An order of the bistro, by when it is fulfilled and when it closes -/
def bistroOrder (fulfilmentAt deadlineAt : String) : OrderHeaderBody :=
  { id := "6", title := "Bistro", restaurantID := "2", restaurantName := "Bistro", restaurantLogo := none
    fulfilment := "pickup", fulfilmentAt, deadlineAt, status := "active", currencyCode := "EUR"
    minOrderValueCents := none, deliveryFeeCents := none, itemCount := 0, createdAt := "Monday", updatedAt := "Monday" }

/-- The page when the order has been changed once, and fetched again -/
def changedPage (orders : ℕ → OrderHeaderBody) : MenuPage String String String :=
  { page := { server := 1, order := some 1, stream := some ⟨true, true, 0⟩, fetches := [] }
    version := 0, loading := none, parts := some (partsSeen dailyMenus [] ⟨0, 0, 0⟩ (orders 0)), seen := ⟨0, 0, 0⟩
    reloads := [] }

/-- The page is opened, and the order is changed while its stream is open. -/
theorem change_order {C : MenuPage String String String → MenuPage String String String → Prop}
    {orders : ℕ → OrderHeaderBody} (hC : ∀ q q', C q q') :
    Transition.Run (Step dailyMenus [] orders) C (opening 0 0) (changedPage orders) := by
  have hfetched : Transition.Run (Step dailyMenus [] orders) C (opening 0 0)
      { opening 0 0 with page := { OrderPage.opening 0 with fetches := [some 0] } } :=
    (Transition.Run.refl _).tail (.page (@OrderPage.Step.answer (.opening 0) [] [] rfl) id (absurd rfl)) (hC _ _)
  have hasked : Transition.Run (Step dailyMenus [] orders) C (opening 0 0)
      { opening 0 0 with page := loadedPage, loading := some (0, 0) } :=
    hfetched.tail (.first (@OrderPage.Step.arrive _ [] [] 0 rfl) rfl rfl) (hC _ _)
  have hlaid : Transition.Run (Step dailyMenus [] orders) C (opening 0 0)
      { page := loadedPage, version := 0, loading := none
        parts := some (partsSeen dailyMenus [] ⟨0, 0, 0⟩ (orders 0)), seen := ⟨0, 0, 0⟩, reloads := [] } :=
    hasked.tail (.loaded rfl (by decide)) (hC _ _)
  have hpage {q : MenuPage String String String} {p : OrderPage} {v : ℕ} (hrun : Transition.Run _ C (opening 0 0) q)
      (hstep : OrderPage.Step q.page p) (horder : q.page.order = some v) (hparts : q.parts ≠ none) :
      Transition.Run (Step dailyMenus [] orders) C (opening 0 0) { q with page := p } :=
    hrun.tail (.page hstep (fun hnone => absurd (horder.symm.trans hnone) (Option.some_ne_none v)) fun _ => hparts)
      (hC _ _)
  have hsubscribed := hpage (v := 0) hlaid (.subscribe (Option.some_ne_none 0) rfl) rfl (Option.some_ne_none _)
  have hopened := hpage (v := 0) hsubscribed (.opened (s := OrderPage.subscribed) rfl rfl) rfl (Option.some_ne_none _)
  have hchanged := hpage (v := 0) hopened (.commit _) rfl (Option.some_ne_none _)
  have hheard := hpage (v := 0) hchanged (.event (s := ⟨true, true, 1⟩) rfl (by decide)) rfl (Option.some_ne_none _)
  have hanswered := hpage (v := 0) hheard (@OrderPage.Step.answer _ [] [] rfl) rfl (Option.some_ne_none _)
  exact hpage (v := 0) hanswered (@OrderPage.Step.arrive _ [] [] 1 rfl) rfl (Option.some_ne_none _)

/-- When its deadline is moved, the menu is still that of the order. -/
theorem menu_of_order_later :
    Transition.Run (Step dailyMenus [] (bistroOrder "Thursday" ∘ toString)) (Unmoved (bistroOrder "Thursday" ∘ toString))
        (opening 0 0) (changedPage (bistroOrder "Thursday" ∘ toString)) ∧
      (changedPage (bistroOrder "Thursday" ∘ toString)).MenuOfOrder dailyMenus []
        (bistroOrder "Thursday" ∘ toString) := by
  have hrun : Transition.Run (Step dailyMenus [] (bistroOrder "Thursday" ∘ toString))
      (Unmoved (bistroOrder "Thursday" ∘ toString)) (opening 0 0) (changedPage (bistroOrder "Thursday" ∘ toString)) :=
    change_order fun _ _ _ _ _ _ => ⟨rfl, rfl, rfl⟩
  exact ⟨hrun, menu_of_order hrun ⟨rfl, rfl, rfl⟩ fun _ _ => rfl⟩

/-- When the order is put off to Friday, the page has the menu of Thursday. -/
theorem menu_of_order_not : ¬ ∀ (menus : ℕ → Menus String String String) (currencies : List Currency)
    (orders : ℕ → OrderHeaderBody) (server version : ℕ) (q : MenuPage String String String),
    Transition.Run (Step menus currencies orders) (fun _ _ => True) (opening server version) q →
    q.AllAnswered → q.Unchanged menus → q.MenuOfOrder menus currencies orders := by
  intro hevery
  have hmenu := hevery dailyMenus [] (fun k => bistroOrder (if k = 0 then "Thursday" else "Friday") "Wednesday") 0 0 _
    (change_order fun _ _ => trivial) ⟨rfl, rfl, rfl⟩ (fun _ _ => rfl) 1 rfl
  have hdishes := congrArg MenuParts.menuItems (Option.some.inj hmenu)
  exact absurd hdishes (by decide)

end PutOff

end Doenerstag
