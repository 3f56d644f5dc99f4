import Doenerstag.Go.Strings

/-!
# Answering a GET request (`net/http`)

Headers, and what `http.ServeContent` answers for a file that has no modification time. Its conditions
look at the entity tag that the handler has set, a `Range` picks parts of the file.

* `serveContent` — `http.ServeContent`; the type and the lengths of the content are left out.
* `serveContent_fair_iff` — **when whoever is sent the file is sent all of it, and nothing but the file is
  sent with the handler's headers.**
-/

namespace Doenerstag

/-! ## Headers -/

/-- `http.Header`, with one value each; the keys are in their canonical form. -/
abbrev Header := List (String × String)

def Header.value (h : Header) (key : String) : String :=
  ((h.find? fun p => p.1 == key).map Prod.snd).getD ""

def Header.set (h : Header) (key value : String) : Header := (key, value) :: h.filter fun p => p.1 != key

def Header.del (h : Header) (key : String) : Header := h.filter fun p => p.1 != key

theorem Header.value_set_self (h : Header) (key value : String) : (h.set key value).value key = value := by
  unfold Header.set Header.value
  rw [List.find?_cons, beq_self_eq_true]
  rfl

theorem Header.value_del_self (h : Header) (key : String) : (h.del key).value key = "" := by
  unfold Header.del Header.value
  rw [List.find?_eq_none.mpr fun p hp => by simpa using (List.mem_filter.mp hp).2]
  rfl

theorem Header.value_del_of_ne (h : Header) {key other : String} (hne : other ≠ key) :
    (h.del other).value key = h.value key := by
  unfold Header.del Header.value
  rw [List.find?_filter]
  congr 3
  funext p
  by_cases hp : p.1 = key
  · simp [hp, Ne.symm hne]
  · simp [hp]

theorem Header.value_set_of_ne (h : Header) {key other : String} (hne : other ≠ key) (value : String) :
    (h.set other value).value key = h.value key := by
  unfold Header.set Header.value
  rw [List.find?_cons, beq_false_of_ne hne]
  exact h.value_del_of_ne hne

/-- What is read of a GET request; a header that is not there is empty. -/
structure Get where
  path : Text
  ifMatch : Text
  ifNoneMatch : Text
  ifRange : Text
  range : Text
  deriving DecidableEq, Repr

/-- A GET request without conditions -/
def Get.plain (path : Text) : Get := { path, ifMatch := [], ifNoneMatch := [], ifRange := [], range := [] }

/-! ## Conditions -/

/-- `textproto.TrimString` -/
def trimString (s : Text) : Text :=
  let space := fun c : Char => c == ' ' || c == '\t' || c == '\n' || c == '\r'
  ((s.dropWhile space).reverse.dropWhile space).reverse

def isETagChar (c : Char) : Bool :=
  c.toNat == 0x21 || 0x23 ≤ c.toNat && c.toNat ≤ 0x7E || 0x80 ≤ c.toNat

/-- `scanETag`: the first entity tag, and what follows it. -/
def scanETag (s : Text) : Option (Text × Text) :=
  let s := trimString s
  let (weak, quoted) := if "W/".toList.isPrefixOf s then (s.take 2, s.drop 2) else ([], s)
  match quoted with
  | '"' :: rest =>
    match rest.dropWhile isETagChar with
    | '"' :: remain => some (weak ++ '"' :: rest.takeWhile isETagChar ++ ['"'], remain)
    | _ => none
  | _ => none

def etagStrongMatch (a b : Text) : Bool := a == b && a.head? == some '"'

def trimWeak (s : Text) : Text := if "W/".toList.isPrefixOf s then s.drop 2 else s

def etagWeakMatch (a b : Text) : Bool := trimWeak a == trimWeak b

/-- The entity tags of a list, until one passes; `*` passes. -/
def anyETag (passes : Text → Bool) : Nat → Text → Bool
  | 0, _ => false
  | fuel + 1, s =>
    match trimString s with
    | [] => false
    | ',' :: rest => anyETag passes fuel rest
    | '*' :: _ => true
    | trimmed =>
      match scanETag trimmed with
      | none => false
      | some (etag, remain) => passes etag || anyETag passes fuel remain

/-- `checkIfMatch`, where it fails -/
def ifMatchFails (r : Get) (etag : Text) : Bool :=
  r.ifMatch ≠ [] && !anyETag (fun candidate => etagStrongMatch candidate etag) (r.ifMatch.length + 1) r.ifMatch

/-- `checkIfNoneMatch`, where it fails -/
def ifNoneMatchFails (r : Get) (etag : Text) : Bool :=
  r.ifNoneMatch ≠ [] &&
    anyETag (fun candidate => etagWeakMatch candidate etag) (r.ifNoneMatch.length + 1) r.ifNoneMatch

/-- `checkIfRange`, where it fails: a date does not match a file without a modification time. -/
def ifRangeFails (r : Get) (etag : Text) : Bool :=
  r.ifRange ≠ [] &&
    match scanETag r.ifRange with
    | some (candidate, _) => !etagStrongMatch candidate etag
    | none => true

/-- The `Range` header, where `If-Range` does not fail -/
def rangeAsked (r : Get) (etag : Text) : Text := if ifRangeFails r etag then [] else r.range

/-! ## Ranges -/

structure HttpRange where
  start : Nat
  length : Nat
  deriving DecidableEq, Repr

inductive RangeError where
  | invalid
  | noOverlap
  deriving DecidableEq, Repr

/-- One range of a `Range` header; none when it begins after the content. -/
def parseRangeSpec (size : Nat) (ra : Text) : Except RangeError (Option HttpRange) :=
  match cut '-' ra with
  | none => .error .invalid
  | some (first, last) =>
    let (first, last) := (trimString first, trimString last)
    if first = [] then
      -- the last bytes, as many as the number says
      if last = [] ∨ last.head? = some '-' then .error .invalid
      else
        match parseInt64 last with
        | some (.ofNat n) => .ok (some { start := size - n, length := size - (size - n) })
        | _ => .error .invalid
    else
      match parseInt64 first with
      | some (.ofNat start) =>
        if size ≤ start then .ok none
        else if last = [] then .ok (some { start, length := size - start })
        else
          match parseInt64 last with
          | some (.ofNat stop) =>
            if stop < start then .error .invalid
            else .ok (some { start, length := min stop (size - 1) - start + 1 })
          | _ => .error .invalid
      | _ => .error .invalid

/-- `parseRange` -/
def parseRange (s : Text) (size : Nat) : Except RangeError (List HttpRange) :=
  if s = [] then .ok []
  else if "bytes=".toList.isPrefixOf s then do
    let specs := (((s.drop 6).splitOn ',').map trimString).filter (· ≠ [])
    let ranges ← specs.mapM (parseRangeSpec size)
    if (ranges.filterMap id).isEmpty && !ranges.isEmpty then .error .noOverlap
    else .ok (ranges.filterMap id)
  else .error .invalid

def HttpRange.of (r : HttpRange) (content : List UInt8) : List UInt8 := (content.drop r.start).take r.length

/-! ## The answer -/

/-- What is written after the headers; `ε` is how an error is written. -/
inductive Body (ε : Type) where
  | empty
  | text (text : String)
  | data (data : List UInt8)
  /-- `multipart/byteranges`; its boundary is drawn at random -/
  | parts (boundary : Text) (parts : List (List UInt8))
  | error (e : ε)
  deriving DecidableEq, Repr

structure Response (ε : Type) where
  status : Nat
  header : Header
  body : Body ε
  deriving DecidableEq, Repr

variable {ε : Type}

/-- A 2xx status -/
def Response.succeeded (r : Response ε) : Prop := 200 ≤ r.status ∧ r.status < 300

instance (r : Response ε) : Decidable r.succeeded := inferInstanceAs (Decidable (_ ∧ _))

/-- `http.NotFound` -/
def notFound (h : Header) : Response ε :=
  { status := 404
    header := (h.set "Content-Type" "text/plain; charset=utf-8").set "X-Content-Type-Options" "nosniff"
    body := .text "404 page not found\n" }

/-- The headers that an error of `ServeContent` takes away. -/
def serveError (h : Header) (text : String) (status : Nat) : Response ε :=
  { status
    header := (((h.del "Cache-Control").del "Content-Encoding").del "Etag").del "Last-Modified"
    body := .text text }

def sumRangesSize (ranges : List HttpRange) : Nat := ranges.foldl (fun size range => size + range.length) 0

/-- `http.ServeContent`, without a modification time -/
def serveContent (h : Header) (r : Get) (content : List UInt8) (boundary : Text) : Response ε :=
  let etag := (h.value "Etag").toList
  if ifMatchFails r etag then { status := 412, header := h, body := .empty }
  else if ifNoneMatchFails r etag then { status := 304, header := h, body := .empty }
  else
    match parseRange (rangeAsked r etag) content.length with
    | .error .invalid => serveError h "invalid range" 416
    | .error .noOverlap =>
      -- some clients ask every file for a range
      if content = [] then { status := 200, header := h, body := .data content }
      else serveError h "invalid range: failed to overlap" 416
    | .ok ranges =>
      if content.length < sumRangesSize ranges then
        { status := 200, header := h, body := .data content }
      else
        match ranges with
        | [] => { status := 200, header := h, body := .data content }
        | [range] => { status := 206, header := h, body := .data (range.of content) }
        | ranges => { status := 206, header := h, body := .parts boundary (ranges.map (·.of content)) }

/-! ## What is sent -/

/-- What goes out under that `Cache-Control` is a success or a 304, and a success is the whole content. -/
structure Response.Fair (cacheControl : String) (content : List UInt8) (answer : Response ε) : Prop where
  marked : answer.header.value "Cache-Control" = cacheControl → answer.succeeded ∨ answer.status = 304
  whole : answer.succeeded → answer.body = .data content

/-- The ranges that are asked for are the whole content, or are not answered as ranges. -/
def Get.asksWhole (r : Get) (etag : Text) (content : List UInt8) : Bool :=
  match parseRange (rangeAsked r etag) content.length with
  | .error _ => true
  | .ok ranges =>
    content.length < sumRangesSize ranges ||
      match ranges with
      | [] => true
      | [range] => range.of content == content
      | _ => false

section Fair

variable {h : Header} {cacheControl : String} {content : List UInt8}

theorem fair_sent {status : Nat} (hstatus : 200 ≤ status ∧ status < 300) :
    ({ status, header := h, body := .data content } : Response ε).Fair cacheControl content where
  marked := fun _ => .inl hstatus
  whole := fun _ => rfl

theorem fair_failed {header : Header} {status : Nat} {body : Body ε} (hstatus : 300 ≤ status)
    (hmarked : header.value "Cache-Control" = cacheControl → status = 304) :
    ({ status, header, body } : Response ε).Fair cacheControl content where
  marked := fun h => .inr (hmarked h)
  whole := fun h => absurd h.2 (not_lt.mpr hstatus)

theorem serveError_fair (hne : cacheControl ≠ "") (text : String) :
    (serveError h text 416 : Response ε).Fair cacheControl content := by
  apply fair_failed (by decide)
  intro hmarked
  have hdeleted : ((((h.del "Cache-Control").del "Content-Encoding").del "Etag").del
      "Last-Modified").value "Cache-Control" = "" := by
    rw [Header.value_del_of_ne _ (by decide), Header.value_del_of_ne _ (by decide),
      Header.value_del_of_ne _ (by decide), Header.value_del_self]
  exact absurd (hdeleted.symm.trans hmarked).symm hne

/-- **Whoever is sent the file is sent all of it, and nothing but the file is sent with the handler's
`Cache-Control`**, if and only if `If-Match` does not fail and no part of the file is asked for. -/
theorem serveContent_fair_iff (hset : h.value "Cache-Control" = cacheControl) (hne : cacheControl ≠ "")
    (r : Get) (boundary : Text) :
    (serveContent h r content boundary : Response ε).Fair cacheControl content ↔
      ifMatchFails r (h.value "Etag").toList = false ∧
        (ifNoneMatchFails r (h.value "Etag").toList = true ∨
          r.asksWhole (h.value "Etag").toList content = true) := by
  unfold serveContent Get.asksWhole
  generalize (h.value "Etag").toList = etag
  by_cases hmatch : ifMatchFails r etag = true
  · rw [if_pos hmatch]
    refine iff_of_false (fun hfair => ?_) fun h => absurd (h.1.symm.trans hmatch) Bool.false_ne_true
    rcases hfair.marked hset with hok | hunchanged
    · exact absurd hok.2 (show ¬ 412 < 300 by decide)
    · exact absurd hunchanged (show ¬ 412 = 304 by decide)
  rw [if_neg hmatch, Bool.not_eq_true] at *
  by_cases hnone : ifNoneMatchFails r etag = true
  · rw [if_pos hnone]
    exact iff_of_true (fair_failed (by decide) fun _ => rfl) ⟨hmatch, .inl hnone⟩
  rw [if_neg hnone]
  have hreduce : ∀ {p : Prop} {b : Bool}, (p ↔ b = true) →
      (p ↔ ifMatchFails r etag = false ∧ (ifNoneMatchFails r etag = true ∨ b = true)) := by
    intro p b hp
    rw [hp]
    exact ⟨fun h => ⟨hmatch, .inr h⟩, fun h => h.2.resolve_left hnone⟩
  apply hreduce
  generalize parseRange (rangeAsked r etag) content.length = asked
  cases asked with
  | error e =>
    cases e with
    | invalid => exact iff_of_true (serveError_fair hne _) rfl
    | noOverlap =>
      dsimp only
      split_ifs
      · exact iff_of_true (fair_sent (by decide)) rfl
      · exact iff_of_true (serveError_fair hne _) rfl
  | ok ranges =>
    dsimp only
    by_cases hmore : content.length < sumRangesSize ranges
    · rw [if_pos hmore, decide_eq_true hmore, Bool.true_or]
      exact iff_of_true (fair_sent (by decide)) rfl
    rw [if_neg hmore, decide_eq_false hmore, Bool.false_or]
    cases ranges with
    | nil => exact iff_of_true (fair_sent (by decide)) rfl
    | cons range rest =>
      cases rest with
      | nil =>
        dsimp only
        rw [beq_iff_eq]
        constructor
        · intro hfair
          exact Body.data.inj (hfair.whole ⟨show 200 ≤ 206 by decide, show 206 < 300 by decide⟩)
        · intro hwhole
          rw [hwhole]
          exact fair_sent (by decide)
      | cons _ _ =>
        refine iff_of_false (fun hfair => ?_) Bool.false_ne_true
        cases hfair.whole ⟨show 200 ≤ 206 by decide, show 206 < 300 by decide⟩

/-- Who asks for a file without conditions asks for all of it. -/
theorem plain_asksWhole (path etag : Text) (content : List UInt8) :
    ifMatchFails (.plain path) etag = false ∧ (Get.plain path).asksWhole etag content = true := by
  have hnone : parseRange (rangeAsked (.plain path) etag) content.length = .ok [] := rfl
  refine ⟨rfl, ?_⟩
  unfold Get.asksWhole
  rw [hnone]
  exact Bool.or_true _

end Fair

end Doenerstag
