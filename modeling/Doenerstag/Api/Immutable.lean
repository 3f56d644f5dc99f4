import Doenerstag.Api.Envelope
import Doenerstag.Db.Images
import Doenerstag.Go.Http
import Doenerstag.Lib.Paths

/-!
# What is sent as immutable (`internal/api/images.go`, `internal/static/static.go`)

Pictures and the embedded files go out with a `Cache-Control` that tells a browser to keep them for a
year, unasked. A picture's header is set before its bytes are read. A file keeps its name in the next
release.

* `serve`, `serveFile` — the two handlers; `target` — which of them answers a path.
* `Site` — an installation, with the releases, the databases and the answers it has had.
* `serve_fair_iff` — **when a picture's answer keeps to its header**; with `serveContent_fair_iff` for files.
* `site_immutable` — **what is sent as immutable never changes, in every run in which no payload is
  missing, no part of a file is asked for and no release changes a file.**
-/

namespace Doenerstag

open Prog ReadCommitted Tables

/-- The `Cache-Control` of what does not change -/
def immutable : String := "public, max-age=31536000, immutable"

/-- `WriteError`: whatever headers have been set stay. -/
def writeError (h : Header) (e : ApiError) : Response EnvelopeBody :=
  { status := Code.status e.code
    header := h.set "Content-Type" "application/json; charset=utf-8"
    body := .error e.body }

/-! ## Pictures -/

inductive ImageStmt where
  | metadata
  | payload
  deriving DecidableEq, Repr

def Db.imageByID (db : Db) (id : UUID) : Option ImageRow := db.images.find? fun row => row.id == id

/-- `ImageByID` -/
def imageByID (id : UUID) : DbProgram ImageStmt ImageRow :=
  (queryRow .metadata fun db => db.imageByID id).mapError scanError

/-- What `ImageData` reads of a row -/
def ImageRow.full (row : ImageRow) : String × List UInt8 := (row.mediaType, row.data)

/-- What `ThumbnailData` reads of a row -/
def ImageRow.thumb (row : ImageRow) : String × List UInt8 := (row.thumbMediaType, row.thumbData)

/-- `ImageData`, `ThumbnailData` -/
def readImage (part : ImageRow → String × List UInt8) (id : UUID) :
    DbProgram ImageStmt (String × List UInt8) :=
  (queryRow .payload fun db => (db.imageByID id).map part).mapError scanError

def imageETag (image : ImageRow) (thumbnail : Bool) : String :=
  let suffix := if thumbnail then "-t" else ""
  "\"" ++ String.ofList (image.sha256.flatMap fun b => hexDigits 2 b.toNat) ++ suffix ++ "\""

/-- `matchesETag`: `If-None-Match` against one entity tag -/
def matchesETag (header : Text) (etag : String) : Bool :=
  header ≠ [] && (header.splitOn ',').any fun candidate =>
    let candidate := trim candidate
    candidate == ['*'] || trimWeak candidate == etag.toList

/-- `ImageHandlers.serve`; a failure goes to `WriteError`, with the headers that are set. -/
def serve (rt : Runtime) (part : ImageRow → String × List UInt8) (r : Get) (idParam : String) :
    Program ImageStmt Db Time (Header × ApiError) (Response EnvelopeBody) := do
  let id ← Prog.ofExcept (match rt.parseUUID idParam with
    | some id => .ok id
    | none => .error (([], .of codeNotFound) : Header × ApiError))
  let image ← (imageByID id).mapError fun e => (([] : Header), dbError e)
  let etag := imageETag image ("/thumbnail".toList.isSuffixOf r.path)
  let header := (Header.set [] "Etag" etag).set "Cache-Control" immutable
  -- the client has these bytes
  if matchesETag r.ifNoneMatch etag then
    return { status := 304, header, body := .empty }
  let payload ← (readImage part id).mapError fun _ => (header, .of codeDatabaseUnavailable)
  let header := (header.set "Content-Type" payload.1).set "Content-Length" (toString payload.2.length)
  return { status := 200, header := header.set "X-Content-Type-Options" "nosniff", body := .data payload.2 }

/-- What is sent in the end -/
def sentAs (result : Except (Header × ApiError) (Response EnvelopeBody)) : Response EnvelopeBody :=
  match result with
  | .ok response => response
  | .error (header, e) => writeError header e

/-! ## Embedded files -/

/-- `Assets` -/
structure Assets where
  fsys : Text → Option (List UInt8)
  embedded : Bool

def Assets.setCaching (a : Assets) (h : Header) : Header :=
  if a.embedded then h.set "Cache-Control" immutable else h.set "Cache-Control" "no-store"

/-- `serveFile`; the boundary is that of a multipart answer. -/
def Assets.serveFile (a : Assets) (h : Header) (r : Get) (name boundary : Text) : Response EnvelopeBody :=
  match a.fsys name with
  | none => notFound h
  | some content => serveContent (a.setCaching h) r content boundary

/-! ## Which path is answered by whom -/

/-- `path.Clean`, of a path from the root -/
def cleanPath (path : Text) : Text :=
  let segments := (path.splitOn '/').foldl (fun done segment =>
    if segment = [] ∨ segment = ['.'] then done
    else if segment = ['.', '.'] then done.dropLast
    else done ++ [segment]) []
  '/' :: ['/'].intercalate segments

def isAPIPath (path : Text) : Bool := path == "/api".toList || "/api/".toList.isPrefixOf path

def looksLikeAFile (path : Text) : Bool := (path.reverse.takeWhile (· != '/')).contains '.'

inductive Target where
  /-- a picture, or its thumbnail -/
  | image (part : ImageRow → String × List UInt8) (id : String)
  /-- an embedded file, with the headers that are already set -/
  | file (header : Header) (name : Text)
  /-- a 404 -/
  | missing
  /-- the other endpoints, and redirects -/
  | elsewhere

/-- `SwaggerContentSecurityPolicy` -/
def swaggerContentSecurityPolicy : String :=
  "default-src 'self'; img-src 'self' data:; style-src 'self' 'unsafe-inline'; script-src 'self'; " ++
    "font-src 'self'; connect-src 'self'; frame-ancestors 'none'; base-uri 'none'; form-action 'self'"

/-- `Assets.Handler` -/
def staticTarget (path : Text) : Target :=
  let cleaned := cleanPath path
  let name := if "/static/".toList.isPrefixOf cleaned then cleaned.drop 8 else cleaned
  if name = [] ∨ name = ['.'] ∨ "..".toList.isPrefixOf name then .missing else .file [] name

/-- `/images/:id` and `/images/:id/thumbnail`, from the id on -/
def imageTarget (rest : Text) : Target :=
  match rest.splitOn '/' with
  | [id] => if id = [] then .elsewhere else .image ImageRow.full (String.ofList id)
  | [id, last] =>
    if id ≠ [] ∧ last = "thumbnail".toList then .image ImageRow.thumb (String.ofList id) else .elsewhere
  | _ => .elsewhere

/-- The router, for a GET request; without `--no-swagger` there is one route more. -/
def target (swagger : Bool) (path : Text) : Target :=
  if "/static/".toList.isPrefixOf path then staticTarget path
  else if swagger && "/tools/swagger/".toList.isPrefixOf path then
    .file (Header.set [] "Content-Security-Policy" swaggerContentSecurityPolicy)
      "swagger/index.html".toList
  else if "/api/v1/images/".toList.isPrefixOf path then imageTarget (path.drop 15)
  else if isAPIPath path || path == "/static".toList || (swagger && path == "/tools/swagger".toList) then
    .elsewhere
  else if looksLikeAFile path then .missing
  else .file [] "index.html".toList

/-! ## An installation -/

/-- A release carries its files. -/
structure Release where
  assets : Assets
  embedded : assets.embedded = true

structure Sent where
  path : Text
  response : Response EnvelopeBody

/-- An installation: the release and the database it has, the ones it had before, and what it has
answered. -/
structure Site where
  release : Release
  earlier : List Release
  world : World Db Time
  past : List (World Db Time)
  sent : List Sent

namespace Site

def releases (s : Site) : List Release := s.release :: s.earlier

def worlds (s : Site) : List (World Db Time) := s.past ++ [s.world]

def answer (s : Site) (r : Get) (response : Response EnvelopeBody) : Site :=
  { s with sent := s.sent ++ [⟨r.path, response⟩] }

/-- Nothing has happened yet. -/
structure Started (s : Site) : Prop where
  earlier : s.earlier = []
  past : s.past = []
  sent : s.sent = []
  keys : (s.world.db.images.map ImageRow.id).Nodup

end Site

inductive SiteEvent where
  | images (w : World Db Time)
  | release (new : Release)
  | image (r : Get) (steps : List (Taken ImageStmt Outcome (World Db Time)))
  | file (r : Get) (boundary : Text)
  | other (r : Get) (response : Response EnvelopeBody)

/-- The statements of a request run on states that the database has had, in their order. -/
def InOrder (worlds found : List (World Db Time)) : Prop :=
  ∃ times : List Nat, times.Pairwise (· ≤ ·) ∧ times.map (worlds[·]?) = found.map some

/-- It goes out as immutable. -/
def Response.marked {ε : Type} (r : Response ε) : Prop := r.header.value "Cache-Control" = immutable

instance {ε : Type} (r : Response ε) : Decidable r.marked := inferInstanceAs (Decidable (_ = _))

section Steps

variable (rt : Runtime) (swagger : Bool)

inductive Site.Step (s : Site) : SiteEvent → Site → Prop where
  /-- a new picture has an id that none had before it -/
  | images {w : World Db Time} (move : ImageMove s.world w)
      (fresh : ∀ row ∈ w.db.images, row ∈ s.world.db.images ∨
        ∀ p ∈ s.worlds, ∀ old ∈ p.db.images, old.id ≠ row.id) :
      Step s (.images w) { s with world := w, past := s.past ++ [s.world] }
  | release (new : Release) :
      Step s (.release new) { s with release := new, earlier := s.release :: s.earlier }
  | image {r : Get} {part : ImageRow → String × List UInt8} {id : String}
      {steps : List (Taken ImageStmt Outcome (World Db Time))}
      {result : Except (Header × ApiError) (Response EnvelopeBody)}
      (asked : target swagger r.path = .image part id) (path : (serve rt part r id).Path steps result)
      (order : InOrder s.worlds (steps.map Taken.found)) :
      Step s (.image r steps) (s.answer r (sentAs result))
  | file {r : Get} {h : Header} {name : Text} (asked : target swagger r.path = .file h name)
      (boundary : Text) :
      Step s (.file r boundary) (s.answer r (s.release.assets.serveFile h r name boundary))
  /-- the middleware refuses the request, or another handler answers it -/
  | other {r : Get} {response : Response EnvelopeBody} (unmarked : ¬ response.marked)
      (why : 400 ≤ response.status ∨ target swagger r.path = .missing ∨ target swagger r.path = .elsewhere) :
      Step s (.other r response) (s.answer r response)

/-- Every payload that was read was there. -/
def PayloadRead (id : String) (steps : List (Taken ImageStmt Outcome (World Db Time))) : Prop :=
  ∀ t ∈ steps, t.label = .payload →
    t.outcome = .ok ∧ ∃ key, rt.parseUUID id = some key ∧ (t.found.db.imageByID key).isSome = true

/-- No payload is missing, no part of a file is asked for, and no release changes a file. -/
def Site.Fine (s : Site) : SiteEvent → Prop
  | .release new => ∀ old ∈ s.releases, ∀ name content content', old.assets.fsys name = some content →
      new.assets.fsys name = some content' → content' = content
  | .image r steps => ∀ part id, target swagger r.path = .image part id → PayloadRead rt id steps
  | .file r _ => ∀ h name content, target swagger r.path = .file h name →
      s.release.assets.fsys name = some content →
      ifMatchFails r [] = false ∧ (ifNoneMatchFails r [] = true ∨ r.asksWhole [] content = true)
  | .images _ => True
  | .other _ _ => True

end Steps

/-- **What is sent as immutable never changes**: it is a success or a 304, and from then on every success
of that path has the same body. -/
def NeverChanges (sent : List Sent) : Prop :=
  ∀ before a after, sent = before ++ a :: after → a.response.marked →
    (a.response.succeeded ∨ a.response.status = 304) ∧
      ∀ b ∈ a :: after, ∀ c ∈ a :: after, b.path = a.path → c.path = a.path →
        b.response.succeeded → c.response.succeeded → b.response.body = c.response.body

/-! ## One picture's answer -/

section Pictures

variable {rt : Runtime} {part : ImageRow → String × List UInt8} {r : Get} {idParam : String}
  {steps : List (Taken ImageStmt Outcome (World Db Time))}
  {result : Except (Header × ApiError) (Response EnvelopeBody)}

theorem writeError_failed (h : Header) (e : ApiError) : ¬ (writeError h e).succeeded := by
  intro h
  exact absurd h.2 (not_lt.mpr (le_trans (by decide) (error_status e.code)))

theorem writeError_unmarked (e : ApiError) : ¬ (writeError [] e).marked := by
  intro h
  unfold Response.marked writeError at h
  rw [Header.value_set_of_ne _ (by decide)] at h
  exact absurd h (by decide)

theorem Outcome.row_eq_ok_iff {φ β : Type} {e : Outcome} {found : Option β} {b : β} :
    (e.row found : Except (StmtError φ) β) = .ok b ↔ e = .ok ∧ found = some b := by
  cases e <;> cases found <;> simp [Outcome.row]

/-- A query for one row goes wrong, or goes on with the row. -/
theorem path_queryRow_bind {ℓ φ χ χ' α β : Type} {l : ℓ} {q : Db → Option β} {f : StmtError φ → χ}
    {g : χ → χ'} {k : β → Program ℓ Db Time χ' α} {steps : List (Taken ℓ Outcome (World Db Time))}
    {r : Except χ' α} (h : (((queryRow l q).mapError f).mapError g >>= k).Path steps r) :
    ∃ e w rest, steps = ⟨l, e, w⟩ :: rest ∧
      ((rest = [] ∧ (e ≠ .ok ∨ q w.db = none) ∧ ∃ x, r = .error (g (f x))) ∨
        ∃ b, e = .ok ∧ q w.db = some b ∧ (k b).Path rest r) := by
  unfold queryRow at h
  rw [read_mapError, read_mapError] at h
  obtain ⟨e, w, rest, hsteps, hrest⟩ := path_read_bind.mp h
  refine ⟨e, w, rest, hsteps, ?_⟩
  cases hrow : (e.row (q w.db) : Except (StmtError φ) β) with
  | error x =>
    rw [hrow] at hrest
    obtain ⟨hnil, hr⟩ := path_fail.mp hrest
    refine .inl ⟨hnil, ?_, x, hr⟩
    by_contra hnot
    rw [not_or, not_not] at hnot
    obtain ⟨b, hb⟩ := Option.ne_none_iff_exists'.mp hnot.2
    cases hrow.symm.trans (Outcome.row_eq_ok_iff.mpr ⟨hnot.1, hb⟩)
  | ok b =>
    rw [hrow] at hrest
    obtain ⟨he, hb⟩ := Outcome.row_eq_ok_iff.mp hrow
    exact .inr ⟨b, he, hb, hrest⟩

/-- What a request for a picture is answered with. -/
inductive Served (rt : Runtime) (part : ImageRow → String × List UInt8) (idParam : String)
    (steps : List (Taken ImageStmt Outcome (World Db Time))) (response : Response EnvelopeBody) : Prop where
  | refused (unmarked : ¬ response.marked) (failed : ¬ response.succeeded)
      (complete : PayloadRead rt idParam steps)
  | unchanged (marked : response.marked) (status : response.status = 304)
      (complete : PayloadRead rt idParam steps)
  | sent {t : Taken ImageStmt Outcome (World Db Time)} {key : UUID} {row : ImageRow} (taken : t ∈ steps)
      (parsed : rt.parseUUID idParam = some key) (found : t.found.db.imageByID key = some row)
      (succeeded : response.succeeded) (body : response.body = .data (part row).2)
      (complete : PayloadRead rt idParam steps)
  | unavailable (marked : response.marked) (status : response.status = 503)
      (missing : ¬ PayloadRead rt idParam steps)

theorem serve_served (h : (serve rt part r idParam).Path steps result) :
    Served rt part idParam steps (sentAs result) := by
  unfold serve at h
  cases hid : rt.parseUUID idParam with
  | none =>
    rw [hid] at h
    obtain ⟨rfl, rfl⟩ := path_fail.mp h
    exact .refused (writeError_unmarked _) (writeError_failed _ _) fun t ht => nomatch ht
  | some key =>
    rw [hid] at h
    have hasked : ∀ {e w}, PayloadRead rt idParam [⟨.metadata, e, w⟩] := by
      intro e w t ht hl
      cases List.mem_singleton.mp ht
      cases hl
    obtain ⟨key', hkey, hrest⟩ := (path_ofExcept_bind.mp h).resolve_left fun ⟨_, hx, _⟩ => by cases hx
    cases hkey
    have hquery := path_queryRow_bind hrest
    obtain ⟨e, w, rest, rfl, (⟨rfl, -, x, rfl⟩ | ⟨image, -, -, hrest⟩)⟩ := hquery
    · exact .refused (writeError_unmarked _) (writeError_failed _ _) hasked
    dsimp only at hrest
    split_ifs at hrest with hmatch
    · obtain ⟨rfl, rfl⟩ := path_done.mp hrest
      exact .unchanged (Header.value_set_self _ _ _) rfl hasked
    have hquery := path_queryRow_bind hrest
    obtain ⟨e', w', rest', rfl, (⟨rfl, hmissing, x, rfl⟩ | ⟨payload, he, hpayload, hlast⟩)⟩ := hquery
    · refine .unavailable ?_ rfl ?_
      · show Header.value (Header.set _ "Content-Type" _) "Cache-Control" = immutable
        rw [Header.value_set_of_ne _ (by decide), Header.value_set_self]
      · intro hread
        obtain ⟨hok, key', hkey, hsome⟩ := hread ⟨.payload, e', w'⟩ (by simp) rfl
        rw [hid] at hkey
        cases hkey
        rcases hmissing with hne | hnone
        · exact hne hok
        · rw [Option.map_eq_none_iff] at hnone
          rw [hnone] at hsome
          cases hsome
    · obtain ⟨rfl, rfl⟩ := path_done.mp hlast
      obtain ⟨row, hrow, rfl⟩ := Option.map_eq_some_iff.mp hpayload
      refine .sent (t := ⟨.payload, e', w'⟩) (by simp) hid hrow ⟨le_refl 200, show 200 < 300 by decide⟩ rfl ?_
      intro t ht hl
      rcases List.mem_cons.mp ht with rfl | ht
      · cases hl
      · cases List.mem_singleton.mp ht
        exact ⟨he, key, hid, by rw [hrow]; rfl⟩

/-- **A picture's answer keeps to its header** if and only if its payload was there to be read. -/
theorem serve_fair_iff (h : (serve rt part r idParam).Path steps result) :
    ((sentAs result).marked → (sentAs result).succeeded ∨ (sentAs result).status = 304) ↔
      PayloadRead rt idParam steps := by
  cases serve_served h with
  | refused unmarked _ complete => exact iff_of_true (fun hmarked => absurd hmarked unmarked) complete
  | unchanged _ status complete => exact iff_of_true (fun _ => .inr status) complete
  | sent _ _ _ succeeded _ complete => exact iff_of_true (fun _ => .inl succeeded) complete
  | unavailable marked status missing =>
    refine iff_of_false (fun hfair => ?_) missing
    rcases hfair marked with hok | hunchanged
    · exact absurd hok.2 (by rw [status]; decide)
    · exact absurd (status.symm.trans hunchanged) (by decide)

end Pictures

/-! ## The files' answers -/

section Files

variable {a : Assets} {h : Header} {r : Get} {name boundary : Text} {content : List UInt8}

theorem setCaching_marked (hembedded : a.embedded = true) :
    (a.setCaching h).value "Cache-Control" = immutable := by
  unfold Assets.setCaching
  rw [if_pos hembedded, Header.value_set_self]

theorem setCaching_etag (hetag : h.value "Etag" = "") : (a.setCaching h).value "Etag" = "" := by
  unfold Assets.setCaching
  split_ifs
  · rw [Header.value_set_of_ne _ (by decide), hetag]
  · rw [Header.value_set_of_ne _ (by decide), hetag]

theorem notFound_unmarked (hcache : h.value "Cache-Control" = "") :
    ¬ (notFound h : Response EnvelopeBody).marked := by
  intro hmarked
  unfold Response.marked notFound at hmarked
  rw [Header.value_set_of_ne _ (by decide), Header.value_set_of_ne _ (by decide), hcache] at hmarked
  exact absurd hmarked (by decide)

/-- **An embedded file's answer is fair** if and only if no `If-Match` fails and no part is asked for. -/
theorem serveFile_fair_iff (hembedded : a.embedded = true) (hetag : h.value "Etag" = "")
    (hfile : a.fsys name = some content) :
    (a.serveFile h r name boundary).Fair immutable content ↔
      ifMatchFails r [] = false ∧ (ifNoneMatchFails r [] = true ∨ r.asksWhole [] content = true) := by
  unfold Assets.serveFile
  rw [hfile]
  have hmarked : (a.setCaching h).value "Cache-Control" = immutable := setCaching_marked hembedded
  show (serveContent (a.setCaching h) r content boundary).Fair immutable content ↔ _
  rw [serveContent_fair_iff hmarked (by decide), setCaching_etag hetag]
  exact Iff.rfl

theorem imageTarget_ne_file (rest : Text) : imageTarget rest ≠ .file h name := by
  unfold imageTarget
  split
  · split_ifs <;> exact fun h => by cases h
  · split_ifs <;> exact fun h => by cases h
  · exact fun h => by cases h

/-- The router sets no entity tag and no `Cache-Control` of its own. -/
theorem target_header {swagger : Bool} {path : Text} (htarget : target swagger path = .file h name) :
    h.value "Etag" = "" ∧ h.value "Cache-Control" = "" := by
  unfold target at htarget
  split_ifs at htarget with hstatic hswagger himage
  · unfold staticTarget at htarget
    dsimp only at htarget
    split_ifs at htarget
    · cases htarget
      exact ⟨rfl, rfl⟩
    · cases htarget
      exact ⟨rfl, rfl⟩
  · cases htarget
    exact ⟨by decide, by decide⟩
  · exact absurd htarget (imageTarget_ne_file _)
  · cases htarget
    exact ⟨rfl, rfl⟩

end Files

/-! ## Runs -/

section Runs

variable {rt : Runtime} {swagger : Bool} {s s' : Site} {event : SiteEvent}

/-- A content that the site has had under a path. -/
def Site.Had (rt : Runtime) (swagger : Bool) (s : Site) (path : Text) (content : List UInt8) : Prop :=
  match target swagger path with
  | .image part id => ∃ w ∈ s.worlds, ∃ row ∈ w.db.images,
      rt.parseUUID id = some row.id ∧ (part row).2 = content
  | .file _ name => ∃ release ∈ s.releases, release.assets.fsys name = some content
  | _ => False

/-- A path that pictures or files are found under -/
def Cacheable (swagger : Bool) (path : Text) : Prop :=
  target swagger path ≠ .missing ∧ target swagger path ≠ .elsewhere

/-- What a response tells of its path. -/
structure Site.Told (rt : Runtime) (swagger : Bool) (s : Site) (a : Sent) : Prop where
  marked : a.response.marked →
    Cacheable swagger a.path ∧ (a.response.succeeded ∨ a.response.status = 304)
  whole : Cacheable swagger a.path → a.response.succeeded →
    ∃ content, s.Had rt swagger a.path content ∧ a.response.body = .data content

/-- Pictures and files have not changed, and what was sent tells what they are. -/
structure Site.Sound (rt : Runtime) (swagger : Bool) (s : Site) : Prop where
  pictures : ∀ w ∈ s.worlds, ∀ w' ∈ s.worlds, ∀ row ∈ w.db.images, ∀ row' ∈ w'.db.images,
    row.id = row'.id → row = row'
  files : ∀ old ∈ s.releases, ∀ new ∈ s.releases, ∀ name content content',
    old.assets.fsys name = some content → new.assets.fsys name = some content' → content = content'
  told : ∀ a ∈ s.sent, s.Told rt swagger a

theorem Site.Had.unique (hs : s.Sound rt swagger) {path : Text} {content content' : List UInt8}
    (h : s.Had rt swagger path content) (h' : s.Had rt swagger path content') : content = content' := by
  unfold Site.Had at h h'
  cases htarget : target swagger path with
  | image part id =>
    rw [htarget] at h h'
    obtain ⟨w, hw, row, hrow, hid, rfl⟩ := h
    obtain ⟨w', hw', row', hrow', hid', rfl⟩ := h'
    rw [hs.pictures w hw w' hw' row hrow row' hrow' (Option.some.inj (hid.symm.trans hid'))]
  | file header name =>
    rw [htarget] at h h'
    obtain ⟨old, hold, hcontent⟩ := h
    obtain ⟨new, hnew, hcontent'⟩ := h'
    exact hs.files old hold new hnew name _ _ hcontent hcontent'
  | missing =>
    rw [htarget] at h
    exact h.elim
  | elsewhere =>
    rw [htarget] at h
    exact h.elim

/-- What the site has had it will always have had. -/
theorem Site.Had.mono {path : Text} {content : List UInt8} (h : s.Had rt swagger path content)
    (hworlds : ∀ w ∈ s.worlds, w ∈ s'.worlds) (hreleases : ∀ release ∈ s.releases, release ∈ s'.releases) :
    s'.Had rt swagger path content := by
  unfold Site.Had at h ⊢
  cases htarget : target swagger path with
  | image part id =>
    rw [htarget] at h
    obtain ⟨w, hw, hrow⟩ := h
    exact ⟨w, hworlds w hw, hrow⟩
  | file header name =>
    rw [htarget] at h
    obtain ⟨release, hrelease, hcontent⟩ := h
    exact ⟨release, hreleases release hrelease, hcontent⟩
  | missing =>
    rw [htarget] at h
    exact h
  | elsewhere =>
    rw [htarget] at h
    exact h

theorem Site.Told.mono {a : Sent} (h : s.Told rt swagger a) (hworlds : ∀ w ∈ s.worlds, w ∈ s'.worlds)
    (hreleases : ∀ release ∈ s.releases, release ∈ s'.releases) : s'.Told rt swagger a where
  marked := h.marked
  whole := fun hcacheable hok => by
    obtain ⟨content, hhad, hbody⟩ := h.whole hcacheable hok
    exact ⟨content, hhad.mono hworlds hreleases, hbody⟩

theorem Site.Sound.neverChanges (hs : s.Sound rt swagger) : NeverChanges s.sent := by
  intro before a after hsent hmarked
  have hmem : ∀ b ∈ a :: after, b ∈ s.sent := fun b hb => hsent ▸ List.mem_append_right _ hb
  obtain ⟨hcacheable, hstatus⟩ := (hs.told a (hmem a List.mem_cons_self)).marked hmarked
  refine ⟨hstatus, fun b hb c hc hbpath hcpath hbok hcok => ?_⟩
  obtain ⟨content, hhad, hbody⟩ := (hs.told b (hmem b hb)).whole (hbpath ▸ hcacheable) hbok
  obtain ⟨content', hhad', hbody'⟩ := (hs.told c (hmem c hc)).whole (hcpath ▸ hcacheable) hcok
  rw [hbpath] at hhad
  rw [hcpath] at hhad'
  rw [hbody, hbody', hhad.unique hs hhad']

/-- An answer more -/
theorem Site.Sound.answer (hs : s.Sound rt swagger) {r : Get} {response : Response EnvelopeBody}
    (h : s.Told rt swagger ⟨r.path, response⟩) : (s.answer r response).Sound rt swagger where
  pictures := hs.pictures
  files := hs.files
  told := fun a ha => by
    rcases List.mem_append.mp ha with ha | ha
    · exact (hs.told a ha).mono (fun _ h => h) fun _ h => h
    · cases List.mem_singleton.mp ha
      exact h.mono (fun _ h => h) fun _ h => h

/-- No more than one row is new. -/
theorem ImageMove.rows {w w' : World Db Time} (h : ImageMove w w') :
    (∀ row ∈ w'.db.images, row ∈ w.db.images) ∨ ∃ new, w'.db.images = w.db.images ++ [new] := by
  cases h with
  | upload _ stored =>
    cases stored with
    | existing => exact .inl fun _ h => h
    | inserted => exact .inr ⟨_, rfl⟩
  | logo => exact .inl fun _ h => h
  | picture => exact .inl fun _ h => h
  | others _ same => exact .inl fun row h => same ▸ h
  | cleanup _ clock retention =>
    refine .inl fun row h => ?_
    dsimp only at h
    rw [cleanup_real, Db.final_images] at h
    exact (mem_keep.mp h).1

theorem Site.world_mem : s.world ∈ s.worlds := List.mem_append_right _ List.mem_cons_self

theorem Site.Sound.images (hs : s.Sound rt swagger) {w : World Db Time} (move : ImageMove s.world w)
    (fresh : ∀ row ∈ w.db.images, row ∈ s.world.db.images ∨
      ∀ p ∈ s.worlds, ∀ old ∈ p.db.images, old.id ≠ row.id) :
    Site.Sound rt swagger { s with world := w, past := s.past ++ [s.world] } := by
  have hold : ∀ p ∈ s.worlds, ∀ old ∈ p.db.images, ∀ row ∈ w.db.images, old.id = row.id → old = row := by
    intro p hp old hmem row hrow hid
    rcases fresh row hrow with hknown | hnew
    · exact hs.pictures p hp s.world s.world_mem old hmem row hknown hid
    · exact absurd hid (hnew p hp old hmem)
  have hcurrent : ∀ row ∈ w.db.images, ∀ row' ∈ w.db.images, row.id = row'.id → row = row' := by
    intro row hrow row' hrow' hid
    rcases fresh row hrow with hknown | hnew
    · exact hold s.world s.world_mem row hknown row' hrow' hid
    rcases fresh row' hrow' with hknown' | hnew'
    · exact (hold s.world s.world_mem row' hknown' row hrow hid.symm).symm
    -- both are new, and there is only one that can be
    rcases move.rows with hsub | ⟨new, happend⟩
    · exact absurd rfl (hnew s.world s.world_mem row (hsub row hrow))
    · rw [happend] at hrow hrow'
      rcases List.mem_append.mp hrow with h | h
      · exact absurd rfl (hnew s.world s.world_mem row h)
      rcases List.mem_append.mp hrow' with h' | h'
      · exact absurd rfl (hnew' s.world s.world_mem row' h')
      rw [List.mem_singleton.mp h, List.mem_singleton.mp h']
  have hworlds : ∀ p ∈ Site.worlds { s with world := w, past := s.past ++ [s.world] }, p ∈ s.worlds ∨ p = w :=
    fun p hp => (List.mem_append.mp hp).imp_right List.mem_singleton.mp
  refine ⟨fun p hp p' hp' row hrow row' hrow' hid => ?_, hs.files, fun a ha => ?_⟩
  · rcases hworlds p hp with hearlier | hnow
    · rcases hworlds p' hp' with hearlier' | hnow'
      · exact hs.pictures p hearlier p' hearlier' row hrow row' hrow' hid
      · exact hold p hearlier row hrow row' (hnow' ▸ hrow') hid
    · rcases hworlds p' hp' with hearlier' | hnow'
      · exact (hold p' hearlier' row' hrow' row (hnow ▸ hrow) hid.symm).symm
      · exact hcurrent row (hnow ▸ hrow) row' (hnow' ▸ hrow') hid
  · exact (hs.told a ha).mono (fun p hp => List.mem_append_left _ hp) fun _ h => h

theorem Site.Sound.release (hs : s.Sound rt swagger) {new : Release}
    (hfine : s.Fine rt swagger (.release new)) :
    Site.Sound rt swagger { s with release := new, earlier := s.release :: s.earlier } := by
  refine ⟨hs.pictures, fun old hold newer hnewer name content content' hcontent hcontent' => ?_,
    fun a ha => (hs.told a ha).mono (fun _ h => h) fun _ h => List.mem_cons_of_mem _ h⟩
  rcases List.mem_cons.mp hold with rfl | hold
  · rcases List.mem_cons.mp hnewer with rfl | hnewer
    · exact Option.some.inj (hcontent.symm.trans hcontent')
    · exact hfine newer hnewer name _ _ hcontent' hcontent
  · rcases List.mem_cons.mp hnewer with rfl | hnewer
    · exact (hfine old hold name _ _ hcontent hcontent').symm
    · exact hs.files old hold newer hnewer name _ _ hcontent hcontent'

theorem InOrder.mem {worlds found : List (World Db Time)} (h : InOrder worlds found) :
    ∀ w ∈ found, w ∈ worlds := by
  obtain ⟨times, -, hmap⟩ := h
  intro w hw
  have hsome : some w ∈ times.map (worlds[·]?) := hmap ▸ List.mem_map_of_mem hw
  obtain ⟨n, -, hn⟩ := List.mem_map.mp hsome
  exact List.mem_of_getElem? hn

theorem imageByID_spec {db : Db} {id : UUID} {row : ImageRow} (h : db.imageByID id = some row) :
    row ∈ db.images ∧ row.id = id := by
  unfold Db.imageByID at h
  have hid := List.find?_some h
  exact ⟨List.mem_of_find?_eq_some h, beq_iff_eq.mp hid⟩

theorem told_image {r : Get} {part : ImageRow → String × List UInt8} {id : String}
    {steps : List (Taken ImageStmt Outcome (World Db Time))}
    {result : Except (Header × ApiError) (Response EnvelopeBody)}
    (asked : target swagger r.path = .image part id) (path : (serve rt part r id).Path steps result)
    (order : InOrder s.worlds (steps.map Taken.found)) (hread : PayloadRead rt id steps) :
    s.Told rt swagger ⟨r.path, sentAs result⟩ where
  marked := fun hmarked => by
    refine ⟨⟨?_, ?_⟩, (serve_fair_iff path).mpr hread hmarked⟩
    · exact asked ▸ fun h => by cases h
    · exact asked ▸ fun h => by cases h
  whole := fun _ hok => by
    cases serve_served path with
    | refused _ failed => exact absurd hok failed
    | unchanged _ status => exact absurd (status ▸ hok.2 : 304 < 300) (by decide)
    | sent taken parsed found _ body =>
      obtain ⟨hrow, hid⟩ := imageByID_spec found
      refine ⟨_, ?_, body⟩
      unfold Site.Had
      rw [asked]
      exact ⟨_, order.mem _ (List.mem_map_of_mem taken), _, hrow, hid ▸ parsed, rfl⟩
    | unavailable _ status => exact absurd (status ▸ hok.2 : 503 < 300) (by decide)

theorem told_file {r : Get} {h : Header} {name : Text} (asked : target swagger r.path = .file h name)
    {boundary : Text} (hfine : s.Fine rt swagger (.file r boundary)) :
    s.Told rt swagger ⟨r.path, s.release.assets.serveFile h r name boundary⟩ := by
  obtain ⟨hetag, hcache⟩ := target_header asked
  cases hfile : s.release.assets.fsys name with
  | none =>
    have hmissing : s.release.assets.serveFile h r name boundary = notFound h := by
      unfold Assets.serveFile
      rw [hfile]
    rw [hmissing]
    exact ⟨fun hmarked => absurd hmarked (notFound_unmarked hcache), fun _ hok => absurd hok.2 (show ¬ 404 < 300 by decide)⟩
  | some content =>
    have hfair : (s.release.assets.serveFile h r name boundary).Fair immutable content :=
      (serveFile_fair_iff s.release.embedded hetag hfile).mpr (hfine h name content asked hfile)
    refine ⟨fun hmarked => ⟨⟨?_, ?_⟩, hfair.marked hmarked⟩, fun _ hok => ⟨content, ?_, hfair.whole hok⟩⟩
    · exact asked ▸ fun h => by cases h
    · exact asked ▸ fun h => by cases h
    · unfold Site.Had
      rw [asked]
      exact ⟨s.release, List.mem_cons_self, hfile⟩

theorem Site.Sound.step (hs : s.Sound rt swagger) (hfine : s.Fine rt swagger event)
    (hstep : Site.Step rt swagger s event s') : s'.Sound rt swagger := by
  cases hstep with
  | images move fresh => exact hs.images move fresh
  | release new => exact hs.release hfine
  | image asked path order => exact hs.answer (told_image asked path order (hfine _ _ asked))
  | file asked boundary => exact hs.answer (told_file asked hfine)
  | other unmarked why =>
    refine hs.answer ⟨fun hmarked => absurd hmarked unmarked, fun hcacheable hok => ?_⟩
    rcases why with hfailed | hmissing | helsewhere
    · exact absurd (le_trans hfailed (le_of_lt hok.2)) (by decide)
    · exact absurd hmissing hcacheable.1
    · exact absurd helsewhere hcacheable.2

theorem Site.Started.sound (h : s.Started) : s.Sound rt swagger := by
  have hworlds : s.worlds = [s.world] := by
    unfold Site.worlds
    rw [h.past, List.nil_append]
  have hreleases : s.releases = [s.release] := by
    unfold Site.releases
    rw [h.earlier]
  refine ⟨?_, ?_, ?_⟩
  · rw [hworlds]
    intro w hw w' hw' row hrow row' hrow' hid
    cases List.mem_singleton.mp hw
    cases List.mem_singleton.mp hw'
    exact List.inj_on_of_nodup_map h.keys hrow hrow' hid
  · rw [hreleases]
    intro old hold new hnew name content content' hcontent hcontent'
    cases List.mem_singleton.mp hold
    cases List.mem_singleton.mp hnew
    exact Option.some.inj (hcontent.symm.trans hcontent')
  · rw [h.sent]
    exact fun a ha => nomatch ha

end Runs

/-- **What is sent as immutable never changes, in every run in which no payload that is asked for is
missing, no part of a file is asked for, no `If-Match` is sent in vain and no release changes a file.** -/
theorem site_immutable {rt : Runtime} {swagger : Bool} {s s' : Site} (hstart : s.Started)
    (hrun : Relation.ReflTransGen
      (fun s s' => ∃ event, Site.Step rt swagger s event s' ∧ s.Fine rt swagger event) s s') :
    NeverChanges s'.sent := by
  have hsound : s'.Sound rt swagger := by
    induction hrun with
    | refl => exact hstart.sound
    | tail _ hlast ih =>
      obtain ⟨event, hstep, hfine⟩ := hlast
      exact ih.step hfine hstep
  exact hsound.neverChanges

/-! ## An update -/

namespace AppUpdate

def script : Text := "/static/js/app.js".toList

/-- A release of one script, of one byte -/
def release (byte : UInt8) : Release where
  assets := { fsys := fun name => if name = "js/app.js".toList then some [byte] else none, embedded := true }
  embedded := rfl

def logo : ImageRow :=
  { id := ⟨1⟩, mediaType := "image/png", data := [1], thumbMediaType := "image/png", thumbData := [1]
    sha256 := [42], createdAt := 0 }

def site : Site :=
  { release := release 1, earlier := [], world := ⟨Db.empty.insertImage logo, 0⟩, past := [], sent := [] }

theorem started : site.Started := ⟨rfl, rfl, rfl, by decide⟩

theorem script_target : target true script = .file [] "js/app.js".toList := by rfl

/-- What is answered to who asks for the script. -/
def sentScript (byte : UInt8) : Sent :=
  ⟨script, (release byte).assets.serveFile [] (.plain script) "js/app.js".toList []⟩

example : (sentScript 1).response.body = .data [1] := by decide +kernel

def asked : Site := { site with sent := [sentScript 1] }

def updated (byte : UInt8) : Site := { asked with release := release byte, earlier := [release 1] }

def askedAgain (byte : UInt8) : Site := { updated byte with sent := [sentScript 1, sentScript byte] }

theorem step_asked : Site.Step Runtime.ascii true site (.file (.plain script) []) asked :=
  .file script_target []

theorem step_updated (byte : UInt8) : Site.Step Runtime.ascii true asked (.release (release byte)) (updated byte) :=
  .release (release byte)

theorem step_askedAgain (byte : UInt8) :
    Site.Step Runtime.ascii true (updated byte) (.file (.plain script) []) (askedAgain byte) :=
  .file script_target []

/-- The same site while the database fails between the two statements of a request -/
def picturePath : Text := "/api/v1/images/00000000-0000-0000-0000-000000000001".toList

def unavailable : Response EnvelopeBody :=
  sentAs (.error ((Header.set [] "Etag" (imageETag logo false)).set "Cache-Control" immutable,
    .of codeDatabaseUnavailable))

theorem picture_target : target true picturePath =
    .image ImageRow.full "00000000-0000-0000-0000-000000000001" := by rfl

theorem step_unavailable : Site.Step Runtime.ascii true site
    (.image (.plain picturePath) [⟨.metadata, .ok, site.world⟩, ⟨.payload, .failure, site.world⟩])
    (site.answer (.plain picturePath) unavailable) := by
  refine .image picture_target ?_ ⟨[0, 0], by decide, rfl⟩
  exact Path.step Outcome.ok site.world (Path.step Outcome.failure site.world (Path.fail _))

end AppUpdate

open AppUpdate

/-- A release with the same script -/
theorem site_immutable_updated : AppUpdate.site.Started ∧ NeverChanges (askedAgain 1).sent := by
  have hplain : ∀ s : Site, s.Fine Runtime.ascii true (.file (.plain script) []) :=
    fun s h name content _ _ => ⟨(plain_asksWhole _ _ content).1, .inr (plain_asksWhole _ _ content).2⟩
  refine ⟨started, site_immutable started (((Relation.ReflTransGen.single
    ⟨_, step_asked, hplain _⟩).tail ⟨_, step_updated 1, ?_⟩).tail ⟨_, step_askedAgain 1, hplain _⟩)⟩
  intro old hold name content content' hcontent hcontent'
  cases List.mem_singleton.mp hold
  exact Option.some.inj (hcontent'.symm.trans hcontent)

/-- A release changes the script, and who has loaded it keeps the old one. A picture whose bytes cannot be
read is an error for a year. -/
theorem immutable_changes :
    (∃ (s s' : Site) (event : SiteEvent) (a : Sent), s.Started ∧ Site.Step Runtime.ascii true s event s' ∧
      a ∈ s'.sent ∧ a.response.marked ∧ a.response.status = 503) ∧
    ¬ ∀ (rt : Runtime) (swagger : Bool) (s s' : Site), s.Started →
      Relation.ReflTransGen (fun s s' => ∃ event, Site.Step rt swagger s event s') s s' →
      NeverChanges s'.sent := by
  constructor
  · exact ⟨_, _, _, ⟨picturePath, unavailable⟩, started, step_unavailable, List.mem_cons_self,
      by decide +kernel, by decide +kernel⟩
  · intro hall
    have hrun := hall Runtime.ascii true site (askedAgain 2) started (((Relation.ReflTransGen.single
      ⟨_, step_asked⟩).tail ⟨_, step_updated 2⟩).tail ⟨_, step_askedAgain 2⟩)
    have hsame := (hrun [] (sentScript 1) [sentScript 2] rfl (by decide +kernel)).2 (sentScript 1)
      List.mem_cons_self (sentScript 2) (List.mem_cons_of_mem _ List.mem_cons_self) rfl rfl
      (by decide +kernel) (by decide +kernel)
    exact absurd hsame (by decide +kernel)

end Doenerstag
