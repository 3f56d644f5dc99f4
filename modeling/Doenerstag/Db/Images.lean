import Doenerstag.Db.CleanupFixpoint
import Doenerstag.Lib.ReadCommitted

/-!
# Uploads and the cleanup (`internal/db/images.go`, `internal/db/cleanup.go`)

An upload stores its picture, or answers with a row that has the same bytes. Attaching it is another
request. The cleanup removes a picture nothing shows, a day after its row was created.

* `CreateImage` — `CreateImage`, with the row it answers.
* `ImageMove` — what happens to pictures.
* `upload_attachable_iff` — **whoever uploads a picture has a day to attach it, whatever happens, if and
  only if its bytes are not in an older row.**
-/

namespace Doenerstag

open ReadCommitted Tables

/-- `NewImage`, as far as it is read again -/
structure NewImage where
  mediaType : String
  data : List UInt8
  thumbMediaType : String
  thumbData : List UInt8
  sha256 : List UInt8
  deriving DecidableEq, Repr

def NewImage.row (new : NewImage) (id : UUID) (now : Time) : ImageRow :=
  { id, mediaType := new.mediaType, data := new.data, thumbMediaType := new.thumbMediaType
    thumbData := new.thumbData, sha256 := new.sha256, createdAt := pgTime now }

namespace Db

/-- `INSERT INTO image`; `created_at` is the database's clock. -/
def insertImage (db : Db) (row : ImageRow) : Db := { db with images := db.images ++ [row] }

/-- The `PATCH` of a restaurant that names a picture, or none. -/
def setLogo (clock : Time) (restaurant : UUID) (image : Option UUID) (db : Db) : Db :=
  { db with restaurants := db.restaurants.map fun r =>
      if r.id = restaurant then { r with logoImageID := image, updatedAt := pgTime clock } else r }

/-- The `PATCH` of a dish that names a picture, or none. -/
def setPicture (clock : Time) (dish : UUID) (image : Option UUID) (db : Db) : Db :=
  { db with menuItems := db.menuItems.map fun m =>
      if m.id = dish then { m with imageID := image, updatedAt := pgTime clock } else m }

end Db

/-- `CreateImage`: the id it answers, and the database it leaves. Of several rows with the same bytes
`LIMIT 1` may find any. -/
inductive CreateImage (db : Db) (new : NewImage) (now : Time) : UUID → Db → Prop where
  | existing {row : ImageRow} (mem : row ∈ db.images) (same : row.sha256 = new.sha256) :
      CreateImage db new now row.id db
  | inserted {id : UUID} (absent : ∀ row ∈ db.images, row.sha256 ≠ new.sha256)
      (fresh : ∀ row ∈ db.images, row.id ≠ id) :
      CreateImage db new now id (db.insertImage (new.row id now))

/-- What happens to pictures, one thing after the other. -/
inductive ImageMove : World Db Time → World Db Time → Prop where
  | upload {w : World Db Time} {t : Time} {new : NewImage} {id : UUID} {db : Db} (later : w.now ≤ t)
      (stored : CreateImage w.db new t id db) : ImageMove w ⟨db, t⟩
  | logo {w : World Db Time} {t : Time} (later : w.now ≤ t) (restaurant : UUID) (image : Option UUID) :
      ImageMove w ⟨w.db.setLogo t restaurant image, t⟩
  | picture {w : World Db Time} {t : Time} (later : w.now ≤ t) (dish : UUID) (image : Option UUID) :
      ImageMove w ⟨w.db.setPicture t dish image, t⟩
  /-- restaurants and dishes are created and deleted, and whatever else leaves the pictures alone -/
  | others {w : World Db Time} {t : Time} {db : Db} (later : w.now ≤ t) (same : db.images = w.db.images) :
      ImageMove w ⟨db, t⟩
  | cleanup {w : World Db Time} {t : Time} (later : w.now ≤ t) (clock : String → Time)
      (retention : Duration) : ImageMove w ⟨(cleanup clock retention t false w.db).db, t⟩

abbrev ImageRun : World Db Time → World Db Time → Prop := Relation.ReflTransGen ImageMove

/-- **It can still be attached** for a day after the upload. -/
def Attachable (id : UUID) (uploaded : Time) (w : World Db Time) : Prop :=
  ∀ w', ImageRun w w' → w'.now < uploaded + imageGrace → ∃ row ∈ w'.db.images, row.id = id

/-! ## A row that is young enough -/

section Young

variable {w w' : World Db Time} {uploaded : Time} {id : UUID}

theorem ImageMove.later (h : ImageMove w w') : w.now ≤ w'.now := by
  cases h with
  | upload later _ => exact later
  | logo later => exact later
  | picture later => exact later
  | others later _ => exact later
  | cleanup later => exact later

theorem floor_mono {a b : Int} (h : a ≤ b) : a - a % 1000 ≤ b - b % 1000 := by omega

theorem pgTime_mono {a b : Time} (h : a ≤ b) : pgTime a ≤ pgTime b := floor_mono h

theorem grace_left {t uploaded grace : Int} (h : t < uploaded + grace) : t - grace ≤ uploaded - 1 := by
  omega

/-- The picture is there, and not created before the last microsecond in which it was uploaded. -/
def Young (id : UUID) (uploaded : Time) (db : Db) : Prop :=
  ∃ row ∈ db.images, row.id = id ∧ pgTime (uploaded - 1) ≤ row.createdAt

/-- **No cleanup within the day removes it.** -/
theorem Young.move (h : Young id uploaded w.db) (hmove : ImageMove w w')
    (hday : w'.now < uploaded + imageGrace) : Young id uploaded w'.db := by
  obtain ⟨row, hrow, hid, hyoung⟩ := h
  cases hmove with
  | upload _ stored =>
    cases stored with
    | existing => exact ⟨row, hrow, hid, hyoung⟩
    | inserted => exact ⟨row, List.mem_append_left _ hrow, hid, hyoung⟩
  | logo => exact ⟨row, hrow, hid, hyoung⟩
  | picture => exact ⟨row, hrow, hid, hyoung⟩
  | others _ same => exact ⟨row, same ▸ hrow, hid, hyoung⟩
  | cleanup later clock retention =>
    refine ⟨row, ?_, hid, hyoung⟩
    rw [cleanup_real, Db.final_images]
    refine mem_keep.mpr ⟨hrow, ?_⟩
    dsimp only at hday
    have hkept := not_lt.mpr (le_trans (pgTime_mono (grace_left hday)) hyoung)
    unfold Db.imageGoes
    rw [decide_eq_false hkept, Bool.false_and, Bool.false_and]

theorem Young.run (h : Young id uploaded w.db) (hrun : ImageRun w w')
    (hday : w'.now < uploaded + imageGrace) : Young id uploaded w'.db := by
  induction hrun with
  | refl => exact h
  | tail _ hlast ih => exact (ih (lt_of_le_of_lt hlast.later hday)).move hlast hday

theorem Young.attachable (h : Young id uploaded w.db) : Attachable id uploaded w := by
  intro w' hrun hday
  obtain ⟨row, hrow, hid, -⟩ := h.run hrun hday
  exact ⟨row, hrow, hid⟩

end Young

/-! ## A row that is too old -/

section Old

variable {π κ : Type*} [DecidableEq κ]

/-- One row after the other is changed, each by its key. -/
theorem foldl_map_key (key : π → κ) {f : π → π} (hkey : ∀ p, key (f p) = key p)
    (htwice : ∀ p, f (f p) = f p) (ks : List κ) (ps : List π) :
    ks.foldl (fun ps k => ps.map fun p => if key p = k then f p else p) ps =
      ps.map fun p => if key p ∈ ks then f p else p := by
  induction ks generalizing ps with
  | nil => simp
  | cons k ks ih =>
    rw [List.foldl_cons, ih, List.map_map]
    refine List.map_congr_left fun p _ => ?_
    by_cases hk : key p = k
    · by_cases hks : key p ∈ ks
      · simp [hk, hkey, htwice, hk ▸ hks]
      · simp [hk, hkey, hk ▸ hks]
    · simp [hk]

end Old

section Detached

variable {db : Db} {t : Time}

/-- Every restaurant's logo is taken away. -/
theorem run_detachLogos (db : Db) (t : Time) (ids : List UUID) :
    ImageRun ⟨db, t⟩ ⟨ids.foldl (fun db id => db.setLogo t id none) db, t⟩ := by
  induction ids generalizing db with
  | nil => exact .refl
  | cons id ids ih =>
    exact Relation.ReflTransGen.head (ImageMove.logo (w := ⟨db, t⟩) (le_refl t) id none) (ih _)

theorem run_detachPictures (db : Db) (t : Time) (ids : List UUID) :
    ImageRun ⟨db, t⟩ ⟨ids.foldl (fun db id => db.setPicture t id none) db, t⟩ := by
  induction ids generalizing db with
  | nil => exact .refl
  | cons id ids ih =>
    exact Relation.ReflTransGen.head (ImageMove.picture (w := ⟨db, t⟩) (le_refl t) id none) (ih _)

theorem foldl_setLogo (ids : List UUID) (db : Db) :
    ids.foldl (fun db id => db.setLogo t id none) db =
      { db with restaurants := db.restaurants.map fun r =>
          if r.id ∈ ids then { r with logoImageID := none, updatedAt := pgTime t } else r } := by
  rw [← foldl_map_key RestaurantRow.id
    (f := fun r => { r with logoImageID := none, updatedAt := pgTime t }) (fun _ => rfl) (fun _ => rfl)]
  induction ids generalizing db with
  | nil => rfl
  | cons id ids ih => exact ih _

theorem foldl_setPicture (ids : List UUID) (db : Db) :
    ids.foldl (fun db id => db.setPicture t id none) db =
      { db with menuItems := db.menuItems.map fun m =>
          if m.id ∈ ids then { m with imageID := none, updatedAt := pgTime t } else m } := by
  rw [← foldl_map_key MenuItemRow.id
    (f := fun m => { m with imageID := none, updatedAt := pgTime t }) (fun _ => rfl) (fun _ => rfl)]
  induction ids generalizing db with
  | nil => rfl
  | cons id ids ih => exact ih _

/-- All pictures can be taken away from restaurants and dishes. -/
theorem exists_detached (db : Db) (t : Time) : ∃ db', ImageRun ⟨db, t⟩ ⟨db', t⟩ ∧
    db'.images = db.images ∧ (∀ r ∈ db'.restaurants, r.logoImageID = none) ∧
    ∀ m ∈ db'.menuItems, m.imageID = none := by
  refine ⟨_, (run_detachLogos db t (db.restaurants.map RestaurantRow.id)).trans
    (run_detachPictures _ t (db.menuItems.map MenuItemRow.id)), ?_, ?_, ?_⟩
  · rw [foldl_setPicture, foldl_setLogo]
  · rw [foldl_setPicture, foldl_setLogo]
    intro r hr
    obtain ⟨r₀, hr₀, rfl⟩ := List.mem_map.mp hr
    rw [if_pos (List.mem_map_of_mem hr₀)]
  · rw [foldl_setPicture, foldl_setLogo]
    intro m hm
    obtain ⟨m₀, hm₀, rfl⟩ := List.mem_map.mp hm
    rw [if_pos (List.mem_map_of_mem hm₀)]

theorem last_moment (t grace : Int) (hgrace : 0 < grace) : t ≤ t + grace - 1 ∧
    t + grace - 1 < t + grace ∧ t + grace - 1 - grace = t - 1 := by omega

/-- **An older row can be gone before the day is over.** -/
theorem not_attachable {row : ImageRow} (hkeys : (db.images.map ImageRow.id).Nodup)
    (hrow : row ∈ db.images) (hold : row.createdAt < pgTime (t - 1)) :
    ¬ Attachable row.id t ⟨db, t⟩ := by
  intro hall
  obtain ⟨detached, hrun, himages, hlogos, hpictures⟩ := exists_detached db t
  obtain ⟨hlater, hday, hcutoff⟩ := last_moment t imageGrace (by decide)
  have hgone := hall _ (hrun.tail (ImageMove.cleanup (w := ⟨detached, t⟩) hlater (fun _ => 0) 0)) hday
  obtain ⟨kept, hkept, hid⟩ := hgone
  dsimp only at hkept
  rw [cleanup_real, Db.final_images, himages] at hkept
  obtain ⟨hmem, hstays⟩ := mem_keep.mp hkept
  have hsame : kept = row := List.inj_on_of_nodup_map hkeys hmem hrow hid
  rw [hsame] at hstays
  have hgoes : ∀ cutoff uploadedBefore, row.createdAt < uploadedBefore →
      detached.imageGoes cutoff uploadedBefore row = true := by
    intro cutoff uploadedBefore hbefore
    unfold Db.imageGoes
    rw [decide_eq_true hbefore, Bool.true_and, Bool.and_eq_true, Bool.not_eq_true', Bool.not_eq_true',
      List.any_eq_false, List.any_eq_false]
    refine ⟨fun r hr => ?_, fun m hm => ?_⟩
    · rw [hlogos r (mem_keep.mp hr).1]
      exact Bool.false_ne_true
    · rw [hpictures m (mem_keep.mp hm).1]
      exact Bool.false_ne_true
  rw [hcutoff, hgoes _ _ hold] at hstays
  cases hstays

end Detached

/-- **Whoever uploads a picture has a day to attach it, whatever happens in it, if and only if its bytes
are in no row that is older than the upload** by a microsecond. -/
theorem upload_attachable_iff {db : Db} (hkeys : (db.images.map ImageRow.id).Nodup) (t : Time)
    (new : NewImage) :
    (∀ id db', CreateImage db new t id db' → Attachable id t ⟨db', t⟩) ↔
      ∀ row ∈ db.images, row.sha256 = new.sha256 → pgTime (t - 1) ≤ row.createdAt := by
  constructor
  · intro hall row hrow hsame
    by_contra hold
    exact not_attachable hkeys hrow (not_le.mp hold) (hall _ _ (.existing hrow hsame))
  · intro hyoung id db' hstored
    refine Young.attachable (w := ⟨db', t⟩) ?_
    cases hstored with
    | existing mem same => exact ⟨_, mem, rfl, hyoung _ mem same⟩
    | inserted absent fresh =>
      exact ⟨_, List.mem_append_right _ List.mem_cons_self, rfl,
        pgTime_mono (Int.sub_le_self t (by decide))⟩

/-! ## A logo uploaded twice -/

namespace LogoTwice

/-- A picture of one byte -/
def logo : NewImage :=
  { mediaType := "image/png", data := [1], thumbMediaType := "image/png", thumbData := [1]
    sha256 := [42] }

def firstUpload : Db := Db.empty.insertImage (logo.row ⟨1⟩ 0)

theorem stored_first : CreateImage Db.empty logo 0 ⟨1⟩ firstUpload :=
  .inserted (fun _ h => nomatch h) fun _ h => nomatch h

end LogoTwice

open LogoTwice

theorem upload_attachable_first :
    (∀ id db', CreateImage Db.empty logo 0 id db' → Attachable id 0 ⟨db', 0⟩) ↔
      ∀ row ∈ Db.empty.images, row.sha256 = logo.sha256 → pgTime (0 - 1) ≤ row.createdAt :=
  @upload_attachable_iff Db.empty List.nodup_nil 0 logo

/-- The second upload, after 25 hours, is answered with a row that a cleanup may take at once. -/
theorem upload_deduplicated : ¬ ∀ (w : World Db Time) (t : Time) (new : NewImage) (id : UUID) (db : Db),
    ImageRun ⟨Db.empty, 0⟩ w → w.now ≤ t → CreateImage w.db new t id db → Attachable id t ⟨db, t⟩ := by
  intro hall
  have hfirst : ImageRun ⟨Db.empty, 0⟩ ⟨firstUpload, 0⟩ := .single (.upload (le_refl _) stored_first)
  have hrow : logo.row ⟨1⟩ 0 ∈ firstUpload.images := List.mem_cons_self
  have hsecond : CreateImage firstUpload logo (25 * Time.hour) ⟨1⟩ firstUpload := .existing hrow rfl
  refine not_attachable (by decide) hrow (by decide)
    (hall ⟨firstUpload, 0⟩ (25 * Time.hour) logo ⟨1⟩ firstUpload hfirst (by decide) hsecond)

end Doenerstag
