import Doenerstag.Api.Login
import Doenerstag.Lib.Failure
import Doenerstag.Lib.Utf8

/-!
# The User-Agent of a login (`internal/api/auth.go`)

A header is bytes, and a column of PostgreSQL is text. `truncate` looks at the bytes when there are too many of
them, and at no others.

* `truncateBytes` — `truncate`, on bytes; `truncateBytes_encode` — on those of a text it is `truncate`.
* `KeptUserAgent` — what is stored is text, and the beginning of the header.
* `LogsIn` — a login that goes well without the header goes well with it.
* `userAgent_kept_iff` — **both hold unless a short header is no text, or the text in a header has a NUL.**
-/

namespace Doenerstag

open ReadCommitted Prog

/-! ## The cut -/

/-- The loop of `truncate`: `cut` is the first bytes of `s`, so many. -/
def cutBack (s : List UInt8) : Nat → List UInt8
  | 0 => []
  | n + 1 => if Utf8.Valid (s.take (n + 1)) then s.take (n + 1) else cutBack s n

/-- `truncate` -/
def truncateBytes (s : List UInt8) (n : Nat) : List UInt8 := if s.length ≤ n then s else cutBack s n

section Cut

variable {s : List UInt8} {n k : Nat}

theorem cutBack_valid : Utf8.Valid (cutBack s n) := by
  induction n with
  | zero => exact Utf8.valid_nil
  | succ n ih =>
    unfold cutBack
    split_ifs with hvalid
    · exact hvalid
    · exact ih

theorem cutBack_eq_take : ∃ k ≤ n, cutBack s n = s.take k := by
  induction n with
  | zero => exact ⟨0, le_rfl, rfl⟩
  | succ n ih =>
    unfold cutBack
    split_ifs
    · exact ⟨n + 1, le_rfl, rfl⟩
    · obtain ⟨k, hk, htake⟩ := ih
      exact ⟨k, Nat.le_succ_of_le hk, htake⟩

/-- The loop stops at the first text it comes to, which is the longest. -/
theorem take_prefix_cutBack (hk : k ≤ n) (hvalid : Utf8.Valid (s.take k)) : s.take k <+: cutBack s n := by
  induction n with
  | zero =>
    obtain rfl : k = 0 := Nat.le_zero.mp hk
    exact List.prefix_rfl
  | succ n ih =>
    unfold cutBack
    split_ifs with hlonger
    · exact List.take_prefix_take_left hk
    · have hne : k ≠ n + 1 := fun h => hlonger (h ▸ hvalid)
      exact ih (by omega)

theorem truncateBytes_isPrefix : truncateBytes s n <+: s := by
  unfold truncateBytes
  split_ifs
  · exact List.prefix_rfl
  · obtain ⟨k, -, htake⟩ := cutBack_eq_take (s := s) (n := n)
    rw [htake]
    exact List.take_prefix k s

theorem length_truncateBytes : (truncateBytes s n).length ≤ n := by
  unfold truncateBytes
  split_ifs with hshort
  · exact hshort
  · obtain ⟨k, hk, htake⟩ := cutBack_eq_take (s := s) (n := n)
    rw [htake, List.length_take]
    omega

/-- A text at the beginning that fits is all in what is left. -/
theorem prefix_truncateBytes {t : List UInt8} (ht : t <+: s) (hvalid : Utf8.Valid t) (hfits : t.length ≤ n) :
    t <+: truncateBytes s n := by
  unfold truncateBytes
  split_ifs
  · exact ht
  · rw [List.prefix_iff_eq_take.mp ht] at hvalid ⊢
    exact take_prefix_cutBack hfits hvalid

theorem truncateBytes_valid_iff : Utf8.Valid (truncateBytes s n) ↔ s.length ≤ n → Utf8.Valid s := by
  unfold truncateBytes
  split_ifs with hshort
  · exact ⟨fun h _ => h, fun h => h hshort⟩
  · exact iff_of_true cutBack_valid fun h => absurd h hshort

end Cut

/-! ## Whole characters -/

/-- The whole characters at the beginning of a text that fit, as many as there are -/
structure LongestWhole (text : List Char) (limit : Nat) (value : List UInt8) : Prop where
  whole : ∃ chars, chars <+: text ∧ value = Utf8.encode chars
  fits : value.length ≤ limit
  longest : ∀ chars, chars <+: text → (Utf8.encode chars).length ≤ limit → Utf8.encode chars <+: value

theorem LongestWhole.eq {text : List Char} {limit : Nat} {a b : List UInt8} (ha : LongestWhole text limit a)
    (hb : LongestWhole text limit b) : a = b := by
  obtain ⟨as, has, rfl⟩ := ha.whole
  obtain ⟨bs, hbs, rfl⟩ := hb.whole
  exact (hb.longest as has ha.fits).eq_of_length_le (ha.longest bs hbs hb.fits).length_le

/-- The bytes of a text are cut between two characters. -/
theorem truncateBytes_longestWhole (text : List Char) (n : Nat) :
    LongestWhole text n (truncateBytes (Utf8.encode text) n) where
  whole := (truncateBytes_valid_iff.mpr fun _ => Utf8.valid_encode text).prefix_encode truncateBytes_isPrefix
  fits := length_truncateBytes
  longest := fun chars hchars hfits =>
    prefix_truncateBytes (Utf8.encode_prefix_iff.mpr hchars) (Utf8.valid_encode chars) hfits

theorem charsWithin_longestWhole (text : List Char) (n : Nat) :
    LongestWhole text n (Utf8.encode (charsWithin n text)) := by
  induction text generalizing n with
  | nil => exact ⟨⟨[], List.nil_prefix, rfl⟩, Nat.zero_le n, fun chars hchars _ => by
      rw [List.prefix_nil.mp hchars]
      exact List.nil_prefix⟩
  | cons c rest ih =>
    unfold charsWithin
    split_ifs with hc
    · obtain ⟨⟨chars, hchars, hwhole⟩, hfits, hlongest⟩ := ih (n - c.utf8Size)
      refine ⟨⟨c :: chars, (List.prefix_cons_inj c).mpr hchars, by rw [Utf8.encode_cons, hwhole, Utf8.encode_cons]⟩,
        ?_, fun other hother hbound => ?_⟩
      · rw [Utf8.encode_cons, List.length_append, String.length_utf8EncodeChar]
        omega
      · cases other with
        | nil => exact List.nil_prefix
        | cons d other =>
          obtain ⟨rfl, hrest⟩ := List.cons_prefix_cons.mp hother
          rw [Utf8.encode_cons, List.length_append, String.length_utf8EncodeChar] at hbound
          rw [Utf8.encode_cons, Utf8.encode_cons, List.prefix_append_right_inj]
          exact hlongest other hrest (by omega)
    · -- the first character does not fit, and no more than it begins with it
      refine ⟨⟨[], List.nil_prefix, rfl⟩, Nat.zero_le n, fun other hother hbound => ?_⟩
      cases other with
      | nil => exact List.nil_prefix
      | cons d other =>
        obtain ⟨rfl, -⟩ := List.cons_prefix_cons.mp hother
        rw [Utf8.encode_cons, List.length_append, String.length_utf8EncodeChar] at hbound
        omega

/-- On the bytes of a text, it is `truncate`. -/
theorem truncateBytes_encode (s : String) (n : Nat) :
    truncateBytes (Utf8.encode s.toList) n = Utf8.encode (truncate s n).toList := by
  rw [truncate, String.toList_ofList]
  exact (truncateBytes_longestWhole s.toList n).eq (charsWithin_longestWhole s.toList n)

/-! ## What is to hold of a header -/

/-- PostgreSQL takes the bytes as a `text`. -/
structure Storable (value : List UInt8) : Prop where
  valid : Utf8.Valid value
  noNul : 0 ∉ value

instance (value : List UInt8) : Decidable (Storable value) :=
  decidable_of_iff (Utf8.Valid value ∧ 0 ∉ value) ⟨fun h => ⟨h.1, h.2⟩, fun h => ⟨h.1, h.2⟩⟩

/-- What a login stores of a header is text, and the beginning of the header. -/
structure KeptUserAgent (header stored : List UInt8) : Prop where
  storable : Storable stored
  bounded : stored.length ≤ userAgentLogLimit
  whole : ∀ text, header = Utf8.encode text → LongestWhole text userAgentLogLimit stored

/-- The statement that stores the text fails if the text is none. -/
def refusing (stored : List UInt8) (ω : LoginStmt → Outcome) : LoginStmt → Outcome
  | .session userID .write => if Storable stored then ω (.session userID .write) else .failure
  | s => ω s

/-- A login with these bytes as its User-Agent. Where they are stored, they are the bytes of a text. -/
def AuthHandlers.loginFrom (h : AuthHandlers) (header : List UInt8) (r : LoginCall) (ω : LoginStmt → Outcome)
    (s : AuthServer) : Except ApiError LoginAnswer × AuthServer :=
  let stored := truncateBytes header userAgentLogLimit
  (h.login { r with userAgent := String.ofList (Utf8.characters stored) }).run (refusing stored ω) s

/-- A login that goes well without a User-Agent goes well with this one. -/
def LogsIn (header : List UInt8) : Prop :=
  ∀ (h : AuthHandlers) (r : LoginCall) (ω : LoginStmt → Outcome) (s : AuthServer),
    (h.login { r with userAgent := "" }).Answered ω s → ∃ answer, (h.loginFrom header r ω s).1 = .ok answer

/-- A header of so few bytes that they are not cut is a text, and no text at the beginning of one has a NUL. -/
def Keepable (header : List UInt8) : Prop :=
  (header.length ≤ userAgentLogLimit → Utf8.Valid header) ∧
    ∀ k ≤ userAgentLogLimit, Utf8.Valid (header.take k) → 0 ∉ header.take k

/-! ## The login -/

section Login

variable {h : AuthHandlers} {r : LoginCall} {user : AppUserRow} {ω : LoginStmt → Outcome} {s : AuthServer}

/-- Which text a row has does not decide whether it is stored. -/
theorem Db.replaceSession_userAgent {row : SessionRow} {db : Db} {r : Db × Option Session}
    (h : db.replaceSession row = .ok r) (userAgent : Option String) :
    ∃ db', db.replaceSession { row with userAgent } = .ok (db', some { row with userAgent }.scan) := by
  unfold Db.replaceSession at h ⊢
  split_ifs at h ⊢
  exact ⟨_, rfl⟩

theorem replaceSession_userAgent {id : UUID} {new : NewSession} {ω : StampedStmt → Outcome} {w : World Db Time}
    {session : Session} (hrun : ((replaceSession id new).run ω w).1 = .ok session) (userAgent : String) :
    ∃ session', ((replaceSession id { new with userAgent }).run ω w).1 = .ok session' ∧
      session'.id = session.id ∧ session'.issuedAt = session.issuedAt ∧
      session'.absoluteExpires = session.absoluteExpires := by
  unfold replaceSession at hrun ⊢
  rw [run_bind_of_ok (stampAt_run _ _), run_mapError, returning, run_write] at hrun ⊢
  cases hω : ω .write with
  | noRow => simp [hω, Outcome.returned, Except.map] at hrun
  | failure => simp [hω, Outcome.returned, Except.map] at hrun
  | ok =>
    cases hstored : w.db.replaceSession (new.row id (stampOf w.now new.issuedAt)) with
    | error x => simp [hω, hstored, Outcome.returned, Except.map] at hrun
    | ok r =>
      obtain ⟨-, -, rfl⟩ := Db.replaceSession_eq_ok hstored
      obtain ⟨db', hstored'⟩ := Db.replaceSession_userAgent hstored
        (if userAgent = "" then none else some userAgent)
      have hrow : { new with userAgent }.row id (stampOf w.now new.issuedAt) =
          { new.row id (stampOf w.now new.issuedAt) with
            userAgent := if userAgent = "" then none else some userAgent } := rfl
      simp only [hω, hstored, Outcome.returned, Except.map] at hrun
      simp only [hrow, hstored', Outcome.returned, Except.map]
      cases hrun
      exact ⟨_, rfl, rfl, rfl, rfl⟩

theorem onDb_run {ℓ χ α : Type} (p : Program ℓ Db Time χ α) (ω : ℓ → Outcome) (s : AuthServer) :
    (onDb p).run ω s = ((p.run ω s.world).1, s.setWorld (p.run ω s.world).2) :=
  @run_onPart _ _ _ _ _ _ AuthServer.world AuthServer.setWorld (fun _ _ => rfl) (fun _ _ _ => rfl) (fun _ => rfl) ω p s

/-- A session is started whatever its text is. -/
theorem startSession_userAgent (hstarted : (h.startSession r user).Answered ω s) (userAgent : String) :
    (h.startSession { r with userAgent } user).Answered ω s := by
  unfold AuthHandlers.startSession at hstarted ⊢
  refine hstarted.bind_mono fun issued s₁ hstarted => ?_
  rw [answered_bind] at hstarted ⊢
  obtain ⟨session, hsession, hstarted⟩ := hstarted
  have hstored := run_mapError_eq_ok (Prod.ext hsession rfl)
  rw [onDb_run, run_within] at hstored
  obtain ⟨session', hstored', hid, hissuedAt, hexpires⟩ :=
    replaceSession_userAgent (congrArg Prod.fst hstored) (truncate userAgent userAgentLogLimit)
  refine ⟨session', ?_, ?_⟩
  · rw [run_mapError, onDb_run, run_within, hstored']
    rfl
  · rw [answered_ofExcept_bind] at hstarted ⊢
    obtain ⟨token, htoken, hcsrf⟩ := hstarted
    refine ⟨token, by rw [hid, hissuedAt, hexpires, htoken], ?_⟩
    -- what is drawn for the cookies does not depend on the state
    unfold Prog.Answered at hcsrf ⊢
    rw [run_step] at hcsrf ⊢
    split_ifs at hcsrf ⊢
    · cases hcsrf.choose_spec
    · exact ⟨_, rfl⟩

theorem noteLogin_answered : (AuthHandlers.noteLogin user).Answered ω s := by
  unfold AuthHandlers.noteLogin
  rw [answered_bind]
  refine ⟨_, congrArg Prod.fst (onDb_run _ ω s), ?_⟩
  rw [answered_bind]
  exact ⟨_, by rw [run_succeeds], answered_done ()⟩

theorem acceptLogin_userAgent {name password : String} (haccepted : (h.acceptLogin r name password user).Answered ω s)
    (userAgent : String) : (h.acceptLogin { r with userAgent } name password user).Answered ω s := by
  unfold AuthHandlers.acceptLogin at haccepted ⊢
  refine haccepted.bind_mono fun _ s₁ haccepted => haccepted.bind_mono fun _ s₂ haccepted => ?_
  rw [answered_bind] at haccepted ⊢
  obtain ⟨started, hstarted, -⟩ := haccepted
  obtain ⟨started', hstarted'⟩ := startSession_userAgent ⟨started, hstarted⟩ userAgent
  refine ⟨started', hstarted', ?_⟩
  rw [answered_bind]
  let s₃ := ((h.startSession { r with userAgent } user).run ω s₂).2
  obtain ⟨_, hnoted⟩ : (AuthHandlers.noteLogin user).Answered ω s₃ := noteLogin_answered
  exact ⟨_, hnoted, answered_done _⟩

/-- **A login goes well whatever text its User-Agent is.** -/
theorem login_userAgent (hlogin : (h.login r).Answered ω s) (userAgent : String) :
    (h.login { r with userAgent }).Answered ω s := by
  unfold AuthHandlers.login at hlogin ⊢
  refine hlogin.bind_mono fun body s₁ hlogin => hlogin.bind_mono fun _ s₂ hlogin => ?_
  split_ifs at hlogin ⊢
  · exact hlogin
  · exact hlogin.bind_mono fun user s₃ hlogin => hlogin.bind_mono fun _ s₄ hlogin =>
      acceptLogin_userAgent hlogin userAgent

end Login

/-! ## Which headers are kept -/

section Header

variable {header : List UInt8}

theorem refusing_of_storable {stored : List UInt8} (hstorable : Storable stored) (ω : LoginStmt → Outcome) :
    refusing stored ω = ω := by
  funext l
  unfold refusing
  split
  · exact if_pos hstorable
  · rfl

theorem logsIn_of_storable (hstorable : Storable (truncateBytes header userAgentLogLimit)) : LogsIn header := by
  intro h r ω s hlogin
  unfold AuthHandlers.loginFrom
  dsimp only
  rw [refusing_of_storable hstorable]
  exact login_userAgent hlogin _

theorem keptUserAgent_of_storable (hstorable : Storable (truncateBytes header userAgentLogLimit)) :
    KeptUserAgent header (truncateBytes header userAgentLogLimit) where
  storable := hstorable
  bounded := length_truncateBytes
  whole := by
    rintro text rfl
    exact truncateBytes_longestWhole text userAgentLogLimit

/-- The bytes that are left are a text at the beginning of the header, and every other such text is in them. -/
theorem storable_truncateBytes_iff : Storable (truncateBytes header userAgentLogLimit) ↔ Keepable header := by
  constructor
  · intro hstorable
    refine ⟨truncateBytes_valid_iff.mp hstorable.valid, fun k hk hvalid hnul => hstorable.noNul ?_⟩
    have hfits : (header.take k).length ≤ userAgentLogLimit := (List.length_take_le k header).trans hk
    exact (prefix_truncateBytes (List.take_prefix k header) hvalid hfits).subset hnul
  · rintro ⟨hshort, hnul⟩
    have hvalid := truncateBytes_valid_iff.mpr hshort
    refine ⟨hvalid, ?_⟩
    have htake := List.prefix_iff_eq_take.mp (truncateBytes_isPrefix (s := header) (n := userAgentLogLimit))
    rw [htake] at hvalid ⊢
    exact hnul _ length_truncateBytes hvalid

/-- **The User-Agent is kept, and no login fails for it**, if and only if a header that is not cut is a text, and
no text that one begins with has a NUL. -/
theorem userAgent_kept_iff (header : List UInt8) :
    (KeptUserAgent header (truncateBytes header userAgentLogLimit) ∧ LogsIn header) ↔ Keepable header := by
  rw [← storable_truncateBytes_iff]
  constructor
  · rintro ⟨hkept, -⟩
    exact hkept.storable
  · intro hstorable
    exact ⟨keptUserAgent_of_storable hstorable, logsIn_of_storable hstorable⟩

/-- One byte that is no text is stored as it is, and Anna is not let in with her password. -/
theorem userAgent_kept_not : ¬ ∀ header : List UInt8,
    KeptUserAgent header (truncateBytes header userAgentLogLimit) ∧ LogsIn header := by
  intro hevery
  obtain ⟨-, hlogsIn⟩ := hevery [0xFF]
  have hwithout : ((plainAuth.login (annaWith "kebab" ⟨9⟩)).run (fun _ => .ok) annasServer).1.isOk = true := by
    decide +kernel
  have hwith : (plainAuth.loginFrom [0xFF] (annaWith "kebab" ⟨9⟩) (fun _ => .ok) annasServer).1.isOk = false := by
    decide +kernel
  obtain ⟨answer, s', hok⟩ := eq_ok_of_isOk hwithout
  obtain ⟨answer', hok'⟩ := hlogsIn plainAuth (annaWith "kebab" ⟨9⟩) _ _ ⟨answer, congrArg Prod.fst hok⟩
  rw [hok'] at hwith
  cases hwith

end Header

end Doenerstag
