import Doenerstag.Api.PasswordReset
import Doenerstag.Go.Strings
import Doenerstag.Lib.Base64

/-!
# Reset tokens (`internal/auth/reset.go`)

A reset token says who it is for and when it stops working, and is signed. Nothing is stored for it.
The texts of a payload are bytes, so that each character stands for one.

* `parseReset_issueReset` — **a token names the account it was issued for, until it expires.**
* `IsToken` — a payload with the signature of its encoding.
* `resetTokens_exact` — **nothing else is accepted.**
-/

namespace Doenerstag

/-- `Time.Unix` -/
def Time.unix (t : Time) : Int64 := Int64.ofInt (t / Time.second)

/-! ## Tokens -/

/-- `ResetSigner`; what HMAC and SHA-256 make of a text is another library's. -/
structure ResetSigner where
  rt : Runtime
  /-- `sign`, with the secret -/
  sign : String → String
  /-- `tokenIdentity` -/
  identity : String → String

def resetSeparator : Char := '~'

namespace ResetSigner

variable (s : ResetSigner)

def resetPayload (user : UUID) (now : Time) : String :=
  user.string ++ "." ++ toString (Time.unix (now + resetLifetime)).toInt

def issueReset (user : UUID) (now : Time) : String :=
  let encoded := String.ofList (Base64.encode ((resetPayload user now).toList.map Char.toNat))
  encoded ++ String.singleton resetSeparator ++ s.sign encoded

/-- The payload of a token that is one of ours. -/
def openToken (token : String) : Option (List Char) :=
  (cut resetSeparator token.toList).bind fun (encoded, signature) =>
    if signature = (s.sign (String.ofList encoded)).toList then
      (Base64.decode encoded).map fun raw => raw.map Char.ofNat
    else none

/-- What a payload says: the account, and when the token expires. -/
def readPayload (raw : List Char) : Option (UUID × Time) :=
  (cut '.' raw).bind fun (idPart, expiryPart) =>
    (s.rt.parseUUID (String.ofList idPart)).bind fun user =>
      (parseInt64 expiryPart).map fun seconds => (user, seconds * Time.second)

def readReset (token : String) : Option (UUID × Time) := (s.openToken token).bind s.readPayload

def parseReset (token : String) (now : Time) : Except ResetError (UUID × String) :=
  match s.readReset token with
  | none => .error .invalid
  | some (user, expires) =>
    if expires ≤ now then .error .expired else .ok (user, s.identity token)

/-- The characters of an account's identifier. -/
theorem mem_uuidString {id : UUID} : ∀ c ∈ id.string.toList, c.toNat < 128 ∧ c ≠ '.' := by
  have hdigit : ∀ x < 16, (Nat.digitChar x).toNat < 128 ∧ Nat.digitChar x ≠ '.' := by decide
  intro c hc
  obtain rfl | ⟨x, hx, rfl⟩ := UUID.mem_string hc
  · decide
  · exact hdigit x hx

theorem resetPayload_toList (user : UUID) (now : Time) : (resetPayload user now).toList =
    user.string.toList ++ '.' :: (toString (Time.unix (now + resetLifetime)).toInt).toList := by
  rw [resetPayload, String.toList_append, String.toList_append, List.append_assoc]
  rfl

theorem resetPayload_bytes (user : UUID) (now : Time) :
    ∀ b ∈ (resetPayload user now).toList.map Char.toNat, b < 256 := by
  intro b hb
  obtain ⟨c, hc, rfl⟩ := List.mem_map.mp hb
  rw [resetPayload_toList, List.mem_append, List.mem_cons] at hc
  have hascii : c.toNat < 128 := by
    rcases hc with hc | rfl | hc
    · exact (mem_uuidString c hc).1
    · decide
    · exact mem_intString c hc
  omega

/-- A token that was issued opens to its payload. -/
theorem openToken_issueReset (user : UUID) (now : Time) :
    s.openToken (s.issueReset user now) = some (resetPayload user now).toList := by
  have hbytes := resetPayload_bytes user now
  have hchars : ((resetPayload user now).toList.map Char.toNat).map Char.ofNat =
      (resetPayload user now).toList := by
    rw [List.map_map]
    exact (List.map_congr_left fun c _ => Char.ofNat_toNat c).trans (List.map_id _)
  unfold openToken issueReset
  generalize (resetPayload user now).toList.map Char.toNat = raw at hbytes hchars
  have hseparator : resetSeparator ∉ Base64.encode raw := by
    have halphabet : resetSeparator ∉ Base64.alphabet := by decide
    exact fun h => halphabet (Base64.mem_encode hbytes _ h)
  have htext : (String.ofList (Base64.encode raw) ++ String.singleton resetSeparator ++
      s.sign (String.ofList (Base64.encode raw))).toList =
        Base64.encode raw ++ resetSeparator :: (s.sign (String.ofList (Base64.encode raw))).toList := by
    simp only [String.toList_append, String.toList_ofList, String.toList_singleton,
      List.append_assoc, List.singleton_append]
  rw [htext, cut_append hseparator, Option.bind_some]
  dsimp only
  rw [if_pos rfl, Base64.decode_encode hbytes, Option.map_some, hchars]

/-- **A token names the account it was issued for.** -/
theorem readReset_issueReset {user : UUID} (hparse : s.rt.parseUUID user.string = some user)
    (now : Time) : s.readReset (s.issueReset user now) =
      some (user, (Time.unix (now + resetLifetime)).toInt * Time.second) := by
  have hdot : '.' ∉ user.string.toList := fun h => (mem_uuidString '.' h).2 rfl
  rw [readReset, openToken_issueReset, Option.bind_some, readPayload, resetPayload_toList,
    cut_append hdot, Option.bind_some]
  dsimp only
  rw [String.ofList_toList, hparse, Option.bind_some, parseInt64_toString, Option.map_some]

/-- When a token expires that is issued at an instant -/
def stampedExpiry (issued : Time) : Time := (Time.unix (issued + resetLifetime)).toInt * Time.second

/-- It is the end of the lifetime in whole seconds, where an `int64` has room for these. -/
theorem stampedExpiry_eq {issued : Time} (hroom : Wrapped.Fits ((issued + resetLifetime) / Time.second)) :
    stampedExpiry issued = (issued + resetLifetime) / Time.second * Time.second := by
  unfold stampedExpiry Time.unix
  rw [Int64.toInt_ofInt_of_le hroom.1 hroom.2]

/-- **A token is accepted until it expires.** -/
theorem parseReset_issueReset {user : UUID} (hparse : s.rt.parseUUID user.string = some user)
    (issued now : Time) : s.parseReset (s.issueReset user issued) now =
      if now < stampedExpiry issued then .ok (user, s.identity (s.issueReset user issued))
      else .error .expired := by
  unfold parseReset
  rw [s.readReset_issueReset hparse]
  show (if stampedExpiry issued ≤ now then _ else _) = _
  by_cases htime : now < stampedExpiry issued
  · rw [if_pos htime, if_neg (Int.not_le.mpr htime)]
  · rw [if_neg htime, if_pos (Int.not_lt.mp htime)]

/-! ## Nothing else is a token -/

/-- A token for an account, until a moment: an encoding of a payload that says so, the separator, and the
signature of that very encoding. -/
inductive IsToken (user : UUID) (expires : Time) : String → Prop where
  | signed {encoded : String} {raw : List Nat} {idPart expiryPart : List Char} {seconds : Int}
      (separator : resetSeparator ∉ encoded.toList) (decoded : Base64.decode encoded.toList = some raw)
      (payload : raw.map Char.ofNat = idPart ++ '.' :: expiryPart) (dot : '.' ∉ idPart)
      (account : s.rt.parseUUID (String.ofList idPart) = some user)
      (stamp : parseInt64 expiryPart = some seconds) (expiry : expires = seconds * Time.second) :
      IsToken user expires (encoded ++ String.singleton resetSeparator ++ s.sign encoded)

theorem signed_toList (encoded : String) :
    (encoded ++ String.singleton resetSeparator ++ s.sign encoded).toList =
      encoded.toList ++ resetSeparator :: (s.sign encoded).toList := by
  simp only [String.toList_append, String.toList_singleton, List.append_assoc, List.singleton_append]

theorem openToken_eq_some_iff {token : String} {payload : List Char} :
    s.openToken token = some payload ↔ ∃ encoded raw, resetSeparator ∉ encoded.toList ∧
      token = encoded ++ String.singleton resetSeparator ++ s.sign encoded ∧
      Base64.decode encoded.toList = some raw ∧ raw.map Char.ofNat = payload := by
  constructor
  · intro h
    obtain ⟨⟨encoded, signature⟩, hcut, hopen⟩ := Option.bind_eq_some_iff.mp h
    obtain ⟨hseparator, htoken⟩ := cut_eq_some_iff.mp hcut
    dsimp only at hopen
    split_ifs at hopen with hsigned
    obtain ⟨raw, hdecoded, hpayload⟩ := Option.map_eq_some_iff.mp hopen
    refine ⟨String.ofList encoded, raw, ?_, ?_, ?_, hpayload⟩
    · rwa [String.toList_ofList]
    · apply String.toList_injective
      rw [signed_toList, htoken, String.toList_ofList, hsigned]
    · rwa [String.toList_ofList]
  · rintro ⟨encoded, raw, hseparator, rfl, hdecoded, rfl⟩
    unfold openToken
    rw [signed_toList, cut_append hseparator, Option.bind_some]
    dsimp only
    rw [String.ofList_toList, if_pos rfl, hdecoded, Option.map_some]

theorem readPayload_eq_some_iff {payload : List Char} {user : UUID} {expires : Time} :
    s.readPayload payload = some (user, expires) ↔ ∃ idPart expiryPart seconds, '.' ∉ idPart ∧
      payload = idPart ++ '.' :: expiryPart ∧ s.rt.parseUUID (String.ofList idPart) = some user ∧
      parseInt64 expiryPart = some seconds ∧ expires = seconds * Time.second := by
  constructor
  · intro h
    obtain ⟨⟨idPart, expiryPart⟩, hcut, hread⟩ := Option.bind_eq_some_iff.mp h
    obtain ⟨hdot, hpayload⟩ := cut_eq_some_iff.mp hcut
    obtain ⟨account, haccount, hread⟩ := Option.bind_eq_some_iff.mp hread
    obtain ⟨seconds, hstamp, hpair⟩ := Option.map_eq_some_iff.mp hread
    cases hpair
    exact ⟨idPart, expiryPart, seconds, hdot, hpayload, haccount, hstamp, rfl⟩
  · rintro ⟨idPart, expiryPart, seconds, hdot, rfl, haccount, hstamp, rfl⟩
    unfold readPayload
    rw [cut_append hdot, Option.bind_some]
    dsimp only
    rw [haccount, Option.bind_some, hstamp, Option.map_some]

theorem readReset_eq_some_iff {token : String} {user : UUID} {expires : Time} :
    s.readReset token = some (user, expires) ↔ s.IsToken user expires token := by
  unfold readReset
  rw [Option.bind_eq_some_iff]
  constructor
  · rintro ⟨payload, hopen, hread⟩
    obtain ⟨encoded, raw, hseparator, rfl, hdecoded, rfl⟩ := s.openToken_eq_some_iff.mp hopen
    obtain ⟨idPart, expiryPart, seconds, hdot, hpayload, haccount, hstamp, hexpiry⟩ :=
      s.readPayload_eq_some_iff.mp hread
    exact .signed hseparator hdecoded hpayload hdot haccount hstamp hexpiry
  · rintro ⟨hseparator, hdecoded, hpayload, hdot, haccount, hstamp, hexpiry⟩
    exact ⟨_, s.openToken_eq_some_iff.mpr ⟨_, _, hseparator, rfl, hdecoded, rfl⟩,
      s.readPayload_eq_some_iff.mpr ⟨_, _, _, hdot, hpayload, haccount, hstamp, hexpiry⟩⟩

/-- **What is accepted is a token that has not expired, and every such token is.** -/
theorem parseReset_eq_ok_iff {token id : String} {user : UUID} {now : Time} :
    s.parseReset token now = .ok (user, id) ↔
      ∃ expires, s.IsToken user expires token ∧ now < expires ∧ id = s.identity token := by
  constructor
  · intro h
    unfold parseReset at h
    cases hread : s.readReset token with
    | none =>
      rw [hread] at h
      cases h
    | some found =>
      obtain ⟨account, expires⟩ := found
      rw [hread] at h
      dsimp only at h
      split_ifs at h with htime
      cases h
      exact ⟨expires, s.readReset_eq_some_iff.mp hread, Int.not_le.mp htime, rfl⟩
  · rintro ⟨expires, htoken, htime, rfl⟩
    unfold parseReset
    rw [s.readReset_eq_some_iff.mpr htoken]
    exact if_neg (Int.not_le.mpr htime)

/-- **Parsing inverts issuing, and nothing else parses.** A token that was issued for an account names it
as long as the expiry stamped in it has not come, which is the end of the lifetime in whole seconds; and
what is accepted at all is an encoded payload with the signature of that very encoding. -/
theorem resetTokens_exact {user : UUID} (hparse : s.rt.parseUUID user.string = some user) :
    (∀ issued now, (∃ id, s.parseReset (s.issueReset user issued) now = .ok (user, id)) ↔
      now < stampedExpiry issued) ∧
    (∀ issued, Wrapped.Fits ((issued + resetLifetime) / Time.second) →
      stampedExpiry issued = (issued + resetLifetime) / Time.second * Time.second) ∧
    ∀ token now account id, s.parseReset token now = .ok (account, id) ↔
      ∃ expires, s.IsToken account expires token ∧ now < expires ∧ id = s.identity token := by
  refine ⟨fun issued now => ?_, fun issued hroom => stampedExpiry_eq hroom,
    fun token now account id => s.parseReset_eq_ok_iff⟩
  rw [s.parseReset_issueReset hparse]
  constructor
  · rintro ⟨id, hok⟩
    split_ifs at hok with htime
    · exact htime
  · intro htime
    exact ⟨_, if_pos htime⟩

end ResetSigner

/-- Signatures that are not checked, and identities that are the tokens themselves. -/
def plainResetSigner : ResetSigner := { rt := .ascii, sign := fun _ => "", identity := fun t => t }

/-- The first account's -/
theorem resetTokens_exact_first :
    (∃ id, plainResetSigner.parseReset (plainResetSigner.issueReset ⟨1⟩ 0) 0 = .ok (⟨1⟩, id)) ∧
      ¬ ∃ id, plainResetSigner.parseReset (plainResetSigner.issueReset ⟨1⟩ 0) Time.hour = .ok (⟨1⟩, id) := by
  have hparse : plainResetSigner.rt.parseUUID (⟨1⟩ : UUID).string = some ⟨1⟩ := by decide
  obtain ⟨hissued, -, -⟩ := plainResetSigner.resetTokens_exact hparse
  exact ⟨(hissued 0 0).mpr (by decide), fun h => absurd ((hissued 0 Time.hour).mp h) (by decide)⟩

end Doenerstag
