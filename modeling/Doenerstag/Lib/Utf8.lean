import Mathlib.Data.List.Basic

/-!
# Text in UTF-8

Bytes are the text that they encode, or they are none.

* `encode`, `decode` — `decode_encode`: **what was encoded is decoded.**
* `characters` — whatever the bytes are, the characters that are met in them one after the other; a byte that
  begins none is met as U+FFFD. `characters_encode` — **a text is met as it is.**
* `Valid` — the bytes encode a text; `valid_iff` — that is, the characters in them do.
* `encode_prefix_iff` — what encodes a text and begins another one encodes the beginning of that.
-/

namespace Utf8

def encode (cs : List Char) : List UInt8 := cs.flatMap String.utf8EncodeChar

/-- Nothing, unless all of it is valid -/
def decode (bytes : List UInt8) : Option (List Char) := bytes.toByteArray.utf8Decode?.map Array.toList

/-- The character that the bytes begin with -/
def first (bytes : List UInt8) : Option Char := bytes.toByteArray.utf8DecodeChar? 0

/-- The characters in the first bytes, at most `n` of them -/
def charactersFrom : Nat → List UInt8 → List Char
  | 0, _ => []
  | _ + 1, [] => []
  | n + 1, b :: rest =>
    match first (b :: rest) with
    | some c => c :: charactersFrom n ((b :: rest).drop c.utf8Size)
    | none => '\uFFFD' :: charactersFrom n rest

def characters (bytes : List UInt8) : List Char := charactersFrom bytes.length bytes

/-- The bytes of a text in a program -/
def literal (s : String) : List UInt8 := encode s.toList

def Valid (bytes : List UInt8) : Prop := ∃ cs, encode cs = bytes

/-! ## Encoding and decoding -/

theorem encode_cons (c : Char) (cs : List Char) : encode (c :: cs) = String.utf8EncodeChar c ++ encode cs :=
  List.flatMap_cons

theorem encode_toByteArray (cs : List Char) : (encode cs).toByteArray = cs.utf8Encode := rfl

theorem decode_encode (cs : List Char) : decode (encode cs) = some cs := by
  unfold decode
  rw [encode_toByteArray, List.utf8Decode?_utf8Encode, Option.map_some]

/-! ## Characters -/

theorem first_append (c : Char) (bytes : List UInt8) : first (String.utf8EncodeChar c ++ bytes) = some c := by
  unfold first
  rw [List.toByteArray_append, ByteArray.utf8DecodeChar?_utf8EncodeChar_append]

theorem first_encode (c : Char) (cs : List Char) : first (encode (c :: cs)) = some c := by
  rw [encode_cons, first_append]

theorem charactersFrom_encode (cs : List Char) {n : Nat} (hn : cs.length ≤ n) : charactersFrom n (encode cs) = cs := by
  induction cs generalizing n with
  | nil => cases n <;> rfl
  | cons c cs ih =>
    obtain ⟨m, rfl⟩ : ∃ m, n = m + 1 := ⟨n - 1, by simp at hn; omega⟩
    have hm : cs.length ≤ m := by simpa using hn
    have hfirst := first_encode c cs
    cases hbytes : encode (c :: cs) with
    | nil =>
      rw [hbytes] at hfirst
      cases hfirst
    | cons b rest =>
      rw [hbytes] at hfirst
      unfold charactersFrom
      rw [hfirst]
      dsimp only
      rw [← hbytes, encode_cons, ← String.length_utf8EncodeChar c, List.drop_left, ih hm]

theorem length_le_encode (cs : List Char) : cs.length ≤ (encode cs).length := by
  induction cs with
  | nil => exact Nat.zero_le _
  | cons c cs ih =>
    have hsize := c.utf8Size_pos
    rw [encode_cons, List.length_append, String.length_utf8EncodeChar, List.length_cons]
    omega

/-- **The characters in the bytes of a text are the text.** -/
theorem characters_encode (cs : List Char) : characters (encode cs) = cs :=
  charactersFrom_encode cs (length_le_encode cs)

theorem valid_iff (bytes : List UInt8) : Valid bytes ↔ encode (characters bytes) = bytes := by
  constructor
  · rintro ⟨cs, rfl⟩
    rw [characters_encode]
  · intro h
    exact ⟨characters bytes, h⟩

theorem valid_encode (cs : List Char) : Valid (encode cs) := ⟨cs, rfl⟩

theorem valid_nil : Valid [] := ⟨[], rfl⟩

instance (bytes : List UInt8) : Decidable (Valid bytes) := decidable_of_iff _ (valid_iff bytes).symm

/-! ## Beginnings -/

theorem encode_append (cs ds : List Char) : encode (cs ++ ds) = encode cs ++ encode ds := List.flatMap_append

theorem literal_append (a b : String) : literal (a ++ b) = literal a ++ literal b := by
  unfold literal
  rw [String.toList_append, encode_append]

theorem encode_prefix_iff {cs ds : List Char} : encode ds <+: encode cs ↔ ds <+: cs := by
  constructor
  · intro h
    induction ds generalizing cs with
    | nil => exact List.nil_prefix
    | cons d ds ih =>
      obtain ⟨rest, hrest⟩ := h
      rw [encode_cons, List.append_assoc] at hrest
      have hfirst : first (encode cs) = some d := by rw [← hrest, first_append]
      cases cs with
      | nil => cases hfirst
      | cons c cs =>
        -- both begin with the same character, and the rest is decided by the rest
        obtain rfl : c = d := Option.some.inj ((first_encode c cs).symm.trans hfirst)
        rw [encode_cons] at hrest
        exact (List.prefix_cons_inj c).mpr (ih ⟨rest, List.append_cancel_left hrest⟩)
  · rintro ⟨rest, rfl⟩
    rw [encode_append]
    exact List.prefix_append _ _

/-- Bytes that begin a text, and that are a text, are the beginning of that text. -/
theorem Valid.prefix_encode {bytes : List UInt8} {cs : List Char} (hvalid : Valid bytes)
    (h : bytes <+: encode cs) : ∃ ds, ds <+: cs ∧ bytes = encode ds := by
  obtain ⟨ds, rfl⟩ := hvalid
  exact ⟨ds, encode_prefix_iff.mp h, rfl⟩

end Utf8
