import Doenerstag.Lib.JsonText

/-!
# Writing JSON (`encoding/json`)

`json.Marshal` writes a string with what would end the string or the line escaped, and with what HTML or
JavaScript takes for its own.

* `marshal_read` — **what is marshalled is read as it was.**
* `marshal_line` — **what is marshalled stands on one line**, whatever the strings in it are.
-/

namespace Doenerstag

open JsonText

/-- `appendString`: what is written for a character. -/
def escapeJSON (c : Char) : List Char :=
  if c = '\\' ∨ c = '"' then ['\\', c]
  else if c = '\x08' then ['\\', 'b']
  else if c = '\x0c' then ['\\', 'f']
  else if c = '\n' then ['\\', 'n']
  else if c = '\r' then ['\\', 'r']
  else if c = '\t' then ['\\', 't']
  else if c.toNat < 0x20 ∨ c = '<' ∨ c = '>' ∨ c = '&' then
    ['\\', 'u', '0', '0', Nat.digitChar (c.toNat / 16), Nat.digitChar (c.toNat % 16)]
  else if c = '\u2028' ∨ c = '\u2029' then ['\\', 'u', '2', '0', '2', Nat.digitChar (c.toNat % 16)]
  else [c]

/-- `json.Marshal` -/
def marshal (v : Doc) : List Char := write escapeJSON v

theorem digitChar_first : ∀ n < 16, (Nat.digitChar n).toNat < 0xD800 := by decide

theorem hexUnit_low : ∀ n < 64, hexUnit '0'.toNat '0'.toNat (Nat.digitChar (n / 16)).toNat
    (Nat.digitChar (n % 16)).toNat = some n := by decide

theorem toNat_ne {c d : Char} (h : c ≠ d) : c.toNat ≠ d.toNat := fun heq => h (Char.toNat_inj.mp heq)

/-- A character that is written by its number -/
theorem encode_hex {a b c d : Char} (ha : a.toNat < 0xD800) (hb : b.toNat < 0xD800) (hc : c.toNat < 0xD800)
    (hd : d.toNat < 0xD800) : Utf16.encode ['\\', 'u', a, b, c, d] =
      ['\\'.toNat, 'u'.toNat, a.toNat, b.toNat, c.toNat, d.toNat] :=
  Utf16.encode_first fun x hx => by
    simp only [List.mem_cons, List.not_mem_nil, or_false] at hx
    rcases hx with rfl | rfl | rfl | rfl | rfl | rfl
    · decide
    · decide
    · exact ha
    · exact hb
    · exact hc
    · exact hd

/-- A character that is written as it is: one unit, or the two of a surrogate pair. -/
theorem stringBody_self {c : Char} (hself : ¬ (c = '\\' ∨ c = '"')) (hcontrol : ¬ c.toNat < 0x20)
    (rest : List Nat) : stringBody (Utf16.encode [c] ++ rest) =
      (stringBody rest).map fun r => (Utf16.units c ++ r.1, r.2) := by
  have hquote : c.toNat ≠ '"'.toNat := toNat_ne fun heq => hself (.inr heq)
  have hslash : c.toNat ≠ '\\'.toNat := toNat_ne fun heq => hself (.inl heq)
  have hone : Utf16.encode [c] = Utf16.units c := List.flatMap_singleton Utf16.units c
  have hrange := Utf16.toNat_range c
  have hhigh : ∀ u, 0xD800 ≤ u → ∀ rest, stringBody (u :: rest) =
      (stringBody rest).map fun r => (u :: r.1, r.2) := fun u hu =>
    stringBody_unit (by show u ≠ 0x22; omega) (by show u ≠ 0x5C; omega) (by omega)
  rw [hone]
  by_cases hfirst : c.toNat < 0x10000
  · rw [Utf16.units_first hfirst]
    exact stringBody_unit hquote hslash hcontrol rest
  · rw [Utf16.units_pair hfirst, List.cons_append, List.singleton_append, hhigh _ (by omega), hhigh _ (by omega),
      Option.map_map]
    rfl

/-- What is written for a character is read as that character. -/
theorem escapes_escapeJSON : Escapes escapeJSON where
  reads c rest := by
    unfold escapeJSON
    split_ifs with hself hb hf hn hr ht hcontrol hline
    · rcases hself with rfl | rfl
      · exact stringBody_escaped (by decide) rfl rest
      · exact stringBody_escaped (by decide) rfl rest
    · subst hb
      exact stringBody_escaped (by decide) rfl rest
    · subst hf
      exact stringBody_escaped (by decide) rfl rest
    · subst hn
      exact stringBody_escaped (by decide) rfl rest
    · subst hr
      exact stringBody_escaped (by decide) rfl rest
    · subst ht
      exact stringBody_escaped (by decide) rfl rest
    · have hlow : c.toNat < 64 := by
        rcases hcontrol with hlow | rfl | rfl | rfl
        · omega
        · decide
        · decide
        · decide
      have hdigit := digitChar_first (c.toNat / 16) (by omega)
      have hdigit' := digitChar_first (c.toNat % 16) (Nat.mod_lt _ (by decide))
      rw [encode_hex (by decide) (by decide) hdigit hdigit', Utf16.units_first (by omega)]
      exact stringBody_hex (hexUnit_low c.toNat hlow) rest
    · rcases hline with rfl | rfl
      · exact stringBody_hex (show hexUnit '2'.toNat '0'.toNat '2'.toNat '8'.toNat = some 0x2028 from rfl) rest
      · exact stringBody_hex (show hexUnit '2'.toNat '0'.toNat '2'.toNat '9'.toNat = some 0x2029 from rfl) rest
    · exact stringBody_self hself (fun h => hcontrol (.inl h)) rest

/-- No character of a string ends the line that it is written on. -/
theorem escapeJSON_line (c : Char) : ∀ d ∈ escapeJSON c, d ≠ '\n' ∧ d ≠ '\r' := by
  unfold escapeJSON
  split_ifs with hself hb hf hn hr ht hcontrol hline
  · rcases hself with rfl | rfl <;> simp
  · simp
  · simp
  · simp
  · simp
  · simp
  · simp
  · simp
  · simpa using ⟨hn, hr⟩

/-- **What is marshalled is read as it was.** -/
theorem marshal_read (v : Doc) : parse (Utf16.encode (marshal v)) = some (meaning v) :=
  parse_write escapes_escapeJSON v

/-- **What is marshalled stands on one line.** -/
theorem marshal_line (v : Doc) : '\n' ∉ marshal v ∧ '\r' ∉ marshal v := by
  have hall : punctuation.all (fun c => c ≠ '\n' ∧ c ≠ '\r') = true := by decide
  have hthroughout : Throughout escapeJSON fun c => c ≠ '\n' ∧ c ≠ '\r' :=
    { punctuation := fun c hc => by simpa using List.all_eq_true.mp hall c hc
      digits := fun c hc => ⟨fun heq => by simp [heq] at hc, fun heq => by simp [heq] at hc⟩
      strings := escapeJSON_line }
  exact ⟨fun h => (plain_write hthroughout v _ h).1 rfl, fun h => (plain_write hthroughout v _ h).2 rfl⟩

end Doenerstag
