import Mathlib.Data.List.Infix
import Mathlib.Data.Nat.Basic

/-!
# Text in UTF-16

A text as its UTF-16 code units, the way a JavaScript string holds it. A character beyond the first
plane takes two units, a surrogate pair.

* `units`, `encode` — the units of a character and of a text.
* `characters` — a text taken apart at its characters; `characters_encode` — **these are the characters
  it was made of.**
* `le`, `le_units`, `units_le` — texts are compared unit by unit, and a single character so that it compares
  like its code point with the characters of the first planes.
* `infix_encode_iff` — a character occurs in a text of such characters just if it is one of them.
-/

namespace Utf16

/-- The code units of a character. -/
def units (c : Char) : List Nat :=
  if c.toNat < 0x10000 then [c.toNat]
  else [0xD800 + (c.toNat - 0x10000) / 0x400, 0xDC00 + (c.toNat - 0x10000) % 0x400]

def encode (text : List Char) : List Nat := text.flatMap units

/-- A high and a low surrogate, side by side. -/
def isPair (u v : Nat) : Bool := 0xD800 ≤ u && u < 0xDC00 && (0xDC00 ≤ v && v < 0xE000)

/-- The units of each character. -/
def characters : List Nat → List (List Nat)
  | [] => []
  | [u] => [[u]]
  | u :: v :: rest =>
    if isPair u v then [u, v] :: characters rest else [u] :: characters (v :: rest)

/-- The code point of a character, from its units. -/
def codePoint : List Nat → Nat
  | [u, v] => 0x10000 + (u - 0xD800) * 0x400 + (v - 0xDC00)
  | u :: _ => u
  | [] => 0

/-- Comparison of two texts, unit by unit. -/
def le : List Nat → List Nat → Bool
  | [], _ => true
  | _ :: _, [] => false
  | u :: us, v :: vs => u < v || (u == v && le us vs)

theorem units_first {c : Char} (h : c.toNat < 0x10000) : units c = [c.toNat] := if_pos h

theorem units_pair {c : Char} (h : ¬ c.toNat < 0x10000) :
    units c = [0xD800 + (c.toNat - 0x10000) / 0x400, 0xDC00 + (c.toNat - 0x10000) % 0x400] :=
  if_neg h

/-- A character is none of the surrogates. -/
theorem toNat_range (c : Char) : c.toNat < 0xD800 ∨ 0xE000 ≤ c.toNat ∧ c.toNat < 0x110000 := by
  have h : c.val.toNat < 0xD800 ∨ 0xDFFF < c.val.toNat ∧ c.val.toNat < 0x110000 := c.valid
  show c.val.toNat < _ ∨ _ ≤ c.val.toNat ∧ c.val.toNat < _
  omega

theorem characters_single {u : Nat} (hu : ¬ (0xD800 ≤ u ∧ u < 0xDC00)) (rest : List Nat) :
    characters (u :: rest) = [u] :: characters rest := by
  cases rest with
  | nil => rfl
  | cons v rest =>
    have hpair : isPair u v = false := by
      refine Bool.eq_false_iff.mpr fun h => hu ?_
      simp only [isPair, Bool.and_eq_true, decide_eq_true_eq] at h
      exact h.1
    rw [characters, hpair]
    rfl

theorem characters_pair {u v : Nat} (h : isPair u v = true) (rest : List Nat) :
    characters (u :: v :: rest) = [u, v] :: characters rest := by
  rw [characters, if_pos h]

/-- **Taken apart, a text gives the characters it was made of.** -/
theorem characters_encode (text : List Char) : characters (encode text) = text.map units := by
  induction text with
  | nil => rfl
  | cons c rest ih =>
    have hrange := toNat_range c
    show characters (units c ++ encode rest) = units c :: rest.map units
    rw [← ih]
    by_cases h : c.toNat < 0x10000
    · rw [units_first h]
      exact characters_single (by omega) _
    · rw [units_pair h]
      refine characters_pair ?_ _
      unfold isPair
      simp only [Bool.and_eq_true, decide_eq_true_eq]
      omega

theorem codePoint_units (c : Char) : codePoint (units c) = c.toNat := by
  by_cases h : c.toNat < 0x10000
  · rw [units_first h]
    rfl
  · have hplane : ∀ m hi lo : Nat,
        codePoint [hi + m / 0x400, lo + m % 0x400] =
          0x10000 + (hi + m / 0x400 - 0xD800) * 0x400 + (lo + m % 0x400 - 0xDC00) :=
      fun m hi lo => rfl
    rw [units_pair h, hplane, Nat.add_sub_cancel_left, Nat.add_sub_cancel_left, Nat.add_assoc,
      Nat.div_add_mod']
    exact Nat.add_sub_cancel' (Nat.le_of_not_lt h)

/-! ## Characters of the first planes -/

theorem le_single (u v : Nat) (us vs : List Nat) (hlonger : u = v → le us vs = decide (u ≤ v)) :
    le (u :: us) (v :: vs) = decide (u ≤ v) := by
  show (decide (u < v) || (u == v && le us vs)) = decide (u ≤ v)
  rcases Nat.lt_trichotomy u v with h | h | h
  · rw [decide_eq_true h, decide_eq_true (Nat.le_of_lt h), Bool.true_or]
  · rw [hlonger h, decide_eq_false (by omega), decide_eq_true (Nat.le_of_eq h), beq_iff_eq.mpr h]
    rfl
  · rw [decide_eq_false (by omega), decide_eq_false (by omega), beq_eq_false_iff_ne.mpr (by omega)]
    rfl

theorem le_units {a : Nat} (ha : a < 0xD800) (c : Char) : le [a] (units c) = decide (a ≤ c.toNat) := by
  have hrange := toNat_range c
  by_cases h : c.toNat < 0x10000
  · rw [units_first h]
    exact le_single a c.toNat [] [] fun heq => (decide_eq_true (Nat.le_of_eq heq)).symm
  · rw [units_pair h, le_single a _ [] _ fun heq => by omega]
    exact decide_eq_decide.mpr (by omega)

theorem units_le {a : Nat} (ha : a < 0xD800) (c : Char) : le (units c) [a] = decide (c.toNat ≤ a) := by
  have hrange := toNat_range c
  by_cases h : c.toNat < 0x10000
  · rw [units_first h]
    exact le_single c.toNat a [] [] fun heq => (decide_eq_true (Nat.le_of_eq heq)).symm
  · rw [units_pair h, le_single _ a _ [] fun heq => by omega]
    exact decide_eq_decide.mpr (by omega)

theorem encode_first {text : List Char} (h : ∀ c ∈ text, c.toNat < 0xD800) :
    encode text = text.map Char.toNat := by
  induction text with
  | nil => rfl
  | cons c rest ih =>
    have hc := h c List.mem_cons_self
    show units c ++ encode rest = c.toNat :: rest.map Char.toNat
    rw [units_first (by omega), ih fun x hx => h x (List.mem_cons_of_mem _ hx)]
    rfl

/-- A character occurs in a text of the first planes just if it is one of its characters. -/
theorem infix_encode_iff {text : List Char} (h : ∀ c ∈ text, c.toNat < 0xD800) (c : Char) :
    units c <:+: encode text ↔ c ∈ text := by
  rw [encode_first h]
  constructor
  · intro hwithin
    have hmem : ∀ u ∈ units c, ∃ x ∈ text, x.toNat = u :=
      fun u hu => List.mem_map.mp (hwithin.subset hu)
    by_cases hc : c.toNat < 0x10000
    · rw [units_first hc] at hmem
      obtain ⟨x, hx, heq⟩ := hmem c.toNat List.mem_cons_self
      rwa [← Char.toNat_inj.mp heq]
    · rw [units_pair hc] at hmem
      obtain ⟨x, hx, heq⟩ := hmem _ List.mem_cons_self
      have hbelow := h x hx
      omega
  · intro hmem
    rw [units_first (by have := h c hmem; omega), List.singleton_infix_iff]
    exact List.mem_map.mpr ⟨c, hmem, rfl⟩

end Utf16
