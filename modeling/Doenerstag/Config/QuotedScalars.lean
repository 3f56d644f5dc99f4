import Doenerstag.Config.Writer
import Doenerstag.Lib.Yaml

/-!
# Quoted values in the file (`internal/config/writer.go`)

`quote` takes a Go string, whose bytes need not be text, at the characters that a `range` meets in it. It
escapes five of them and writes the rest as they are.

* `quoteBytes` — `quote` of a string of bytes.
* `scan_quote` — what YAML reads between its quotes, on one line.
* `Survives` — the value is read from the file as it was.
* `survives_iff` — **a value survives if and only if it is UTF-8 and holds, apart from line feeds and carriage
  returns, nothing but characters that a document may hold and that end no line.**
-/

namespace Doenerstag

open Yaml

variable {y : Rules}

/-- `quote` -/
def quoteBytes (value : List UInt8) : List UInt8 := Utf8.encode (quote (Utf8.characters value))

/-- What may stand in a scalar as it is -/
def Bare (y : Rules) (c : Char) : Prop := y.printable c = true ∧ y.lineBreak c = none

/-- A character that `quote` can write -/
def Carried (y : Rules) (c : Char) : Prop := c = '\n' ∨ c = '\r' ∨ Bare y c

/-- The scalar is on one line, and is read as the value. -/
structure Survives (y : Rules) (value : List UInt8) : Prop where
  oneLine : ∃ text, Utf8.decode (quoteBytes value) = some text ∧ ∀ c ∈ text, y.lineBreak c = none
  reads : y.readScalar (quoteBytes value) = some value

/-! ## One character -/

theorem bare_ascii {c : Char} (hlow : 0x20 ≤ c.toNat) (hhigh : c.toNat ≤ 0x7E) : Bare y c := by
  have hbreak : ¬ (c = '\n' ∨ c = '\r') := by
    rintro (rfl | rfl)
    · exact absurd hlow (by decide)
    · exact absurd hlow (by decide)
  refine ⟨?_, ?_⟩
  · unfold Rules.printable
    simp [hlow, hhigh]
  · unfold Rules.lineBreak
    rw [if_neg hbreak, if_pos hhigh]

theorem bare_pair {c d : Char} (hd : d ∈ ['\\', c]) (hc : 0x20 ≤ c.toNat ∧ c.toNat ≤ 0x7E) : Bare y d := by
  rcases List.mem_cons.mp hd with rfl | hd
  · exact bare_ascii (by decide) (by decide)
  · obtain rfl := List.mem_singleton.mp hd
    exact bare_ascii hc.1 hc.2

/-- What is written for a character that can be written -/
theorem bare_escape {c d : Char} (hc : Carried y c) (hd : d ∈ escape c) : Bare y d := by
  unfold escape at hd
  split_ifs at hd with h1 h2 h3 h4 h5
  · exact bare_pair hd (by decide)
  · exact bare_pair hd (by decide)
  · exact bare_pair hd (by decide)
  · exact bare_pair hd (by decide)
  · exact bare_pair hd (by decide)
  · obtain rfl := List.mem_singleton.mp hd
    rcases hc with hc | hc | hc
    · exact absurd hc h3
    · exact absurd hc h4
    · exact hc

/-- A character that is written as it is can be written if it may stand there. -/
theorem carried_of_bare_escape {c : Char} (h : ∀ d ∈ escape c, Bare y d) : Carried y c := by
  by_cases hself : escape c = [c]
  · exact .inr (.inr (h c (by rw [hself]; exact List.mem_singleton_self c)))
  · unfold escape at hself
    split_ifs at hself with h1 h2 h3 h4 h5
    · exact .inr (.inr (h1 ▸ bare_ascii (by decide) (by decide)))
    · exact .inr (.inr (h2 ▸ bare_ascii (by decide) (by decide)))
    · exact .inl h3
    · exact .inr (.inl h4)
    · exact .inr (.inr (h5 ▸ ⟨rfl, rfl⟩))
    · exact absurd rfl hself

theorem bare_quote {value : Text} : (∀ d ∈ quote value, Bare y d) ↔ ∀ c ∈ value, Carried y c := by
  constructor
  · intro h c hc
    refine carried_of_bare_escape fun d hd => h d ?_
    exact List.mem_cons_of_mem _ (List.mem_append_left _ (List.mem_flatMap.mpr ⟨c, hc, hd⟩))
  · intro h d hd
    have hquote : Bare y '"' := bare_ascii (by decide) (by decide)
    rcases List.mem_cons.mp hd with rfl | hd
    · exact hquote
    rcases List.mem_append.mp hd with hd | hd
    · obtain ⟨c, hc, hd⟩ := List.mem_flatMap.mp hd
      exact bare_escape (h c hc) hd
    · obtain rfl := List.mem_singleton.mp hd
      exact hquote

/-! ## A value -/

/-- One character of a value, in one step -/
theorem scan_escape {n : Nat} {c : Char} {rest : Text} (hline : ∀ d ∈ escape c ++ rest, y.lineBreak d = none) :
    y.scan (n + 1) (escape c ++ rest) = (y.scan n rest).map (c :: ·) := by
  unfold escape at hline ⊢
  split_ifs at hline ⊢ with h1 h2 h3 h4 h5
  · rw [h1]
    exact Rules.scan_escaped hline rfl
  · rw [h2]
    exact Rules.scan_escaped hline rfl
  · rw [h3]
    exact Rules.scan_escaped hline rfl
  · rw [h4]
    exact Rules.scan_escaped hline rfl
  · rw [h5]
    exact Rules.scan_escaped hline rfl
  · exact Rules.scan_plain hline h1 h2

/-- **Between its quotes, a value that can be written is read as it is.** -/
theorem scan_quote {value : Text} (hline : ∀ d ∈ value.flatMap escape ++ ['"'], y.lineBreak d = none) {n : Nat}
    (hn : value.length < n) : y.scan n (value.flatMap escape ++ ['"']) = some value := by
  induction value generalizing n with
  | nil =>
    obtain ⟨m, rfl⟩ : ∃ m, n = m + 1 := ⟨n - 1, by simp at hn; omega⟩
    exact Rules.scan_close (hline '"' List.mem_cons_self)
  | cons c rest ih =>
    obtain ⟨m, rfl⟩ : ∃ m, n = m + 1 := ⟨n - 1, by simp at hn; omega⟩
    rw [List.flatMap_cons, List.append_assoc] at hline ⊢
    rw [scan_escape hline, ih (fun d hd => hline d (List.mem_append_right _ hd)) (by simpa using hn), Option.map_some]

theorem length_lt_quote (value : Text) : value.length < (value.flatMap escape ++ ['"']).length := by
  have hone : ∀ c : Char, 1 ≤ (escape c).length := by
    intro c
    unfold escape
    split_ifs <;> simp
  induction value with
  | nil => exact Nat.zero_lt_one
  | cons c rest ih =>
    have hc := hone c
    rw [List.flatMap_cons, List.append_assoc, List.length_append, List.length_cons]
    omega

/-- What is read of a quoted value -/
theorem readScalar_quote {value : List UInt8} (h : ∀ c ∈ Utf8.characters value, Carried y c) :
    y.readScalar (quoteBytes value) = some (Utf8.encode (Utf8.characters value)) := by
  have hbare := bare_quote.mpr h
  unfold quoteBytes
  rw [Rules.readScalar_encode]
  unfold Rules.readText
  rw [if_pos (List.all_eq_true.mpr fun d hd => (hbare d hd).1)]
  show (y.scan _ (_ ++ ['"'])).map Utf8.encode = _
  rw [scan_quote (fun d hd => (hbare d (List.mem_cons_of_mem _ hd)).2) (length_lt_quote _), Option.map_some]

/-- **Exactly the texts without a character that a document may not hold or that ends a line survive**; of the
latter, `quote` escapes the two of ASCII. -/
theorem survives_iff (y : Rules) (value : List UInt8) :
    Survives y value ↔ Utf8.Valid value ∧ ∀ c ∈ Utf8.characters value, Carried y c := by
  constructor
  · rintro ⟨⟨text, htext, hline⟩, hreads⟩
    have hcarried : ∀ c ∈ Utf8.characters value, Carried y c := by
      unfold quoteBytes at htext hreads
      rw [Utf8.decode_encode] at htext
      obtain rfl := Option.some.inj htext
      refine bare_quote.mp fun d hd => ⟨?_, hline d hd⟩
      rw [Rules.readScalar_encode] at hreads
      unfold Rules.readText at hreads
      split_ifs at hreads with hprints
      exact List.all_eq_true.mp hprints d hd
    refine ⟨?_, hcarried⟩
    rw [readScalar_quote hcarried] at hreads
    exact ⟨_, Option.some.inj hreads⟩
  · rintro ⟨hvalid, hcarried⟩
    refine ⟨⟨_, Utf8.decode_encode _, fun d hd => (bare_quote.mpr hcarried d hd).2⟩, ?_⟩
    rw [readScalar_quote hcarried, (Utf8.valid_iff value).mp hvalid]

/-! ## Three that do not -/

theorem not_survives {value : List UInt8} {text : Text} (hquote : quoteBytes value = Utf8.encode text)
    (hreads : y.readText text ≠ some value) : ¬ Survives y value := by
  intro h
  have hvalue := h.reads
  rw [hquote, Rules.readScalar_encode] at hvalue
  exact hreads hvalue

/-- The bell, which no document may hold; a next line, which is folded to a space; and a byte of no text, which
is read as U+FFFD -/
theorem survives_not : ¬ Survives .v1_1 [7] ∧ ¬ Survives .v1_1 [97, 0xC2, 0x85, 98] ∧
    ¬ Survives .v1_1 [0xFF] ∧ ¬ Survives .v1_2 [7] ∧ ¬ Survives .v1_2 [0xFF] := by
  have hbell : quoteBytes [7] = Utf8.encode ['"', Char.ofNat 7, '"'] := by decide +kernel
  have hnext : quoteBytes [97, 0xC2, 0x85, 98] = Utf8.encode ['"', 'a', Char.ofNat 0x85, 'b', '"'] := by
    decide +kernel
  have hbyte : quoteBytes [0xFF] = Utf8.encode ['"', '\uFFFD', '"'] := by decide +kernel
  exact ⟨not_survives hbell (by decide +kernel), not_survives hnext (by decide +kernel),
    not_survives hbyte (by decide +kernel), not_survives hbell (by decide +kernel),
    not_survives hbyte (by decide +kernel)⟩

/-- What a next line is read as -/
example : Rules.v1_1.readText ['"', 'a', Char.ofNat 0x85, 'b', '"'] = some [97, 32, 98] := by decide +kernel

end Doenerstag
