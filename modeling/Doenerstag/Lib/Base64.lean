import Mathlib.Data.List.Basic

/-!
# Base64 without padding

Bytes are numbers below 256. A decoder skips line breaks and does not look at the bits that a last
character leaves over.

* `encode`, `decode` — three bytes at a time, four characters at a time, in the URL alphabet.
* `encodeStandard`, `decodeStandard` — the same in the standard alphabet.
* `decode_encode`, `decodeStandard_encodeStandard` — **what was encoded is decoded.**
* `mem_encode`, `length_encode` — the characters of an encoding, and how many there are.
-/

namespace Base64

def alphabet : List Char :=
  "ABCDEFGHIJKLMNOPQRSTUVWXYZabcdefghijklmnopqrstuvwxyz0123456789-_".toList

def digit (n : Nat) : Char := alphabet.getD n 'A'

def value (c : Char) : Option Nat := alphabet.idxOf? c

theorem value_digit : ∀ n < 64, value (digit n) = some n := by decide +kernel

theorem digit_mem : ∀ n < 64, digit n ∈ alphabet := by decide +kernel

/-- No character of the alphabet breaks a line. -/
theorem alphabet_line : ∀ c ∈ alphabet, (c != '\r' && c != '\n') = true :=
  List.all_eq_true.mp (by decide +kernel)

/-- The digits of some bytes. -/
def digits : List Nat → List Nat
  | [] => []
  | [a] => [a / 4, a % 4 * 16]
  | [a, b] => [a / 4, a % 4 * 16 + b / 16, b % 16 * 4]
  | a :: b :: c :: rest =>
    a / 4 :: (a % 4 * 16 + b / 16) :: (b % 16 * 4 + c / 64) :: c % 64 :: digits rest

/-- The bytes of some digits. -/
def bytes : List Nat → Option (List Nat)
  | [] => some []
  | [_] => none
  | [a, b] => some [a * 4 + b / 16]
  | [a, b, c] => some [a * 4 + b / 16, b % 16 * 16 + c / 4]
  | a :: b :: c :: d :: rest =>
    (bytes rest).map fun bs => (a * 4 + b / 16) :: (b % 16 * 16 + c / 4) :: (c % 4 * 64 + d) :: bs

def encode (bs : List Nat) : List Char := (digits bs).map digit

def decode (cs : List Char) : Option (List Nat) :=
  ((cs.filter fun c => c != '\r' && c != '\n').mapM value).bind bytes

def standardAlphabet : List Char :=
  "ABCDEFGHIJKLMNOPQRSTUVWXYZabcdefghijklmnopqrstuvwxyz0123456789+/".toList

def standardDigit (n : Nat) : Char := standardAlphabet.getD n 'A'

def standardValue (c : Char) : Option Nat := standardAlphabet.idxOf? c

theorem standardValue_digit : ∀ n < 64, standardValue (standardDigit n) = some n := by decide +kernel

theorem standardDigit_mem : ∀ n < 64, standardDigit n ∈ standardAlphabet := by decide +kernel

theorem standardAlphabet_line : ∀ c ∈ standardAlphabet, (c != '\r' && c != '\n') = true :=
  List.all_eq_true.mp (by decide +kernel)

def encodeStandard (bs : List Nat) : List Char := (digits bs).map standardDigit

def decodeStandard (cs : List Char) : Option (List Nat) :=
  ((cs.filter fun c => c != '\r' && c != '\n').mapM standardValue).bind bytes

theorem digits_lt {bs : List Nat} (h : ∀ b ∈ bs, b < 256) : ∀ d ∈ digits bs, d < 64 := by
  fun_induction digits bs with
  | case1 => exact fun d hd => nomatch hd
  | case2 a =>
    have ha := h a (by simp)
    simp only [List.mem_cons, List.not_mem_nil, or_false]
    rintro d (rfl | rfl) <;> omega
  | case3 a b =>
    have ha := h a (by simp)
    have hb := h b (by simp)
    simp only [List.mem_cons, List.not_mem_nil, or_false]
    rintro d (rfl | rfl | rfl) <;> omega
  | case4 a b c rest ih =>
    have ha := h a (by simp)
    have hb := h b (by simp)
    have hc := h c (by simp)
    simp only [List.mem_cons]
    rintro d (rfl | rfl | rfl | rfl | hd)
    · omega
    · omega
    · omega
    · omega
    · exact ih (fun b hb => h b (by simp [hb])) d hd

theorem bytes_digits {bs : List Nat} (h : ∀ b ∈ bs, b < 256) : bytes (digits bs) = some bs := by
  fun_induction digits bs with
  | case1 => rfl
  | case2 a =>
    have ha : a / 4 * 4 + a % 4 * 16 / 16 = a := by omega
    rw [bytes, ha]
  | case3 a b =>
    have hb := h b (by simp)
    have hfirst : a / 4 * 4 + (a % 4 * 16 + b / 16) / 16 = a := by omega
    have hsecond : (a % 4 * 16 + b / 16) % 16 * 16 + b % 16 * 4 / 4 = b := by omega
    rw [bytes, hfirst, hsecond]
  | case4 a b c rest ih =>
    have hb := h b (by simp)
    have hc := h c (by simp)
    have hfirst : a / 4 * 4 + (a % 4 * 16 + b / 16) / 16 = a := by omega
    have hsecond : (a % 4 * 16 + b / 16) % 16 * 16 + (b % 16 * 4 + c / 64) / 4 = b := by omega
    have hthird : (b % 16 * 4 + c / 64) % 4 * 64 + c % 64 = c := by omega
    rw [bytes, ih fun b hb => h b (by simp [hb]), hfirst, hsecond, hthird]
    rfl

theorem length_digits (bs : List Nat) : (digits bs).length = (bs.length * 8 + 5) / 6 := by
  fun_induction digits bs with
  | case1 => rfl
  | case2 a => simp
  | case3 a b => simp
  | case4 a b c rest ih =>
    simp only [List.length_cons, ih]
    omega

theorem length_encode (bs : List Nat) : (encode bs).length = (bs.length * 8 + 5) / 6 := by
  rw [encode, List.length_map, length_digits]

theorem mem_encode {bs : List Nat} (h : ∀ b ∈ bs, b < 256) : ∀ c ∈ encode bs, c ∈ alphabet := by
  intro c hc
  obtain ⟨d, hd, rfl⟩ := List.mem_map.mp hc
  exact digit_mem d (digits_lt h d hd)

theorem mem_encodeStandard {bs : List Nat} (h : ∀ b ∈ bs, b < 256) :
    ∀ c ∈ encodeStandard bs, c ∈ standardAlphabet := by
  intro c hc
  obtain ⟨d, hd, rfl⟩ := List.mem_map.mp hc
  exact standardDigit_mem d (digits_lt h d hd)

theorem mapM_digits {digit : Nat → Char} {value : Char → Option Nat}
    (hvalue : ∀ n < 64, value (digit n) = some n) {ds : List Nat} (hds : ∀ d ∈ ds, d < 64) :
    (ds.map digit).mapM value = some ds := by
  induction ds with
  | nil => rfl
  | cons d rest ih =>
    rw [List.map_cons, List.mapM_cons, hvalue d (hds d List.mem_cons_self),
      ih fun d hd => hds d (List.mem_cons_of_mem _ hd)]
    rfl

/-- **What was encoded is decoded.** -/
theorem decode_encode {bs : List Nat} (h : ∀ b ∈ bs, b < 256) : decode (encode bs) = some bs := by
  have hkeep : (encode bs).filter (fun c => c != '\r' && c != '\n') = encode bs :=
    List.filter_eq_self.mpr fun c hc => alphabet_line c (mem_encode h c hc)
  rw [decode, hkeep, encode, mapM_digits value_digit (digits_lt h)]
  exact bytes_digits h

theorem decodeStandard_encodeStandard {bs : List Nat} (h : ∀ b ∈ bs, b < 256) :
    decodeStandard (encodeStandard bs) = some bs := by
  have hkeep : (encodeStandard bs).filter (fun c => c != '\r' && c != '\n') = encodeStandard bs :=
    List.filter_eq_self.mpr fun c hc => standardAlphabet_line c (mem_encodeStandard h c hc)
  rw [decodeStandard, hkeep, encodeStandard, mapM_digits standardValue_digit (digits_lt h)]
  exact bytes_digits h

end Base64
