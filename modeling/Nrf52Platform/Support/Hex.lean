import Nrf52Platform.Support.Text
import Mathlib.Data.Nat.Digits.Defs

/-!
# Support — Hex

Python's base-sixteen numerals: `hex(n)`, the format `'%04X'`, and `int(s, 16)` on a text of
hexadecimal digits.

* `int16_hexDigits`, `int16_format04X`: reading back what either writer wrote.
* `length_format04X`: a sixteen-bit number is written with exactly four digits.
-/

namespace Py

/-- The class `[0-9A-Fa-f]`. -/
def isHexDigit (c : Char) : Bool :=
  ('0' ≤ c && c ≤ '9') || ('A' ≤ c && c ≤ 'F') || ('a' ≤ c && c ≤ 'f')

/-- The value of a hexadecimal digit. -/
def hexVal (c : Char) : ℕ :=
  if '0' ≤ c ∧ c ≤ '9' then c.toNat - '0'.toNat
  else if 'A' ≤ c ∧ c ≤ 'F' then c.toNat - 'A'.toNat + 10
  else c.toNat - 'a'.toNat + 10

/-- `int(s, 16)`, for `s` of hexadecimal digits. -/
def int16 (s : Str) : ℕ := s.foldl (fun n c => 16 * n + hexVal c) 0

/-- The digits of `hex(n)`, without its `0x`. -/
def hexDigits (n : ℕ) : Str := Nat.toDigits 16 n

/-- `hex(n)`. -/
def hex (n : ℕ) : Str := "0x".toList ++ hexDigits n

/-- `'%04X' % n`: upper-case digits, padded with zeros to four. -/
def format04X (n : ℕ) : Str :=
  List.replicate (4 - (hexDigits n).length) '0' ++ (hexDigits n).map Char.toUpper

/-! ### One digit -/

theorem hexVal_digitChar : ∀ d : Fin 16, hexVal (Nat.digitChar d) = d := by decide

theorem isHexDigit_digitChar : ∀ d : Fin 16, isHexDigit (Nat.digitChar d) = true := by decide

theorem hexVal_digitChar_toUpper :
    ∀ d : Fin 16, hexVal (Nat.digitChar d).toUpper = d := by decide

theorem isHexDigit_digitChar_toUpper :
    ∀ d : Fin 16, isHexDigit (Nat.digitChar d).toUpper = true := by decide

theorem hexVal_lt {c : Char} (h : isHexDigit c = true) : hexVal c < 16 := by
  simp only [isHexDigit, Bool.or_eq_true, Bool.and_eq_true, decide_eq_true_eq,
    Char.le_def, UInt32.le_iff_toNat_le] at h
  simp only [hexVal, Char.le_def, UInt32.le_iff_toNat_le, Char.toNat]
  simp at h ⊢
  split_ifs <;> omega

/-! ### A numeral -/

theorem hexDigits_eq (n : ℕ) : hexDigits n =
    if n < 16 then [Nat.digitChar n] else hexDigits (n / 16) ++ [Nat.digitChar (n % 16)] :=
  Nat.toDigits_eq_if (by decide)

/-- Every character of a numeral is the character of a digit. -/
theorem mem_hexDigits {n : ℕ} {c : Char} (h : c ∈ hexDigits n) :
    ∃ d : Fin 16, c = Nat.digitChar d := by
  induction n using Nat.strong_induction_on with
  | _ n ih =>
      rw [hexDigits_eq] at h
      split at h
      case isTrue hn => exact ⟨⟨n, hn⟩, by simpa using h⟩
      case isFalse hn =>
          rcases List.mem_append.mp h with h | h
          · exact ih (n / 16) (by omega) h
          · exact ⟨⟨n % 16, by omega⟩, by simpa using h⟩

theorem isHexDigit_hexDigits {n : ℕ} {c : Char} (h : c ∈ hexDigits n) : isHexDigit c = true := by
  obtain ⟨d, rfl⟩ := mem_hexDigits h
  exact isHexDigit_digitChar d

theorem hexDigits_ne_nil (n : ℕ) : hexDigits n ≠ [] := Nat.toDigits_ne_nil

@[simp] theorem int16_append_singleton (s : Str) (c : Char) :
    int16 (s ++ [c]) = 16 * int16 s + hexVal c := by
  simp [int16]

/-- A numeral is less than the power of its length. -/
theorem int16_lt {s : Str} (h : ∀ c ∈ s, isHexDigit c = true) : int16 s < 16 ^ s.length := by
  induction s using List.reverseRecOn with
  | nil => decide
  | append_singleton s c ih =>
      have hs := ih fun d hd => h d (List.mem_append_left _ hd)
      have hc := hexVal_lt (h c (by simp))
      rw [int16_append_singleton, List.length_append, List.length_singleton, Nat.pow_succ]
      omega

/-- The value of a numeral whose digits are read through `f`, when `f` keeps their values. -/
theorem int16_map_hexDigits {f : Char → Char}
    (hf : ∀ d : Fin 16, hexVal (f (Nat.digitChar d)) = d) (n : ℕ) :
    int16 ((hexDigits n).map f) = n := by
  induction n using Nat.strong_induction_on with
  | _ n ih =>
      rw [hexDigits_eq]
      split
      case isTrue hn => simpa [int16] using hf ⟨n, hn⟩
      case isFalse hn =>
          have hlow := hf ⟨n % 16, by omega⟩
          simp only at hlow
          rw [List.map_append, List.map_singleton, int16_append_singleton, ih (n / 16) (by omega),
            hlow]
          omega

/-- **Reading back `hex(n)`.** -/
theorem int16_hexDigits (n : ℕ) : int16 (hexDigits n) = n := by
  simpa using int16_map_hexDigits (f := id) hexVal_digitChar n

theorem int16_replicate_zero (k : ℕ) (s : Str) : int16 (List.replicate k '0' ++ s) = int16 s := by
  induction k with
  | zero => rfl
  | succ k ih =>
      rw [List.replicate_succ, List.cons_append, ← ih]
      rfl

/-- **Reading back `'%04X' % n`.** -/
theorem int16_format04X (n : ℕ) : int16 (format04X n) = n := by
  rw [format04X, int16_replicate_zero, int16_map_hexDigits hexVal_digitChar_toUpper]

theorem length_hexDigits_le {n : ℕ} (h : n < 16 ^ 4) : (hexDigits n).length ≤ 4 :=
  (Nat.length_toDigits_le_iff (by decide) (by decide)).mpr h

theorem length_format04X {n : ℕ} (h : n < 16 ^ 4) : (format04X n).length = 4 := by
  have := length_hexDigits_le h
  simp only [format04X, List.length_append, List.length_replicate, List.length_map]
  omega

theorem isHexDigit_format04X {n : ℕ} {c : Char} (h : c ∈ format04X n) : isHexDigit c = true := by
  rcases List.mem_append.mp h with h | h
  · rw [List.eq_of_mem_replicate h]
    rfl
  · obtain ⟨d, hd, rfl⟩ := List.mem_map.mp h
    obtain ⟨d, rfl⟩ := mem_hexDigits hd
    exact isHexDigit_digitChar_toUpper d

example : format04X 0x239A = "239A".toList := by decide

end Py
