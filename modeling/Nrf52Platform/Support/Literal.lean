import Nrf52Platform.Support.Hex

/-!
# Support — Literal

A reader of Python's dictionary displays whose keys are hexadecimal numbers and whose values are
lists of such numbers.  It gives the entries as they stand in the text, a key as often as it is
written.

* `lex_hex`, `lex_punct`, `lex_space`: the tokens of a text, piece by piece.
* `lex_hexes`, `parse_hexes`: a list of numbers joined by commas.
-/

namespace Py

/-- The tokens of a display. -/
inductive Token where
  | lbrace
  | rbrace
  | lbrack
  | rbrack
  | colon
  | comma
  | num (n : ℕ)
  deriving DecidableEq

/-! ### Tokens -/

/-- The token of a character that is one. -/
def punct : Char → Option Token
  | '{' => some .lbrace
  | '}' => some .rbrace
  | '[' => some .lbrack
  | ']' => some .rbrack
  | ':' => some .colon
  | ',' => some .comma
  | _ => none

/-- The number a word is: `0x` and hexadecimal digits. -/
def numeral : Str → Option ℕ
  | '0' :: 'x' :: ds => if ds ≠ [] ∧ ds.all isHexDigit then some (int16 ds) else none
  | _ => none

/-- A word, in front of the tokens behind it. -/
def closeWord (word : Str) (rest : List Token) : Option (List Token) :=
  if word = [] then some rest else (numeral word).map fun n => .num n :: rest

/-- The tokens of a text, in front of which `word` was read. -/
def lexFrom : Str → Str → Option (List Token)
  | word, [] => closeWord word []
  | word, c :: cs =>
      if c.isAlphanum then lexFrom (word ++ [c]) cs
      -- any other character ends the word
      else match lexFrom [] cs with
        | none => none
        | some rest =>
            if c = ' ' then closeWord word rest
            else match punct c with
              | none => none
              | some t => closeWord word (t :: rest)

/-- The tokens of a text. -/
def lex (s : Str) : Option (List Token) := lexFrom [] s

theorem lexFrom_alphanum {u : Str} (hu : ∀ c ∈ u, c.isAlphanum = true) (word s : Str) :
    lexFrom word (u ++ s) = lexFrom (word ++ u) s := by
  induction u generalizing word with
  | nil => simp
  | cons c u ih =>
      rw [List.cons_append, lexFrom, if_pos (hu c List.mem_cons_self),
        ih fun d hd => hu d (List.mem_cons_of_mem c hd)]
      simp

/-- A word ends where the next character does not belong to it. -/
theorem lexFrom_end {s : Str} (hs : ∀ c ∈ s.head?, c.isAlphanum = false) (word : Str) :
    lexFrom word s = (lex s).bind (closeWord word) := by
  cases s with
  | nil => rfl
  | cons c cs =>
      have hc : ¬ c.isAlphanum = true := by simp [hs c rfl]
      rw [lex, lexFrom, lexFrom, if_neg hc, if_neg hc]
      cases lexFrom [] cs with
      | none => rfl
      | some rest =>
          simp only
          split
          case isTrue => rfl
          case isFalse =>
              cases punct c with
              | none => rfl
              | some t => rfl

theorem lex_space (s : Str) : lex (' ' :: s) = lex s := by
  rw [lex, lexFrom, if_neg (by decide), lex]
  cases lexFrom [] s with
  | none => rfl
  | some rest => rfl

theorem lex_punct {c : Char} {t : Token} (hc : punct c = some t) (s : Str) :
    lex (c :: s) = (lex s).map (t :: ·) := by
  have halnum : ¬ c.isAlphanum = true := by
    intro h
    unfold punct at hc
    split at hc <;> first | exact absurd h (by decide) | cases hc
  have hsp : c ≠ ' ' := by
    rintro rfl
    cases hc
  rw [lex, lexFrom, if_neg halnum, lex]
  cases lexFrom [] s with
  | none => rfl
  | some rest =>
      simp only
      rw [if_neg hsp, hc]
      rfl

theorem isAlphanum_hex {n : ℕ} {c : Char} (h : c ∈ hex n) : c.isAlphanum = true := by
  have hdigit : ∀ d : Fin 16, (Nat.digitChar d).isAlphanum = true := by decide
  have hprefix : ∀ d ∈ "0x".toList, d.isAlphanum = true := by decide
  rcases List.mem_append.mp h with h | h
  · exact hprefix c h
  · obtain ⟨d, rfl⟩ := mem_hexDigits h
    exact hdigit d

theorem numeral_hex (n : ℕ) : numeral (hex n) = some n := by
  have hall : (hexDigits n).all isHexDigit = true :=
    List.all_eq_true.mpr fun c hc => isHexDigit_hexDigits hc
  have hnum : numeral (hex n) = if hexDigits n ≠ [] ∧ (hexDigits n).all isHexDigit then
      some (int16 (hexDigits n)) else none := rfl
  rw [hnum, if_pos ⟨hexDigits_ne_nil n, hall⟩, int16_hexDigits]

/-- **The token of `hex(n)`.** -/
theorem lex_hex (n : ℕ) {s : Str} (hs : ∀ c ∈ s.head?, c.isAlphanum = false) :
    lex (hex n ++ s) = (lex s).map (.num n :: ·) := by
  have hne : hex n ≠ [] := by simp [hex]
  rw [lex, lexFrom_alphanum fun c hc => isAlphanum_hex hc, List.nil_append, lexFrom_end hs]
  cases lex s with
  | none => rfl
  | some rest => simp [closeWord, hne, numeral_hex]

/-! ### Entries -/

/-- What the reader of the tokens expects. -/
inductive Expect where
  | start
  | key
  | colon (k : ℕ)
  | list (k : ℕ)
  | elem (k : ℕ) (l : List ℕ)
  | next (k : ℕ) (l : List ℕ)
  | entry
  | done

/-- The entries the tokens stand for. -/
def parse : Expect → List Token → Option (List (ℕ × List ℕ))
  | .start, .lbrace :: ts => parse .key ts
  | .key, .num k :: ts => parse (.colon k) ts
  | .key, .rbrace :: ts => parse .done ts
  | .colon k, .colon :: ts => parse (.list k) ts
  | .list k, .lbrack :: ts => parse (.elem k []) ts
  | .elem k l, .num n :: ts => parse (.next k (l ++ [n])) ts
  | .elem k l, .rbrack :: ts => (parse .entry ts).map ((k, l) :: ·)
  | .next k l, .comma :: ts => parse (.elem k l) ts
  | .next k l, .rbrack :: ts => (parse .entry ts).map ((k, l) :: ·)
  | .entry, .comma :: ts => parse .key ts
  | .entry, .rbrace :: ts => parse .done ts
  | .done, [] => some []
  | _, _ => none

/-- The entries of a dictionary display. -/
def readDict (s : Str) : Option (List (ℕ × List ℕ)) := (lex s).bind (parse .start)

/-- The tokens of numbers joined by commas. -/
def listTokens : List ℕ → List Token
  | [] => []
  | [n] => [.num n]
  | n :: m :: l => .num n :: .comma :: listTokens (m :: l)

/-- **Numbers joined by commas**, up to the bracket that closes the list. -/
theorem lex_hexes (s : Str) : ∀ l : List ℕ, lex (join ", " (l.map hex) ++ ']' :: s) =
    (lex s).map fun ts => listTokens l ++ .rbrack :: ts
  | [] => lex_punct rfl s
  | [n] => by
      rw [List.map_singleton, join_singleton, lex_hex n (by rintro c ⟨⟩; decide), lex_punct rfl,
        Option.map_map]
      rfl
  | n :: m :: l => by
      have hsep : join ", ".toList ((n :: m :: l).map hex) ++ ']' :: s =
          hex n ++ ',' :: ' ' :: (join ", ".toList ((m :: l).map hex) ++ ']' :: s) := by
        simp
      rw [hsep, lex_hex n (by rintro c ⟨⟩; decide), lex_punct rfl, lex_space, lex_hexes s (m :: l)]
      simp only [Option.map_map]
      rfl

/-- **Numbers joined by commas are a list's elements**, behind those read before. -/
theorem parse_hexes (k : ℕ) (ts : List Token) : ∀ l before : List ℕ,
    parse (.elem k before) (listTokens l ++ .rbrack :: ts) =
      (parse .entry ts).map ((k, before ++ l) :: ·)
  | [], before => by rw [List.append_nil]; rfl
  | [n], before => rfl
  | n :: m :: l, before => by
      have ih := parse_hexes k ts (m :: l) (before ++ [n])
      rw [List.append_assoc] at ih
      exact ih

example : readDict "\x7b0x1: [0xA, 0xb], 0x2: [], \x7d".toList = some [(1, [10, 11]), (2, [])] := by
  decide

end Py
