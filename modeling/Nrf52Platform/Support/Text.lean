import Mathlib.Data.List.DropRight
import Mathlib.Data.List.Basic

/-!
# Support — Text

Python's text operations, on the list of a text's code points: `str.strip`, `str.split` at the
first separator, `os.path.join`, and the lines that iterating a text file yields.

* `strip_pad`: stripping removes exactly the padding around a text that neither starts nor ends
  with a stripped character.
* `split1_first`: splitting at the first separator.
* `findSome_lines_unlines`: a search through the lines of a file is a search through the lines
  it was written from, for any test that does not look at the line ending.
-/

namespace Py

/-- A Python `str`: its code points. -/
abbrev Str := List Char

instance : Coe String Str := ⟨String.toList⟩

-- a claim about a text's characters is checked on the text, not on all characters there are
instance decidableForallMem (s : Str) (p : Char → Prop) [DecidablePred p] :
    Decidable (∀ c ∈ s, p c) :=
  List.decidableBAll p s

instance decidableForallMemOption (o : Option Char) (p : Char → Prop) [DecidablePred p] :
    Decidable (∀ c ∈ o, p c) :=
  Option.decidableForallMem o

/-! ### Stripping -/

/-- `str.isspace` of one character; the regular expression class `\s` is the same set. -/
def isspace (c : Char) : Bool :=
  (9 ≤ c.toNat && c.toNat ≤ 13) || (28 ≤ c.toNat && c.toNat ≤ 32) || c.toNat == 0x85 ||
    c.toNat == 0xA0 || c.toNat == 0x1680 || (0x2000 ≤ c.toNat && c.toNat ≤ 0x200A) ||
    c.toNat == 0x2028 || c.toNat == 0x2029 || c.toNat == 0x202F || c.toNat == 0x205F ||
    c.toNat == 0x3000

/-- The range of the letters and digits. -/
theorem toNat_of_isAlphanum {c : Char} (h : c.isAlphanum = true) :
    48 ≤ c.toNat ∧ c.toNat ≤ 122 := by
  change (decide (c.val ≥ 'A'.val ∧ c.val ≤ 'Z'.val) ||
    decide (c.val ≥ 'a'.val) && decide (c.val ≤ 'z'.val) ||
    decide (c.val ≥ '0'.val) && decide (c.val ≤ '9'.val)) = true at h
  simp only [Bool.or_eq_true, Bool.and_eq_true, decide_eq_true_eq, ge_iff_le,
    UInt32.le_iff_toNat_le] at h
  simp at h
  omega

/-- Both ends of `s`, up to the first character outside the class `p`, removed. -/
def stripBy (p : Char → Bool) (s : Str) : Str := (s.dropWhile p).rdropWhile p

/-- `s.strip()`. -/
def strip (s : Str) : Str := stripBy isspace s

/-- `s.strip(c)`, for one character `c`. -/
def stripChar (c : Char) (s : Str) : Str := stripBy (· == c) s

/-- `s` neither starts nor ends with a character of the class `p`. -/
def Bare (p : Char → Bool) (s : Str) : Prop :=
  (∀ c ∈ s.head?, p c = false) ∧ ∀ c ∈ s.getLast?, p c = false

theorem Bare.of_forall {p : Char → Bool} {s : Str} (h : ∀ c ∈ s, p c = false) : Bare p s :=
  ⟨fun c hc => h c (List.mem_of_mem_head? hc), fun c hc => h c (List.mem_of_mem_getLast? hc)⟩

theorem Bare.quoted {p : Char → Bool} {q : Char} (hq : p q = false) (s : Str) :
    Bare p (q :: (s ++ [q])) := by
  refine ⟨fun c hc => ?_, fun c hc => ?_⟩
  · obtain rfl : q = c := by simpa using hc
    exact hq
  · rw [← List.cons_append, List.getLast?_append_of_ne_nil _ (by simp)] at hc
    obtain rfl : q = c := by simpa using hc
    exact hq

theorem dropWhile_pad {p : Char → Bool} {a s : Str} (ha : ∀ c ∈ a, p c = true)
    (hs : ∀ c ∈ s.head?, p c = false) : (a ++ s).dropWhile p = s := by
  rw [List.dropWhile_append_of_pos ha]
  cases s with
  | nil => rfl
  | cons c s => rw [List.dropWhile_cons_of_neg (by simp [hs c rfl])]

theorem rdropWhile_pad {p : Char → Bool} {s b : Str} (hb : ∀ c ∈ b, p c = true)
    (hs : ∀ c ∈ s.getLast?, p c = false) : (s ++ b).rdropWhile p = s := by
  rw [List.rdropWhile, List.reverse_append, dropWhile_pad (fun c hc => hb c (by simpa using hc))
    (fun c hc => hs c (by simpa using hc)), List.reverse_reverse]

/-- **Stripping removes exactly the padding.** -/
theorem strip_pad {p : Char → Bool} {a s b : Str} (ha : ∀ c ∈ a, p c = true)
    (hb : ∀ c ∈ b, p c = true) (hs : Bare p s) : stripBy p (a ++ s ++ b) = s := by
  rw [stripBy, List.append_assoc]
  cases s with
  | nil =>
      have hab : ∀ c ∈ a ++ b, p c = true := fun c hc => (List.mem_append.mp hc).elim (ha c) (hb c)
      rw [List.nil_append, List.dropWhile_eq_nil_iff.mpr hab, List.rdropWhile_nil]
  | cons c s =>
      rw [dropWhile_pad ha (fun d hd => hs.1 d (by simpa using hd)), rdropWhile_pad hb hs.2]

theorem strip_bare {p : Char → Bool} {s : Str} (hs : Bare p s) : stripBy p s = s := by
  simpa using strip_pad (a := []) (b := []) (by simp) (by simp) hs

/-- Padding on the right is invisible to a strip. -/
theorem strip_append {p : Char → Bool} (s : Str) {b : Str} (hb : ∀ c ∈ b, p c = true) :
    stripBy p (s ++ b) = stripBy p s := by
  have hsplit : s = s.takeWhile p ++ s.dropWhile p := List.takeWhile_append_dropWhile.symm
  have ha : ∀ c ∈ s.takeWhile p, p c = true := fun c hc => List.mem_takeWhile_imp hc
  cases hd : s.dropWhile p with
  | nil =>
      have hall : ∀ c ∈ s, p c = true := List.dropWhile_eq_nil_iff.mp hd
      have hsb : ∀ c ∈ s ++ b, p c = true :=
        fun c hc => (List.mem_append.mp hc).elim (hall c) (hb c)
      rw [stripBy, stripBy, hd, List.dropWhile_eq_nil_iff.mpr hsb]
  | cons c t =>
      have hc : p c = false := by
        have := List.head?_dropWhile_not p s
        rw [hd] at this
        simpa using this
      have hsb : (s ++ b).dropWhile p = c :: t ++ b := by
        conv_lhs => rw [hsplit, hd, List.append_assoc]
        exact dropWhile_pad ha (by simpa using hc)
      rw [stripBy, stripBy, hsb, hd]
      rw [List.rdropWhile, List.rdropWhile, List.reverse_append,
        List.dropWhile_append_of_pos (fun d hd' => hb d (by simpa using hd'))]

/-! ### Splitting at the first separator -/

/-- `s.split(sep, 1)`. -/
def split1 (sep : Char) : Str → List Str
  | [] => [[]]
  | c :: cs =>
      if c = sep then [[], cs]
      else match split1 sep cs with
        | [] => [[c]]
        | w :: ws => (c :: w) :: ws

theorem split1_first {sep : Char} {a : Str} (ha : sep ∉ a) (b : Str) :
    split1 sep (a ++ sep :: b) = [a, b] := by
  induction a with
  | nil => simp [split1]
  | cons c a ih =>
      have hc : c ≠ sep := fun h => ha (h ▸ List.mem_cons_self)
      have ih' := ih fun h => ha (List.mem_cons_of_mem _ h)
      rw [List.cons_append, split1, if_neg hc, ih']

/-! ### Joining -/

/-- `sep.join(parts)`. -/
def join (sep : Str) : List Str → Str
  | [] => []
  | [w] => w
  | w :: ws => w ++ sep ++ join sep ws

@[simp] theorem join_singleton (sep w : Str) : join sep [w] = w := rfl
@[simp] theorem join_cons_cons (sep w v : Str) (ws : List Str) :
    join sep (w :: v :: ws) = w ++ sep ++ join sep (v :: ws) := rfl

/-- What is in a joined text is in a part, or in the separator. -/
theorem mem_join {sep : Str} {c : Char} {ws : List Str} (h : c ∈ join sep ws) :
    c ∈ sep ∨ ∃ w ∈ ws, c ∈ w := by
  induction ws with
  | nil => cases h
  | cons w ws ih =>
      cases ws with
      | nil => exact .inr ⟨w, by simp, h⟩
      | cons v ws =>
          rw [join_cons_cons, List.mem_append, List.mem_append] at h
          rcases h with (h | h) | h
          · exact .inr ⟨w, by simp, h⟩
          · exact .inl h
          · exact (ih h).imp id fun ⟨u, hu, hc⟩ => ⟨u, List.mem_cons_of_mem _ hu, hc⟩

/-- What is in a part is in the joined text. -/
theorem mem_join_of_mem (sep : Str) {c : Char} {w : Str} (hc : c ∈ w) {ws : List Str}
    (hw : w ∈ ws) : c ∈ join sep ws := by
  induction ws with
  | nil => cases hw
  | cons v ws ih =>
      cases ws with
      | nil => rwa [join_singleton, ← List.mem_singleton.mp hw]
      | cons u ws =>
          rw [join_cons_cons, List.mem_append]
          rcases List.mem_cons.mp hw with rfl | hw
          · exact .inl (List.mem_append_left _ hc)
          · exact .inr (ih hw)

/-- `os.path.join(a, b)`: an absolute `b` replaces `a`. -/
def pathJoin2 (a b : Str) : Str :=
  if b.head? = some '/' then b
  else if a = [] ∨ a.getLast? = some '/' then a ++ b
  else a ++ '/' :: b

/-- `os.path.join(a, *parts)`. -/
def pathJoin (a : Str) (parts : List Str) : Str := parts.foldl pathJoin2 a

/-! ### The lines of a text file -/

/-- Reading in text mode: `\r\n` and `\r` are read as `\n`. -/
def universalNewlines : Str → Str
  | [] => []
  | '\r' :: '\n' :: cs => '\n' :: universalNewlines cs
  | '\r' :: cs => '\n' :: universalNewlines cs
  | c :: cs => c :: universalNewlines cs

/-- Iterating a text file: each line with its `\n`, the last one without it if it has none. -/
def lines : Str → List Str
  | [] => []
  | c :: cs =>
      if c = '\n' then [c] :: lines cs
      else match lines cs with
        | [] => [[c]]
        | l :: ls => (c :: l) :: ls

theorem universalNewlines_id : ∀ {s : Str}, '\r' ∉ s → universalNewlines s = s
  | [], _ => rfl
  | c :: cs, h => by
      have hc : c ≠ '\r' := fun e => h (e ▸ List.mem_cons_self)
      have ih := universalNewlines_id fun h' => h (List.mem_cons_of_mem c h')
      rw [universalNewlines.eq_4 c cs (fun _ e _ => hc e) hc, ih]

theorem lines_newline {l : Str} (hl : '\n' ∉ l) (rest : Str) :
    lines (l ++ '\n' :: rest) = (l ++ ['\n']) :: lines rest := by
  induction l with
  | nil => simp [lines]
  | cons c l ih =>
      have hc : c ≠ '\n' := fun h => hl (h ▸ List.mem_cons_self)
      rw [List.cons_append, lines, if_neg hc, ih fun h => hl (List.mem_cons_of_mem _ h)]
      rfl

theorem lines_last {l : Str} (hne : l ≠ []) (hl : '\n' ∉ l) : lines l = [l] := by
  induction l with
  | nil => exact absurd rfl hne
  | cons c l ih =>
      have hc : c ≠ '\n' := fun h => hl (h ▸ List.mem_cons_self)
      rw [lines, if_neg hc]
      cases l with
      | nil => rfl
      | cons d l => rw [ih (by simp) fun h => hl (List.mem_cons_of_mem _ h)]

/-- The text of a file of the given lines, its final newline present or not. -/
def unlines (final : Bool) : List Str → Str
  | [] => []
  | [l] => if final then l ++ ['\n'] else l
  | l :: ls => l ++ '\n' :: unlines final ls

@[simp] theorem unlines_cons_cons (final : Bool) (l k : Str) (ks : List Str) :
    unlines final (l :: k :: ks) = l ++ '\n' :: unlines final (k :: ks) := rfl

theorem mem_unlines {final : Bool} {ls : List Str} {c : Char} (h : c ∈ unlines final ls) :
    c = '\n' ∨ ∃ l ∈ ls, c ∈ l := by
  induction ls with
  | nil => simp [unlines] at h
  | cons l ls ih =>
      cases ls with
      | nil =>
          cases final with
          | false => exact .inr ⟨l, by simp, by simpa [unlines] using h⟩
          | true =>
              rcases List.mem_append.mp (by simpa [unlines] using h : c ∈ l ++ ['\n']) with h | h
              · exact .inr ⟨l, by simp, h⟩
              · exact .inl (by simpa using h)
      | cons k ks =>
          rw [unlines_cons_cons, List.mem_append, List.mem_cons] at h
          rcases h with h | h | h
          · exact .inr ⟨l, by simp, h⟩
          · exact .inl h
          · exact (ih h).imp id fun ⟨m, hm, hc⟩ => ⟨m, List.mem_cons_of_mem _ hm, hc⟩

/-- **A search through the lines of a file** is a search through the lines it was written from,
when the test does not see a line's newline and finds nothing in an empty line. -/
theorem findSome_lines_unlines {β : Type*} {g : Str → Option β}
    (hg : ∀ l, '\n' ∉ l → g (l ++ ['\n']) = g l) (hg₀ : g [] = none) (final : Bool) :
    ∀ {ls : List Str}, (∀ l ∈ ls, '\n' ∉ l) →
      (lines (unlines final ls)).findSome? g = ls.findSome? g
  | [], _ => rfl
  | [l], hls => by
      have hl : '\n' ∉ l := hls l (by simp)
      cases final with
      | false =>
          by_cases hne : l = []
          · subst hne
            simp [unlines, lines, hg₀]
          · simp [unlines, lines_last hne hl]
      | true => simp [unlines, lines_newline hl [], lines, hg l hl]
  | l :: k :: ks, hls => by
      have hl : '\n' ∉ l := hls l (by simp)
      have hks : ∀ m ∈ k :: ks, '\n' ∉ m := fun m hm => hls m (List.mem_cons_of_mem _ hm)
      have ih := findSome_lines_unlines hg hg₀ final hks
      rw [unlines_cons_cons, lines_newline hl, List.findSome?_cons, hg l hl, ih]
      rfl

end Py
