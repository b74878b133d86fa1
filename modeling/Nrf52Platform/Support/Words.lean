import Nrf52Platform.Support.Text

/-!
# Support — Words

How a shell cuts a command line into the argument vector of a process: at blanks outside double
quotes, the quotes themselves removed.

* `shellWords_of_unquoted`: a line without quotes is cut at its blanks (`words`).
* `words_join`: joining with spaces and cutting again loses exactly the blanks inside the parts.
* `flatMap_words_eq_self_iff`: parts come back whole iff none is empty or has a blank.
* `shellWords_join_iff`: which parts come back from a command line they are joined to.
* `shellWords_args`: parts that are quoted, or words without quotes, come back whole (`Arg`).
-/

namespace Shell
open Py

/-- The characters that separate words. -/
def isBlank (c : Char) : Bool := c == ' ' || c == '\t' || c == '\n'

/-- Cuts a command line.  `cur` is the word being read, if any; `quoted` says whether the reader
is inside double quotes.  An unclosed quote is a syntax error. -/
def cut : Option Str → Bool → Str → Option (List Str)
  | _, true, [] => none
  | cur, false, [] => some cur.toList
  | cur, true, c :: cs =>
      if c = '"' then cut (some (cur.getD [])) false cs else cut (some (cur.getD [] ++ [c])) true cs
  | cur, false, c :: cs =>
      if c = '"' then cut (some (cur.getD [])) true cs
      else if isBlank c then (cut none false cs).map (cur.toList ++ ·)
      else cut (some (cur.getD [] ++ [c])) false cs

/-- The argument vector of a command line. -/
def shellWords (s : Str) : Option (List Str) := cut none false s

/-- The maximal blank-free pieces of a text. -/
def words (s : Str) : List Str := (s.splitOnP isBlank).filter (· ≠ [])

/-- A text that is one word. -/
def Solid (w : Str) : Prop := w ≠ [] ∧ ∀ c ∈ w, isBlank c = false

instance (w : Str) : Decidable (Solid w) := inferInstanceAs (Decidable (_ ∧ _))

/-! ### Words -/

/-- A blank separates. -/
theorem words_append_blank {c : Char} (hc : isBlank c = true) (a b : Str) :
    words (a ++ c :: b) = words a ++ words b := by
  rw [words, List.splitOnP_append_cons a b hc, List.filter_append]
  rfl

theorem words_of_no_blank {w : Str} (h : ∀ c ∈ w, isBlank c = false) :
    words w = if w = [] then [] else [w] := by
  rw [words, List.splitOnP_eq_singleton h]
  by_cases hw : w = [] <;> simp [hw]

theorem words_of_solid {w : Str} (hw : Solid w) : words w = [w] := by
  rw [words_of_no_blank hw.2, if_neg hw.1]

theorem solid_of_mem_words {s w : Str} (h : w ∈ words s) : Solid w := by
  induction hn : s.length using Nat.strong_induction_on generalizing s with
  | _ n ih =>
      by_cases hb : ∃ c ∈ s, isBlank c = true
      · obtain ⟨c, hc, hbc⟩ := hb
        obtain ⟨a, b, rfl⟩ := List.append_of_mem hc
        rw [List.length_append, List.length_cons] at hn
        rw [words_append_blank hbc] at h
        rcases List.mem_append.mp h with h | h
        · exact ih a.length (by omega) h rfl
        · exact ih b.length (by omega) h rfl
      · have hs : ∀ c ∈ s, isBlank c = false := by
          intro c hc
          by_contra hbc
          exact hb ⟨c, hc, by simpa using hbc⟩
        rw [words_of_no_blank hs] at h
        split at h
        case isTrue => cases h
        case isFalse hne =>
            rw [List.mem_singleton] at h
            exact h ▸ ⟨hne, hs⟩

/-- **Joining with spaces, then cutting.** -/
theorem words_join : ∀ ws : List Str, words (join " " ws) = ws.flatMap words
  | [] => rfl
  | [w] => by simp
  | w :: v :: ws => by
      have hsp : (w ++ " ".toList ++ join " ".toList (v :: ws)) =
          w ++ ' ' :: join " ".toList (v :: ws) := by simp
      rw [join_cons_cons, hsp, words_append_blank rfl, words_join (v :: ws)]
      rfl

theorem flatMap_words_of_solid {ws : List Str} (h : ∀ w ∈ ws, Solid w) : ws.flatMap words = ws := by
  induction ws with
  | nil => rfl
  | cons w ws ih =>
      rw [List.flatMap_cons, words_of_solid (h w List.mem_cons_self),
        ih fun v hv => h v (List.mem_cons_of_mem _ hv), List.singleton_append]

/-- Parts come back as they are iff each is one word. -/
theorem flatMap_words_eq_self_iff {ws : List Str} :
    ws.flatMap words = ws ↔ ∀ w ∈ ws, Solid w := by
  refine ⟨fun h w hw => ?_, flatMap_words_of_solid⟩
  rw [← h] at hw
  obtain ⟨v, -, hv⟩ := List.mem_flatMap.mp hw
  exact solid_of_mem_words hv

/-! ### Command lines -/

theorem cut_unquoted : ∀ {s : Str}, '"' ∉ s →
    cut none false s = some (words s) ∧
      ∀ w, Solid w → cut (some w) false s = some (words (w ++ s))
  | [], _ => ⟨rfl, fun w hw => by simp [cut, words_of_solid hw]⟩
  | c :: s, hs => by
      have hc : c ≠ '"' := fun h => hs (h ▸ List.mem_cons_self)
      obtain ⟨ih₀, ih₁⟩ := cut_unquoted fun h => hs (List.mem_cons_of_mem c h)
      by_cases hb : isBlank c = true
      · refine ⟨?_, fun w hw => ?_⟩
        · rw [cut, if_neg hc, if_pos hb, ih₀, ← List.nil_append (c :: s), words_append_blank hb]
          rfl
        · rw [cut, if_neg hc, if_pos hb, ih₀, words_append_blank hb, words_of_solid hw]
          rfl
      · rw [Bool.not_eq_true] at hb
        refine ⟨?_, fun w hw => ?_⟩
        · rw [cut, if_neg hc, if_neg (by simp [hb])]
          exact ih₁ [c] ⟨by simp, by simpa using hb⟩
        · have hw' : Solid (w ++ [c]) :=
            ⟨by simp, fun d hd => (List.mem_append.mp hd).elim (hw.2 d) fun hd => by
              rw [List.mem_singleton.mp hd, hb]⟩
          rw [cut, if_neg hc, if_neg (by simp [hb])]
          simpa using ih₁ (w ++ [c]) hw'

/-- A line without quotes is cut at its blanks. -/
theorem shellWords_of_unquoted {s : Str} (hs : '"' ∉ s) : shellWords s = some (words s) :=
  (cut_unquoted hs).1

theorem cut_quoted {q : Str} (hq : '"' ∉ q) (rest : Str) :
    ∀ w : Str, cut (some w) true (q ++ '"' :: rest) = cut (some (w ++ q)) false rest := by
  induction q with
  | nil => intro w; simp [cut]
  | cons c q ih =>
      intro w
      have hc : c ≠ '"' := fun h => hq (h ▸ List.mem_cons_self)
      rw [List.cons_append, cut, if_neg hc]
      simpa using ih (fun h => hq (List.mem_cons_of_mem c h)) (w ++ [c])

/-- A part of a command line, and the word it is read as wherever it stands: one word without quotes
is read as it is, and so is whatever stands in quotes. -/
inductive Arg : Str → Str → Prop where
  | plain {w : Str} (hw : Solid w) (hq : '"' ∉ w) : Arg w w
  | quoted {w : Str} (hq : '"' ∉ w) : Arg ('"' :: (w ++ ['"'])) w

theorem cut_plain {w : Str} (hw : ∀ c ∈ w, isBlank c = false) (hq : '"' ∉ w) (rest : Str) :
    ∀ u : Str, cut (some u) false (w ++ rest) = cut (some (u ++ w)) false rest := by
  induction w with
  | nil => intro u; simp
  | cons c w ih =>
      intro u
      have hc : c ≠ '"' := fun h => hq (h ▸ List.mem_cons_self)
      have hb := hw c List.mem_cons_self
      rw [List.cons_append, cut, if_neg hc, if_neg (by simp [hb])]
      simpa using ih (fun d hd => hw d (List.mem_cons_of_mem c hd))
        (fun h => hq (List.mem_cons_of_mem c h)) (u ++ [c])

/-- Behind a part the reader is at the end of its word. -/
theorem cut_arg {part word : Str} (h : Arg part word) (rest : Str) :
    cut none false (part ++ rest) = cut (some word) false rest := by
  cases h with
  | quoted hq =>
      have hopen := cut_quoted hq rest []
      rw [List.cons_append, cut, if_pos rfl]
      simpa using hopen
  | plain hw hq =>
      cases part with
      | nil => exact absurd rfl hw.1
      | cons c w =>
          have hc : c ≠ '"' := fun h => hq (h ▸ List.mem_cons_self)
          have hb := hw.2 c List.mem_cons_self
          rw [List.cons_append, cut, if_neg hc, if_neg (by simp [hb])]
          exact cut_plain (fun d hd => hw.2 d (List.mem_cons_of_mem c hd))
            (fun h => hq (List.mem_cons_of_mem c h)) rest [c]

/-- A part alone is one word. -/
theorem shellWords_of_arg {part word : Str} (h : Arg part word) :
    shellWords part = some [word] := by
  simpa [shellWords, cut] using cut_arg h []

/-- **A part comes back whole**, with what follows it. -/
theorem shellWords_arg {part word : Str} (h : Arg part word) (rest : Str) :
    shellWords (part ++ ' ' :: rest) = (shellWords rest).map (word :: ·) := by
  rw [shellWords, cut_arg h]
  rfl

/-- **Parts come back whole**, with what follows them. -/
theorem shellWords_args {parts ws : List Str} (h : List.Forall₂ Arg parts ws) (rest : Str) :
    shellWords (join " " (parts ++ [rest])) = (shellWords rest).map (ws ++ ·) := by
  induction h with
  | nil => simp
  | @cons part word parts ws harg _ ih =>
      have hjoin : join " " (part :: parts ++ [rest]) =
          part ++ ' ' :: join " " (parts ++ [rest]) := by cases parts <;> simp
      rw [hjoin, shellWords_arg harg, ih, Option.map_map]
      rfl

/-- The cutter removes the quotes. -/
theorem notMem_of_cut {cur : Option Str} {quoted : Bool} {s : Str} {ws : List Str}
    (hcur : ∀ w ∈ cur, '"' ∉ w) (h : cut cur quoted s = some ws) : ∀ w ∈ ws, '"' ∉ w := by
  have hgetD : ∀ {cur : Option Str}, (∀ w ∈ cur, '"' ∉ w) → '"' ∉ cur.getD [] := by
    rintro (_ | w) hcur
    · exact List.not_mem_nil
    · exact hcur w rfl
  induction cur, quoted, s using cut.induct generalizing ws with
  | case1 cur => cases h
  | case2 cur =>
      cases h
      exact fun w hw => hcur w (by simpa using hw)
  | case3 cur cs ih =>
      rw [cut, if_pos rfl] at h
      exact ih (by simpa using hgetD hcur) h
  | case4 cur c cs hc ih =>
      rw [cut, if_neg hc] at h
      exact ih (by simpa [Ne.symm hc] using hgetD hcur) h
  | case5 cur cs ih =>
      rw [cut, if_pos rfl] at h
      exact ih (by simpa using hgetD hcur) h
  | case6 cur c cs hc hb ih =>
      rw [cut, if_neg hc, if_pos hb] at h
      obtain ⟨vs, hvs, rfl⟩ := Option.map_eq_some_iff.mp h
      intro w hw
      rcases List.mem_append.mp hw with hw | hw
      · exact hcur w (by simpa using hw)
      · exact ih (by simp) hvs w hw
  | case7 cur c cs hc hb ih =>
      rw [cut, if_neg hc, if_neg hb] at h
      exact ih (by simpa [Ne.symm hc] using hgetD hcur) h

/-- No word of a command line has a quote. -/
theorem notMem_of_shellWords {s : Str} {ws : List Str} (h : shellWords s = some ws) :
    ∀ w ∈ ws, '"' ∉ w :=
  notMem_of_cut (by simp) h

/-- **Parts come back from a command line**, the last ones joined before, iff each is one word
without quotes. -/
theorem shellWords_join_iff {ws vs : List Str} :
    shellWords (join " " (ws ++ [join " " vs])) = some (ws ++ vs) ↔
      ∀ w ∈ ws ++ vs, Solid w ∧ '"' ∉ w := by
  have hunquoted : (∀ w ∈ ws ++ vs, '"' ∉ w) →
      shellWords (join " " (ws ++ [join " " vs])) = some ((ws ++ vs).flatMap words) := by
    intro hq
    have hline : '"' ∉ join " " (ws ++ [join " " vs]) := by
      intro h
      rcases mem_join h with h | ⟨w, hw, h⟩
      · exact absurd h (by decide)
      · rcases List.mem_append.mp hw with hw | hw
        · exact hq w (List.mem_append_left _ hw) h
        · rw [List.mem_singleton.mp hw] at h
          rcases mem_join h with h | ⟨v, hv, h⟩
          · exact absurd h (by decide)
          · exact hq v (List.mem_append_right _ hv) h
    rw [shellWords_of_unquoted hline, words_join, List.flatMap_append, List.flatMap_append,
      List.flatMap_singleton, words_join]
  refine ⟨?_, ?_⟩
  · -- the cutter leaves no quotes, so the parts had none
    intro h
    have hq := notMem_of_shellWords h
    rw [hunquoted hq, Option.some_inj, flatMap_words_eq_self_iff] at h
    exact fun w hw => ⟨h w hw, hq w hw⟩
  · intro h
    rw [hunquoted fun w hw => (h w hw).2, flatMap_words_of_solid fun w hw => (h w hw).1]

/-- A word that was begun is cut off. -/
theorem cut_some_ne_nil (w : Str) (quoted : Bool) (s : Str) :
    cut (some w) quoted s ≠ some [] := by
  induction s generalizing w quoted with
  | nil => cases quoted <;> simp [cut]
  | cons c s ih =>
      rw [cut.eq_def]
      cases quoted with
      | true =>
          simp only
          split
          case isTrue => exact ih _ _
          case isFalse => exact ih _ _
      | false =>
          simp only
          split
          case isTrue => exact ih _ _
          case isFalse =>
              split
              case isTrue => simp
              case isFalse => exact ih _ _

/-- **Only blanks are cut into no words.** -/
theorem shellWords_eq_nil_iff {s : Str} : shellWords s = some [] ↔ ∀ c ∈ s, isBlank c = true := by
  induction s with
  | nil => simp [shellWords, cut]
  | cons c s ih =>
      rw [shellWords, cut, List.forall_mem_cons]
      split
      case isTrue hc =>
          have hq : isBlank c = false := by
            rw [hc]
            rfl
          exact iff_of_false (cut_some_ne_nil _ _ _) (by simp [hq])
      case isFalse =>
          split
          case isTrue hb =>
              rw [← ih, shellWords]
              cases cut none false s <;> simp [hb]
          case isFalse hb => exact iff_of_false (cut_some_ne_nil _ _ _) fun h => hb h.1

/-- A line that has something besides blanks is not empty. -/
theorem shellWords_ne_nil {c : Char} {s : Str} (hc : isBlank c = false) (h : c ∈ s) :
    shellWords s ≠ some [] := by
  intro hnil
  rw [shellWords_eq_nil_iff.mp hnil c h] at hc
  cases hc

example : shellWords "\"a b\" c  d".toList = some ["a b".toList, "c".toList, "d".toList] := by
  decide

end Shell
