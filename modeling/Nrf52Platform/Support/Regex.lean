import Nrf52Platform.Support.Text

/-!
# Support — Regex

Python's `re` on patterns built from literals, greedy runs of a character class, sequences and
named groups.  `run` is the backtracking matcher: from a cursor it lists every cursor a match can
end at, the preferred one first, so the match `re` reports is the head of the list.

* `mem_run_iff`: the matcher lists exactly the matches of the pattern (`Parses`).
* `Prefers`: the match that is reported.  Its rules (`lit`, `many`, `seq`, `group`) build it along
  the pattern, a greedy run taking as much as it can.
* `search_of_prefers`, `exists_of_search`: the leftmost match.
* `search_eq_some_iff`, `search_eq_none_iff`: what a search finds in any text: the match at the
  longest suffix that has one.
* `finditer_of_prefers`: the next match of an iteration.
-/

namespace Py

/-- Patterns.  `many p lo hi` is a greedy run of at least `lo` and at most `hi` characters of the
class `p`. -/
inductive Regex where
  | lit (w : Str)
  | many (p : Char → Bool) (lo : ℕ) (hi : Option ℕ)
  | seq (a b : Regex)
  | group (name : String) (r : Regex)

/-- Where a match stands: the groups closed so far, the latest first, and the text ahead. -/
structure Cursor where
  groups : List (String × Str)
  rest : Str
  deriving DecidableEq

namespace Cursor

/-- The text of a group, empty when the group took no part. -/
def group (x : Cursor) (name : String) : Str := (x.groups.lookup name).getD []

end Cursor

namespace Regex

/-- The longest run of the class `p` at the front of `s`, cut at `hi`. -/
def reach (p : Char → Bool) (hi : Option ℕ) (s : Str) : ℕ :=
  min (s.takeWhile p).length (hi.getD (s.takeWhile p).length)

/-- Every cursor a match from `x` can end at, in the order backtracking tries them. -/
def run : Regex → Cursor → List Cursor
  | .lit w, x => if w.isPrefixOf x.rest then [⟨x.groups, x.rest.drop w.length⟩] else []
  | .many p lo hi, x =>
      -- the longest run first, then giving back one character at a time
      (List.range (reach p hi x.rest + 1 - lo)).map
        fun i => ⟨x.groups, x.rest.drop (reach p hi x.rest - i)⟩
  | .seq a b, x => (run a x).flatMap (run b)
  | .group name r, x =>
      (run r x).map
        fun y => ⟨(name, x.rest.take (x.rest.length - y.rest.length)) :: y.groups, y.rest⟩

/-- `r.search(s)`: the preferred match at the leftmost position that has one. -/
def search (r : Regex) : Str → Option Cursor
  | [] => (run r ⟨[], []⟩).head?
  | c :: cs => (run r ⟨[], c :: cs⟩).head?.or (search r cs)

/-- `r.finditer(s)`, the first `skip` characters of `s` belonging to the match before; for a
pattern that never matches the empty text. -/
def finditer (r : Regex) : ℕ → Str → List Cursor
  | _, [] => []
  | skip + 1, _ :: cs => finditer r skip cs
  | 0, c :: cs =>
      match (run r ⟨[], c :: cs⟩).head? with
      | none => finditer r 0 cs
      | some y => y :: finditer r (cs.length - y.rest.length) cs

/-! ### The matches of a pattern -/

/-- `r` matches the text between `x` and `y`, recording its groups. -/
inductive Parses : Regex → Cursor → Cursor → Prop where
  | lit (g : List (String × Str)) (w s : Str) : Parses (.lit w) ⟨g, w ++ s⟩ ⟨g, s⟩
  | many {p : Char → Bool} {lo : ℕ} {hi : Option ℕ} (g : List (String × Str)) {w : Str} (s : Str)
      (hp : ∀ c ∈ w, p c = true) (hlo : lo ≤ w.length) (hhi : ∀ h ∈ hi, w.length ≤ h) :
      Parses (.many p lo hi) ⟨g, w ++ s⟩ ⟨g, s⟩
  | seq {a b : Regex} {x y z : Cursor} : Parses a x y → Parses b y z → Parses (.seq a b) x z
  | group {r : Regex} {x : Cursor} {g : List (String × Str)} {w s : Str} (name : String)
      (hx : x.rest = w ++ s) : Parses r x ⟨g, s⟩ → Parses (.group name r) x ⟨(name, w) :: g, s⟩

/-- A match consumes a prefix of what is ahead. -/
theorem Parses.consumes {r : Regex} {x y : Cursor} (h : Parses r x y) :
    ∃ w, x.rest = w ++ y.rest := by
  induction h with
  | lit g w s => exact ⟨w, rfl⟩
  | many g s hp hlo hhi => exact ⟨_, rfl⟩
  | seq _ _ iha ihb =>
      obtain ⟨u, hu⟩ := iha
      obtain ⟨v, hv⟩ := ihb
      exact ⟨u ++ v, by rw [hu, hv, List.append_assoc]⟩
  | group name hx _ _ => exact ⟨_, hx⟩

theorem le_takeWhile {p : Char → Bool} {w s : Str} (h : ∀ c ∈ w, p c = true) :
    w.length ≤ ((w ++ s).takeWhile p).length := by
  rw [List.takeWhile_append_of_pos h, List.length_append]
  omega

theorem of_mem_take {p : Char → Bool} {s : Str} {k : ℕ} (hk : k ≤ (s.takeWhile p).length)
    {c : Char} (h : c ∈ s.take k) : p c = true := by
  have hpre : s.take k <+: s.takeWhile p :=
    List.prefix_of_prefix_length_le (List.take_prefix _ _) (List.takeWhile_prefix p)
      ((List.length_take_le _ _).trans hk)
  exact List.mem_takeWhile_imp (hpre.subset h)

theorem le_reach_iff {p : Char → Bool} {hi : Option ℕ} {s : Str} {k : ℕ} :
    k ≤ reach p hi s ↔ k ≤ (s.takeWhile p).length ∧ ∀ h ∈ hi, k ≤ h := by
  cases hi with
  | none => simp [reach]
  | some h =>
      rw [reach, Option.getD_some, Nat.le_min]
      simp

theorem mem_run_lit {w : Str} {x y : Cursor} :
    y ∈ run (.lit w) x ↔ x.rest = w ++ y.rest ∧ y.groups = x.groups := by
  obtain ⟨g, s⟩ := x
  obtain ⟨g', s'⟩ := y
  simp only [run]
  split
  case isTrue h =>
      obtain ⟨t, rfl⟩ := List.isPrefixOf_iff_prefix.mp h
      simp [eq_comm, and_comm]
  case isFalse h =>
      refine ⟨fun hy => absurd hy (by simp), fun hy => absurd ?_ h⟩
      exact List.isPrefixOf_iff_prefix.mpr ⟨s', hy.1.symm⟩

theorem mem_run_many {p : Char → Bool} {lo : ℕ} {hi : Option ℕ} {x y : Cursor} :
    y ∈ run (.many p lo hi) x ↔ ∃ w, x.rest = w ++ y.rest ∧ y.groups = x.groups ∧
      (∀ c ∈ w, p c = true) ∧ lo ≤ w.length ∧ ∀ h ∈ hi, w.length ≤ h := by
  obtain ⟨g, s⟩ := x
  obtain ⟨g', s'⟩ := y
  simp only [run, List.mem_map, List.mem_range, Cursor.mk.injEq]
  refine ⟨?_, ?_⟩
  · rintro ⟨i, hi', rfl, rfl⟩
    obtain ⟨hlen, hcap⟩ := le_reach_iff.mp (Nat.sub_le (reach p hi s) i)
    have hs : (s.take (reach p hi s - i)).length = reach p hi s - i :=
      List.length_take_of_le (hlen.trans (List.takeWhile_prefix p).length_le)
    exact ⟨s.take (reach p hi s - i), (List.take_append_drop _ _).symm, rfl,
      fun c hc => of_mem_take hlen hc, by omega, fun h hh => hs.symm ▸ hcap h hh⟩
  · rintro ⟨w, rfl, rfl, hp, hlo, hhi⟩
    have hw : w.length ≤ reach p hi (w ++ s') := le_reach_iff.mpr ⟨le_takeWhile hp, hhi⟩
    refine ⟨reach p hi (w ++ s') - w.length, by omega, rfl, ?_⟩
    rw [show reach p hi (w ++ s') - (reach p hi (w ++ s') - w.length) = w.length by omega,
      List.drop_left]

/-- **The matcher lists exactly the matches.** -/
theorem mem_run_iff {r : Regex} {x y : Cursor} : y ∈ run r x ↔ Parses r x y := by
  induction r generalizing x y with
  | lit w =>
      obtain ⟨g, s⟩ := x
      rw [mem_run_lit]
      refine ⟨?_, ?_⟩
      · rintro ⟨rfl, rfl⟩
        exact .lit _ _ _
      · rintro ⟨⟩
        exact ⟨rfl, rfl⟩
  | many p lo hi =>
      obtain ⟨g, s⟩ := x
      rw [mem_run_many]
      refine ⟨?_, ?_⟩
      · rintro ⟨w, rfl, rfl, hp, hlo, hhi⟩
        exact .many _ _ hp hlo hhi
      · intro h
        cases h with
        | many _ _ hp hlo hhi => exact ⟨_, rfl, rfl, hp, hlo, hhi⟩
  | seq a b iha ihb =>
      rw [run, List.mem_flatMap]
      refine ⟨?_, ?_⟩
      · rintro ⟨z, hz, hy⟩
        exact .seq (iha.mp hz) (ihb.mp hy)
      · intro h
        cases h with
        | seq h₁ h₂ => exact ⟨_, iha.mpr h₁, ihb.mpr h₂⟩
  | group name r ih =>
      rw [run, List.mem_map]
      refine ⟨?_, ?_⟩
      · rintro ⟨z, hz, rfl⟩
        obtain ⟨w, hw⟩ := (ih.mp hz).consumes
        rw [show x.rest.take (x.rest.length - z.rest.length) = w by simp [hw]]
        exact .group name hw (ih.mp hz)
      · intro h
        cases h with
        | group _ hx hr => exact ⟨_, ih.mpr hr, by simp [hx]⟩

/-! ### The match that is reported -/

/-- `y` is where the preferred match of `r` from `x` ends. -/
def Prefers (r : Regex) (x y : Cursor) : Prop := (run r x).head? = some y

theorem Prefers.parses {r : Regex} {x y : Cursor} (h : Prefers r x y) : Parses r x y :=
  mem_run_iff.mp (List.mem_of_mem_head? h)

theorem Prefers.lit (g : List (String × Str)) (w s : Str) :
    Prefers (.lit w) ⟨g, w ++ s⟩ ⟨g, s⟩ := by
  simp [Prefers, run]

/-- A greedy run stops where its class does, or at its bound. -/
theorem Prefers.many {p : Char → Bool} {lo : ℕ} {hi : Option ℕ} (g : List (String × Str))
    {w s : Str} (hp : ∀ c ∈ w, p c = true) (hlo : lo ≤ w.length) (hhi : ∀ h ∈ hi, w.length ≤ h)
    (hstop : hi = some w.length ∨ ∀ c ∈ s.head?, p c = false) :
    Prefers (.many p lo hi) ⟨g, w ++ s⟩ ⟨g, s⟩ := by
  have hreach : reach p hi (w ++ s) = w.length := by
    refine le_antisymm ?_ (le_reach_iff.mpr ⟨le_takeWhile hp, hhi⟩)
    rcases hstop with rfl | hs
    · exact (le_reach_iff.mp le_rfl).2 _ rfl
    · refine (le_reach_iff.mp le_rfl).1.trans_eq ?_
      rw [List.takeWhile_append_of_pos hp]
      cases s with
      | nil => simp
      | cons c s => simp [hs c rfl]
  rw [Prefers, run, hreach, show w.length + 1 - lo = (w.length - lo) + 1 by omega,
    List.range_succ_eq_map]
  simp

theorem Prefers.seq {a b : Regex} {x y z : Cursor} (h₁ : Prefers a x y) (h₂ : Prefers b y z) :
    Prefers (.seq a b) x z := by
  obtain ⟨ys, hy⟩ := List.head?_eq_some_iff.mp h₁
  obtain ⟨zs, hz⟩ := List.head?_eq_some_iff.mp h₂
  rw [Prefers, run, hy, List.flatMap_cons, hz]
  rfl

theorem Prefers.group {r : Regex} {x : Cursor} {g : List (String × Str)} {w s : Str}
    (name : String) (hx : x.rest = w ++ s) (h : Prefers r x ⟨g, s⟩) :
    Prefers (.group name r) x ⟨(name, w) :: g, s⟩ := by
  obtain ⟨ys, hy⟩ := List.head?_eq_some_iff.mp h
  simp [Prefers, run, hy, hx]

/-! ### Searching and iterating -/

theorem search_of_prefers {r : Regex} {s : Str} {y : Cursor} (h : Prefers r ⟨[], s⟩ y) :
    search r s = some y := by
  cases s with
  | nil => exact h
  | cons c cs => rw [search, h, Option.some_or]

theorem exists_of_search {r : Regex} : ∀ {s : Str} {y : Cursor}, search r s = some y →
    ∃ a b, s = a ++ b ∧ Parses r ⟨[], b⟩ y
  | [], y, h => ⟨[], [], rfl, Prefers.parses h⟩
  | c :: cs, y, h => by
      rw [search] at h
      rcases Option.or_eq_some_iff.mp h with h | ⟨-, h⟩
      · exact ⟨[], c :: cs, rfl, Prefers.parses h⟩
      · obtain ⟨a, b, rfl, hb⟩ := exists_of_search h
        exact ⟨c :: a, b, rfl, hb⟩

/-- `r` matches at the front of the text. -/
def Matches (r : Regex) (s : Str) : Prop := ∃ y, Parses r ⟨[], s⟩ y

theorem Prefers.matches {r : Regex} {s : Str} {y : Cursor} (h : Prefers r ⟨[], s⟩ y) :
    Matches r s :=
  ⟨y, h.parses⟩

theorem head?_run_eq_none_iff {r : Regex} {s : Str} :
    (run r ⟨[], s⟩).head? = none ↔ ¬ Matches r s := by
  simp only [List.head?_eq_none_iff, List.eq_nil_iff_forall_not_mem, mem_run_iff, Matches,
    not_exists]

/-- A search that finds nothing. -/
theorem search_eq_none_iff {r : Regex} {s : Str} :
    search r s = none ↔ ∀ b, b <:+ s → ¬ Matches r b := by
  induction s with
  | nil =>
      rw [search, head?_run_eq_none_iff]
      simp
  | cons c cs ih =>
      rw [search, Option.or_eq_none_iff, head?_run_eq_none_iff, ih]
      simp only [List.suffix_cons_iff, forall_eq_or_imp]

/-- **What a search finds**: the match that is preferred at the longest suffix that has one. -/
theorem search_eq_some_iff {r : Regex} {s : Str} {y : Cursor} : search r s = some y ↔
    ∃ b, b <:+ s ∧ Prefers r ⟨[], b⟩ y ∧ ∀ b', b' <:+ s → Matches r b' → b'.length ≤ b.length := by
  induction s with
  | nil =>
      simp only [search, List.suffix_nil]
      exact ⟨fun h => ⟨[], rfl, h, by rintro _ rfl -; rfl⟩, fun ⟨_, hb, h, _⟩ => hb ▸ h⟩
  | cons c cs ih =>
      rw [search, Option.or_eq_some_iff, head?_run_eq_none_iff, ih]
      refine ⟨?_, ?_⟩
      · rintro (h | ⟨hno, b, hb, h, hlongest⟩)
        · exact ⟨c :: cs, List.suffix_rfl, h, fun b' hb' _ => hb'.length_le⟩
        · refine ⟨b, hb.trans (List.suffix_cons c cs), h, fun b' hb' hmatch => ?_⟩
          rcases List.suffix_cons_iff.mp hb' with rfl | hb'
          · exact absurd hmatch hno
          · exact hlongest b' hb' hmatch
      · rintro ⟨b, hb, h, hlongest⟩
        rcases List.suffix_cons_iff.mp hb with rfl | hb
        · exact .inl h
        · refine .inr ⟨fun hmatch => ?_, b, hb, h, fun b' hb' hmatch =>
            hlongest b' (hb'.trans (List.suffix_cons c cs)) hmatch⟩
          -- a match at the front would be at a longer suffix
          have hlong := hlongest (c :: cs) List.suffix_rfl hmatch
          have hshort := hb.length_le
          rw [List.length_cons] at hlong
          omega

theorem finditer_skip (r : Regex) : ∀ (w s : Str), finditer r w.length (w ++ s) = finditer r 0 s
  | [], _ => rfl
  | _ :: w, s => finditer_skip r w s

/-- A match that consumes something is reported, and the iteration goes on behind it. -/
theorem finditer_of_prefers {r : Regex} {w s : Str} {g : List (String × Str)} (hw : w ≠ [])
    (h : Prefers r ⟨[], w ++ s⟩ ⟨g, s⟩) : finditer r 0 (w ++ s) = ⟨g, s⟩ :: finditer r 0 s := by
  cases w with
  | nil => exact absurd rfl hw
  | cons c w =>
      rw [Prefers, List.cons_append] at h
      rw [List.cons_append, finditer, h]
      simp only [List.length_append, Nat.add_sub_cancel, finditer_skip]

/-- Where the pattern matches nowhere, the iteration moves on by one character. -/
theorem finditer_step {r : Regex} {c : Char} {cs : Str} (h : run r ⟨[], c :: cs⟩ = []) :
    finditer r 0 (c :: cs) = finditer r 0 cs := by
  rw [finditer, h]
  rfl

end Regex

end Py
