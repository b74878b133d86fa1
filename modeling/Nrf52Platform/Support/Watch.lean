import Mathlib.Algebra.Order.Field.Basic
import Mathlib.Tactic.Linarith
import Mathlib.Tactic.Ring

/-!
# Support — Watch

Watching for something until a deadline: a loop that, pass after pass, first asks whether the time
is up and, if it is not, looks for a hit.

* `run_eq_some_iff`: the loop ends at the first pass that is out of time or has a hit (`Ends`).
* `run_of_ends`: enough fuel gives the result.
* `Ends.unique`: a watch has at most one end.

For clock readings that are paced (`Paced`: each pass lasts at least `lo` and at most `lo + slack`)
against a time limit:

* `Paced.exists_ends`, `Paced.polls_le`: the watch ends, after at most `N` polls, when `N` passes
  fill the limit.
* `Paced.exists_in_window`: some pass begins in every window wide enough to hold one.
* `Paced.hit_of_window`: what is there from `T` on, a pass before the limit, is found.
-/

namespace Watch

variable {β : Type*}

/-- How a watch ends: with a hit at pass `n`, or out of time at pass `n`. -/
inductive Ending (β : Type*) where
  | hit (n : ℕ) (b : β)
  | timeout (n : ℕ)

/-- The pass a watch ends at. -/
def Ending.index : Ending β → ℕ
  | .hit n _ => n
  | .timeout n => n

/-- What a watch has found. -/
def Ending.found : Ending β → Option β
  | .hit _ b => some b
  | .timeout _ => none

/-- How often a watch polled: a pass that is out of time does not. -/
def Ending.polls : Ending β → ℕ
  | .hit n _ => n + 1
  | .timeout n => n

/-- The loop, from pass `k` on; `none` when the fuel runs out first. -/
def run (expired : ℕ → Bool) (poll : ℕ → Option β) : ℕ → ℕ → Option (Ending β)
  | 0, _ => none
  | fuel + 1, k =>
      if expired k then some (.timeout k)
      else match poll k with
        | some b => some (.hit k b)
        | none => run expired poll fuel (k + 1)

/-- `e` is where a watch from pass `k` on ends: the first pass out of time or with a hit. -/
def Ends (expired : ℕ → Bool) (poll : ℕ → Option β) (k : ℕ) : Ending β → Prop
  | .hit n b => k ≤ n ∧ (∀ j, k ≤ j → j < n → expired j = false ∧ poll j = none) ∧
      expired n = false ∧ poll n = some b
  | .timeout n => k ≤ n ∧ (∀ j, k ≤ j → j < n → expired j = false ∧ poll j = none) ∧
      expired n = true

/-- Pass `k` is made, and another follows: no pass up to it is out of time or has a hit. -/
def Made (expired : ℕ → Bool) (poll : ℕ → Option β) (k : ℕ) : Prop :=
  ∀ j ≤ k, expired j = false ∧ poll j = none

section Runs

variable {expired : ℕ → Bool} {poll : ℕ → Option β}

theorem Ends.le {k : ℕ} {e : Ending β} (h : Ends expired poll k e) : k ≤ e.index := by
  cases e with
  | hit n b => exact h.1
  | timeout n => exact h.1

/-- A pass that neither is out of time nor has a hit is followed by the next. -/
theorem ends_succ_iff {k : ℕ} (hx : expired k = false) (hp : poll k = none) {e : Ending β} :
    Ends expired poll k e ↔ Ends expired poll (k + 1) e := by
  have hpast : ∀ n, (∀ j, k ≤ j → j < n → expired j = false ∧ poll j = none) ↔
      ∀ j, k + 1 ≤ j → j < n → expired j = false ∧ poll j = none := by
    intro n
    refine ⟨fun h j hk => h j (by omega), fun h j hk hn => ?_⟩
    rcases Nat.eq_or_lt_of_le hk with rfl | hk
    · exact ⟨hx, hp⟩
    · exact h j hk hn
  cases e with
  | hit n b =>
      refine ⟨?_, ?_⟩
      · rintro ⟨hk, h, hxn, hpn⟩
        have hne : k ≠ n := fun e => by rw [e, hpn] at hp; cases hp
        exact ⟨by omega, (hpast n).mp h, hxn, hpn⟩
      · rintro ⟨hk, h, hxn, hpn⟩
        exact ⟨by omega, (hpast n).mpr h, hxn, hpn⟩
  | timeout n =>
      refine ⟨?_, ?_⟩
      · rintro ⟨hk, h, hxn⟩
        have hne : k ≠ n := fun e => by rw [e, hxn] at hx; cases hx
        exact ⟨by omega, (hpast n).mp h, hxn⟩
      · rintro ⟨hk, h, hxn⟩
        exact ⟨by omega, (hpast n).mpr h, hxn⟩

/-- A pass that is out of time ends the watch. -/
theorem ends_timeout_iff {k : ℕ} (hx : expired k = true) {e : Ending β} :
    Ends expired poll k e ↔ e = .timeout k := by
  refine ⟨fun h => ?_, ?_⟩
  · have hpast : ∀ n, k ≤ n → (∀ j, k ≤ j → j < n → expired j = false ∧ poll j = none) → k = n :=
      fun n hk h => (Nat.eq_or_lt_of_le hk).resolve_right fun hk => by
        rw [(h k le_rfl hk).1] at hx
        cases hx
    cases e with
    | hit n b =>
        obtain rfl := hpast n h.1 h.2.1
        rw [h.2.2.1] at hx
        cases hx
    | timeout n => rw [hpast n h.1 h.2.1]
  · rintro rfl
    exact ⟨le_rfl, fun j hj hj' => absurd hj' (by omega), hx⟩

/-- A pass in time that has a hit ends the watch. -/
theorem ends_hit_iff {k : ℕ} {b : β} (hx : expired k = false) (hp : poll k = some b)
    {e : Ending β} : Ends expired poll k e ↔ e = .hit k b := by
  refine ⟨fun h => ?_, ?_⟩
  · have hpast : ∀ n, k ≤ n → (∀ j, k ≤ j → j < n → expired j = false ∧ poll j = none) → k = n :=
      fun n hk h => (Nat.eq_or_lt_of_le hk).resolve_right fun hk => by
        rw [(h k le_rfl hk).2] at hp
        cases hp
    cases e with
    | hit n b' =>
        obtain rfl := hpast n h.1 h.2.1
        rw [Option.some_inj.mp (hp.symm.trans h.2.2.2)]
    | timeout n =>
        obtain rfl := hpast n h.1 h.2.1
        rw [h.2.2] at hx
        cases hx
  · rintro rfl
    exact ⟨le_rfl, fun j hj hj' => absurd hj' (by omega), hx, hp⟩

/-- **The loop ends at the first pass that is out of time or has a hit.** -/
theorem run_eq_some_iff {fuel k : ℕ} {e : Ending β} :
    run expired poll fuel k = some e ↔ e.index < k + fuel ∧ Ends expired poll k e := by
  induction fuel generalizing k with
  | zero => exact ⟨fun h => (by cases h), fun h => absurd h.2.le (by omega)⟩
  | succ fuel ih =>
      rw [run]
      cases hx : expired k with
      | true =>
          rw [if_pos rfl, ends_timeout_iff hx, Option.some_inj, eq_comm]
          exact ⟨fun h => ⟨by simp [h, Ending.index], h⟩, And.right⟩
      | false =>
          rw [if_neg (by simp)]
          cases hp : poll k with
          | some b =>
              rw [ends_hit_iff hx hp, Option.some_inj, eq_comm]
              exact ⟨fun h => ⟨by simp [h, Ending.index], h⟩, And.right⟩
          | none =>
              simp only
              rw [ih, ends_succ_iff hx hp, show k + 1 + fuel = k + (fuel + 1) by omega]

/-- Enough fuel gives the result. -/
theorem run_of_ends {k fuel : ℕ} {e : Ending β} (h : Ends expired poll k e)
    (hf : e.index < k + fuel) : run expired poll fuel k = some e :=
  run_eq_some_iff.mpr ⟨hf, h⟩

theorem Ends.unique {k : ℕ} {e e' : Ending β} (h : Ends expired poll k e)
    (h' : Ends expired poll k e') : e = e' := by
  have he : run expired poll (max e.index e'.index + 1) k = some e := run_of_ends h (by omega)
  have he' : run expired poll (max e.index e'.index + 1) k = some e' := run_of_ends h' (by omega)
  rw [he, Option.some_inj] at he'
  exact he'

/-- A watch ends, when some pass is out of time or has a hit. -/
theorem exists_ends {k n : ℕ} (hk : k ≤ n) (h : expired n = true ∨ (poll n).isSome) :
    ∃ e, Ends expired poll k e ∧ e.index ≤ n := by
  induction hn : n - k generalizing k with
  | zero =>
      obtain rfl : k = n := by omega
      cases hx : expired k with
      | true => exact ⟨.timeout k, (ends_timeout_iff hx).mpr rfl, le_rfl⟩
      | false =>
          obtain ⟨b, hb⟩ := Option.isSome_iff_exists.mp (h.resolve_left (by simp [hx]))
          exact ⟨.hit k b, (ends_hit_iff hx hb).mpr rfl, le_rfl⟩
  | succ d ih =>
      cases hx : expired k with
      | true => exact ⟨.timeout k, (ends_timeout_iff hx).mpr rfl, hk⟩
      | false =>
          cases hp : poll k with
          | some b => exact ⟨.hit k b, (ends_hit_iff hx hp).mpr rfl, hk⟩
          | none =>
              obtain ⟨e, he, hen⟩ := ih (k := k + 1) (by omega) (by omega)
              exact ⟨e, (ends_succ_iff hx hp).mpr he, hen⟩

/-- The passes before the end of a watch are made. -/
theorem Ends.made_of_lt {e : Ending β} (he : Ends expired poll 0 e) {j : ℕ} (hj : j < e.index) :
    Made expired poll j := by
  intro i hi
  cases e with
  | hit n b => exact he.2.1 i (Nat.zero_le _) (lt_of_le_of_lt hi hj)
  | timeout n => exact he.2.1 i (Nat.zero_le _) (lt_of_le_of_lt hi hj)

end Runs

/-! ### Paced clocks -/

section Pace

variable {𝕜 : Type*} [Field 𝕜] [LinearOrder 𝕜] [IsStrictOrderedRing 𝕜]

/-- The readings `r` of a loop started at `start`: the first comes within `slack`, and every pass
that is made up to the next reading lasts from `lo` to `lo + slack`. -/
structure Paced (start lo slack : 𝕜) (r : ℕ → 𝕜) (made : ℕ → Prop) : Prop where
  first : start ≤ r 0
  first_le : r 0 ≤ start + slack
  pass : ∀ k, made k → lo ≤ r (k + 1) - r k
  pass_le : ∀ k, made k → r (k + 1) - r k ≤ lo + slack

/-- The time is up when `limit` has passed since `start`. -/
def expired (start limit : 𝕜) (r : ℕ → 𝕜) (k : ℕ) : Bool := decide ¬ r k - start < limit

variable {start lo slack limit : 𝕜} {r : ℕ → 𝕜} {made : ℕ → Prop}

omit [IsStrictOrderedRing 𝕜] in
@[simp] theorem expired_eq_false {k : ℕ} :
    expired start limit r k = false ↔ r k - start < limit := by
  rw [expired, decide_eq_false_iff_not, not_not]

omit [IsStrictOrderedRing 𝕜] in
@[simp] theorem expired_eq_true {k : ℕ} :
    expired start limit r k = true ↔ limit ≤ r k - start := by
  rw [expired, decide_eq_true_iff, not_lt]

theorem Paced.elapsed (h : Paced start lo slack r made) {k : ℕ} (hk : ∀ j < k, made j) :
    k * lo ≤ r k - start := by
  induction k with
  | zero =>
      have := h.first
      simp only [Nat.cast_zero, zero_mul]
      linarith
  | succ k ih =>
      have := h.pass k (hk k (Nat.lt_succ_self k))
      have := ih fun j hj => hk j (by omega)
      push_cast
      linarith

section Limit

variable {poll : ℕ → Option β}

/-- **The watch ends**, after at most `N` passes that fill the limit. -/
theorem Paced.exists_ends (h : Paced start lo slack r (Made (expired start limit r) poll)) {N : ℕ}
    (hN : limit ≤ N * lo) : ∃ e, Ends (expired start limit r) poll 0 e ∧ e.index ≤ N := by
  by_cases hex : ∃ j ≤ N, expired start limit r j = true ∨ (poll j).isSome
  · obtain ⟨j, hj, hend⟩ := hex
    obtain ⟨e, he, hej⟩ := Watch.exists_ends (Nat.zero_le j) hend
    exact ⟨e, he, hej.trans hj⟩
  · -- otherwise all passes up to `N` are made, and pass `N` is out of time
    have hpast : ∀ j ≤ N, expired start limit r j = false ∧ poll j = none := by
      intro j hj
      have hj' : ¬ (expired start limit r j = true ∨ (poll j).isSome) := fun h => hex ⟨j, hj, h⟩
      rw [not_or, Bool.not_eq_true, Option.not_isSome_iff_eq_none] at hj'
      exact hj'
    have hup := h.elapsed (k := N) fun j hj i hi => hpast i (by omega)
    have hin := expired_eq_false.mp (hpast N le_rfl).1
    linarith

/-- **The bound on the polls**: `N` passes fill the limit. -/
theorem Paced.polls_le (h : Paced start lo slack r (Made (expired start limit r) poll)) {N : ℕ}
    (hN : limit ≤ N * lo) {e : Ending β} (he : Ends (expired start limit r) poll 0 e) :
    e.polls ≤ N := by
  obtain ⟨e', he', hle⟩ := h.exists_ends hN
  obtain rfl := he.unique he'
  cases e with
  | timeout n => exact hle
  | hit n b =>
      refine Nat.lt_of_le_of_ne hle fun hn => ?_
      -- the last pass would be out of time
      have hup := h.elapsed (k := n) fun j hj => he.made_of_lt hj
      have hin := expired_eq_false.mp he.2.2.1
      obtain rfl : n = N := hn
      linarith

/-- **No blind window**: a watch that times out has made a pass that began at or after `T`, when
`T` and one pass end before the limit. -/
theorem Paced.exists_in_window (h : Paced start lo slack r (Made (expired start limit r) poll))
    (hlo : 0 ≤ lo) {T : 𝕜} (hT : 0 ≤ T) (hw : T + lo + slack < limit) {n : ℕ}
    (he : Ends (expired start limit r) poll 0 (.timeout n)) : ∃ k < n, T ≤ r k - start := by
  classical
  have hslack : 0 ≤ slack := by
    have := h.first
    have := h.first_le
    linarith
  have hup : limit ≤ r n - start := expired_eq_true.mp he.2.2
  have hex : ∃ k, T ≤ r k - start := ⟨n, by linarith⟩
  -- the first pass that begins at `T` or later; were it the last, its predecessor would be too long
  refine ⟨Nat.find hex, Nat.lt_of_le_of_ne (Nat.find_le (by linarith)) ?_, Nat.find_spec hex⟩
  intro hk
  cases n with
  | zero =>
      have := h.first_le
      linarith
  | succ m =>
      have hbefore : r m - start < T := not_le.mp (Nat.find_min hex (by omega))
      have := h.pass_le m (he.made_of_lt (Nat.lt_succ_self m))
      linarith

/-- **What is there in time is found**: if every poll made from `T` on has a hit, the watch ends
with one. -/
theorem Paced.hit_of_window (h : Paced start lo slack r (Made (expired start limit r) poll))
    (hlo : 0 ≤ lo) {T : 𝕜} (hT : 0 ≤ T) (hw : T + lo + slack < limit)
    (hpoll : ∀ k, expired start limit r k = false →
      (∀ j < k, Made (expired start limit r) poll j) → T ≤ r k - start → (poll k).isSome)
    {e : Ending β} (he : Ends (expired start limit r) poll 0 e) : ∃ n b, e = .hit n b := by
  cases e with
  | hit n b => exact ⟨n, b, rfl⟩
  | timeout n =>
      obtain ⟨k, hkn, hk⟩ := h.exists_in_window hlo hT hw he
      obtain ⟨hin, hnone⟩ := he.made_of_lt hkn k le_rfl
      have hsome := hpoll k hin (fun j hj => he.made_of_lt (hj.trans hkn)) hk
      rw [hnone] at hsome
      cases hsome

end Limit

end Pace

end Watch
