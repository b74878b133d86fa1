import Nrf52Platform.Scons.Actions

/-!
# Scons — Sequences

Actions that follow one another: what a list of actions comes to when it is cut in two, what it
keeps, and what several tools come to that are run in a row.

* `argvs_append`: the processes of two stretches.
* `runActions_append_iff`: a list of actions, cut in two.
* `runActions_invariant`: what every action keeps, a list of them keeps.
* `Outcomes.truthful`: tools run in a row are reported truly.
-/

namespace Scons
open Py Shell

/-- A command assigns no variable. -/
@[simp] theorem CommandAction.call_vars (spawn : Process → ℕ) (a : CommandAction)
    (target source : Node) (st : State) : (a.call spawn target source st).2.vars = st.vars := by
  rcases a.call_cases spawn target source st with h | ⟨-, h⟩ | ⟨p, h⟩ <;> rw [h]
  rfl

/-- A command forgets no tool that was run. -/
theorem CommandAction.runs_prefix (spawn : Process → ℕ) (a : CommandAction)
    (target source : Node) (st : State) : st.runs <+: (a.call spawn target source st).2.runs := by
  rcases a.call_cases spawn target source st with h | ⟨-, h⟩ | ⟨p, h⟩
  · exact ⟨[], by rw [h, List.append_nil]⟩
  · exact ⟨[], by rw [h, List.append_nil]⟩
  · rw [h]
    exact List.prefix_append _ _

/-- The processes of two stretches, one after the other. -/
theorem argvs_append {st st₁ st' : State} (h : st.runs <+: st₁.runs) (h' : st₁.runs <+: st'.runs) :
    argvs st st' = argvs st st₁ ++ argvs st₁ st' := by
  obtain ⟨runs, hruns⟩ := h
  obtain ⟨runs', hruns'⟩ := h'
  rw [argvs, argvs, argvs, ← hruns', ← hruns, List.append_assoc, List.drop_left, List.drop_left,
    ← List.append_assoc, List.drop_left, List.filterMap_append]

/-! ### Lists of actions -/

/-- **A list of actions, cut in two**: the first part fails, or the second goes on from it. -/
theorem runActions_append_iff {as bs : List ActionFn} {st st' : State} {ok : Bool} :
    runActions (as ++ bs) st = some (ok, st') ↔
      runActions as st = some (false, st') ∧ ok = false ∨
        ∃ st₁, runActions as st = some (true, st₁) ∧ runActions bs st₁ = some (ok, st') := by
  induction as generalizing st with
  | nil => simp [runActions]
  | cons a as ih =>
      rw [List.cons_append, runActions, runActions]
      cases ha : a st with
      | none => simp
      | some step =>
          obtain ⟨r, st₁⟩ := step
          simp only
          split
          case isTrue => simp [eq_comm, and_comm]
          case isFalse => exact ih

/-- A list of actions that succeeds, cut in two. -/
theorem exists_of_append {as bs : List ActionFn} {st st' : State}
    (h : runActions (as ++ bs) st = some (true, st')) :
    ∃ st₁, runActions as st = some (true, st₁) ∧ runActions bs st₁ = some (true, st') := by
  rcases runActions_append_iff.mp h with ⟨-, hfalse⟩ | hrest
  · cases hfalse
  · exact hrest

/-- **What every action keeps, a list of them keeps.** -/
theorem runActions_invariant {P : State → Prop} {as : List ActionFn}
    (hstep : ∀ a ∈ as, ∀ st r st', a st = some (r, st') → P st → P st') {st st' : State}
    {ok : Bool} (h : runActions as st = some (ok, st')) (hst : P st) : P st' := by
  induction as generalizing st with
  | nil => cases h; exact hst
  | cons a as ih =>
      rw [runActions] at h
      cases ha : a st with
      | none => rw [ha] at h; cases h
      | some step =>
          obtain ⟨r, st₁⟩ := step
          have hst₁ : P st₁ := hstep a List.mem_cons_self st r st₁ ha hst
          rw [ha] at h
          simp only at h
          split at h
          case isTrue => cases h; exact hst₁
          case isFalse => exact ih (fun b hb => hstep b (List.mem_cons_of_mem a hb)) h hst₁

/-- An action function that always ends, alone. -/
theorem runActions_one {step : State → Result × State} {st st' : State} {ok : Bool}
    (h : runActions [fun st => some (step st)] st = some (ok, st')) :
    ok = !(step st).1.failed ∧ st' = (step st).2 := by
  rw [runActions_singleton rfl] at h
  cases h
  exact ⟨rfl, rfl⟩

/-! ### Tools in a row -/

/-- What is reported is the truth about tools that follow one another, `calls` saying of each run
whether it is the one that was meant: the tools that were run are the first of them, in order, and
it is a success iff all were run and succeeded. -/
def AllTruthful (calls : List (Run → Prop)) (st : State) (ok : Bool) (st' : State) : Prop :=
  ∃ runs, st'.runs = st.runs ++ runs ∧
    List.Forall₂ (fun Called run => Called run) (calls.take runs.length) runs ∧
    (ok = true ↔ runs.length = calls.length ∧ ∀ run ∈ runs, run.succeeded = true)

/-- What can come of tools that are run in a row, with the report: all were run and succeeded, or
one of them is where it stopped. -/
inductive Outcomes : List (Run → Prop) → State → Bool → State → Prop where
  | done {st st' : State} (hruns : st'.runs = st.runs) : Outcomes [] st true st'
  | more {Called : Run → Prop} {calls : List (Run → Prop)} {st st₁ st' : State} {ok : Bool}
      (h : Outcome Called st true st₁) (t : Outcomes calls st₁ ok st') :
      Outcomes (Called :: calls) st ok st'
  | stop {Called : Run → Prop} {calls : List (Run → Prop)} {st st' : State}
      (h : Outcome Called st false st') : Outcomes (Called :: calls) st false st'

namespace Outcomes

theorem one {Called : Run → Prop} {st st' : State} {ok : Bool} (h : Outcome Called st ok st') :
    Outcomes [Called] st ok st' := by
  cases ok with
  | true => exact .more h (.done rfl)
  | false => exact .stop h

/-- What was not run before does not matter. -/
theorem of_runs {calls : List (Run → Prop)} {st₁ st st' : State} {ok : Bool}
    (h : Outcomes calls st₁ ok st') (hruns : st₁.runs = st.runs) : Outcomes calls st ok st' := by
  cases h with
  | done h => exact .done (h.trans hruns)
  | more h t => exact .more (h.of_runs hruns) t
  | stop h => exact .stop (h.of_runs hruns)

theorem append {calls calls' : List (Run → Prop)} {st st₁ st' : State} {ok : Bool}
    (h : Outcomes calls st true st₁) (h' : Outcomes calls' st₁ ok st') :
    Outcomes (calls ++ calls') st ok st' := by
  generalize hok : true = ok₁ at h
  induction h with
  | done hruns => exact h'.of_runs hruns
  | more h _ ih => exact .more h (ih h' hok)
  | stop h => cases hok

/-- A run that stopped does not see what was to follow. -/
theorem append_of_false {calls : List (Run → Prop)} {st st' : State}
    (h : Outcomes calls st false st') (calls' : List (Run → Prop)) :
    Outcomes (calls ++ calls') st false st' := by
  generalize hok : false = ok at h
  induction h with
  | done => cases hok
  | more h _ ih => exact hok ▸ .more h (hok ▸ ih hok)
  | stop h => exact .stop h

/-- **Tools in a row are reported truly.** -/
theorem truthful {calls : List (Run → Prop)} {st st' : State} {ok : Bool}
    (h : Outcomes calls st ok st') : AllTruthful calls st ok st' := by
  induction h with
  | done hruns => exact ⟨[], by rw [hruns, List.append_nil], .nil, by simp⟩
  | more h _ ih =>
      obtain ⟨runs, hruns, hcalls, hok⟩ := ih
      cases h with
      | succeeded run hrun hcalled hs =>
          refine ⟨run :: runs, ?_, .cons hcalled hcalls, ?_⟩
          · rw [hruns, hrun, List.append_assoc, List.singleton_append]
          · simp [hok, hs]
  | stop h =>
      cases h with
      | failed run hrun hcalled hs => exact ⟨[run], hrun, .cons hcalled .nil, by simp [hs]⟩
      | notRun hruns => exact ⟨[], by rw [hruns, List.append_nil], .nil, by simp⟩

end Outcomes

end Scons
