import Nrf52Platform.Scons.Subst
import Nrf52Platform.Support.Words

/-!
# Scons — Actions

What the build tool does with actions: the state that actions read and change, the process a
command action starts when it is called, and the list of actions of a target, run in order until
one fails.

* `CommandAction.call_eq`: calling a command action whose line is cut into words starts one
  process, with these words, and hands back its exit status.
* `runActions_cons`: a list goes on exactly when its first action does not fail.
-/

namespace Scons
open Py Shell

/-- A file node: the path it is shown by, and its absolute path. -/
structure Node where
  str : Str
  abspath : Str
  deriving DecidableEq

/-- A process, as it is started. -/
structure Process where
  argv : List Str
  env : Dict Str Str
  cwd : Option Str
  deriving DecidableEq

/-- A tool that was run: a process, on behalf of an action that was called with a source, and its
exit status; or a Python function with its arguments, and whether it returned, with no status that
is a failure. -/
inductive Run where
  | process (p : Process) (source : Node) (status : ℕ)
  | python (function : String) (args : List Str) (returned : Bool)
  deriving DecidableEq

/-- What actions read and change: the construction variables, the dictionary objects, and the
tools run so far. -/
structure State where
  vars : Vars
  heap : List (Dict Str Str)
  runs : List Run

/-- What a Python action function hands back: `None`, a status, or an exception. -/
inductive Result where
  | none
  | status (n : ℕ)
  | raised
  deriving DecidableEq

/-- A Python action fails when it raises or returns something other than `None` and 0. -/
def Result.failed : Result → Bool
  | .none => false
  | .status n => n != 0
  | .raised => true

/-- An action of a target; `none` when it has not come to an end. -/
abbrev ActionFn := State → Option (Result × State)

namespace State

/-- `env.subst(s)`. -/
def subst (st : State) (s : Str) : Str := Scons.subst st.vars s

/-- `env.Replace(x=v)`. -/
def replace (st : State) (x : Str) (v : Value) : State := { st with vars := st.vars.set x v }

/-- The dictionary object a reference stands for. -/
def deref (st : State) (r : ℕ) : Dict Str Str := st.heap[r]?.getD .empty

/-- The environment of the processes that are started: the dictionary of the variable `ENV`. -/
def environ (st : State) : Dict Str Str :=
  match st.vars.get? "ENV" with
  | some (.dict r) => st.deref r
  | _ => .empty

/-- `d.copy()`, with the reference to the new object. -/
def copy (st : State) (r : ℕ) : ℕ × State :=
  (st.heap.length, { st with heap := st.heap ++ [st.deref r] })

/-- `d[k] = v`. -/
def setItem (st : State) (r : ℕ) (k v : Str) : State :=
  { st with heap := st.heap.set r ((st.deref r).set k v) }

/-- `bool(v)`, for a value that is there or not. -/
def truthy (st : State) : Option Value → Bool
  | none => false
  | some (.str s) => s ≠ []
  | some (.list l) => l ≠ []
  | some (.dict r) => (st.deref r).items ≠ []
  | some (.node _) | some (.action _) => true

/-- A tool was run. -/
def log (st : State) (run : Run) : State := { st with runs := st.runs ++ [run] }

@[simp] theorem replace_vars (st : State) (x : Str) (v : Value) :
    (st.replace x v).vars = st.vars.set x v := rfl

@[simp] theorem log_runs (st : State) (run : Run) : (st.log run).runs = st.runs ++ [run] := rfl

end State

/-! ### Command actions -/

/-- The variables a command of an action on `target` and `source` is substituted with.  There is one
file of each, which the plural names stand for too. -/
def cmdVars (vars : Vars) (target source : Node) : Vars :=
  (((vars.set "TARGET" (.node target.str)).set "TARGETS" (.node target.str)).set "SOURCE"
    (.node source.str)).set "SOURCES" (.node source.str)

/-- The names that stand for the files of an action. -/
def fileNames : List Str := ["TARGET", "TARGETS", "SOURCE", "SOURCES"]

theorem get?_cmdVars (vars : Vars) (target source : Node) {x : Str} (hx : x ∉ fileNames) :
    (cmdVars vars target source).get? x = vars.get? x := by
  simp only [fileNames, List.mem_cons, List.not_mem_nil, or_false, not_or] at hx
  obtain ⟨htarget, htargets, hsource, hsources⟩ := hx
  rw [cmdVars, Dict.get?_set_of_ne _ _ hsources, Dict.get?_set_of_ne _ _ hsource,
    Dict.get?_set_of_ne _ _ htargets, Dict.get?_set_of_ne _ _ htarget]

theorem get?_cmdVars_target (vars : Vars) (target source : Node) :
    (cmdVars vars target source).get? "TARGET" = some (.node target.str) := by
  rw [cmdVars, Dict.get?_set_of_ne _ _ (by decide), Dict.get?_set_of_ne _ _ (by decide),
    Dict.get?_set_of_ne _ _ (by decide), Dict.get?_set_self]

theorem get?_cmdVars_source (vars : Vars) (target source : Node) :
    (cmdVars vars target source).get? "SOURCE" = some (.node source.str) := by
  rw [cmdVars, Dict.get?_set_of_ne _ _ (by decide), Dict.get?_set_self]

theorem get?_cmdVars_sources (vars : Vars) (target source : Node) :
    (cmdVars vars target source).get? "SOURCES" = some (.node source.str) := by
  rw [cmdVars, Dict.get?_set_self]

/-- The command line of an action. -/
def CommandAction.line (a : CommandAction) (target source : Node) (st : State) : Str :=
  Scons.subst (cmdVars st.vars target source) a.cmd

/-- The line of a command that is stored in a variable, which is hidden from the command. -/
theorem CommandAction.line_stored {target source : Node} {st : State} (x : Str)
    (hx : isPart ('$' :: x) = true) (hfile : x ∉ fileNames) {cmd : Str}
    (h : st.vars.get? x = some (.str cmd)) (strfunction : Str) (chdir : Option Str) :
    CommandAction.line ⟨'$' :: x, strfunction, chdir⟩ target source st =
      Scons.subst ((cmdVars st.vars target source).erase x) cmd := by
  have hget : (cmdVars st.vars target source).get? x = some (.str cmd) := by
    rw [get?_cmdVars _ _ _ hfile, h]
  exact (subst_ref _ x hx).trans (ref_eq hget)

/-- `cmd(target, source, env)`, where `spawn` gives the exit status of a process.  A line the
shell cannot read starts nothing and fails; an empty one starts nothing. -/
def CommandAction.call (spawn : Process → ℕ) (a : CommandAction) (target source : Node)
    (st : State) : Result × State :=
  match shellWords (a.line target source st) with
  -- the status of a shell that cannot read its line
  | none => (.status 2, st)
  | some [] => (.status 0, st)
  | some argv =>
      let p : Process := ⟨argv, st.environ, a.chdir⟩
      (.status (spawn p), st.log (.process p source (spawn p)))

/-- **Calling a command action** whose line is cut into words starts one process. -/
theorem CommandAction.call_eq {spawn : Process → ℕ} {a : CommandAction} {target source : Node}
    {st : State} {argv : List Str} (h : shellWords (a.line target source st) = some argv)
    (hne : argv ≠ []) :
    a.call spawn target source st =
      (.status (spawn ⟨argv, st.environ, a.chdir⟩), st.log (.process ⟨argv, st.environ, a.chdir⟩
        source (spawn ⟨argv, st.environ, a.chdir⟩))) := by
  cases argv with
  | nil => exact absurd rfl hne
  | cons w ws => rw [CommandAction.call, h]

/-- A command action starts at most one process, and if it starts none it changes nothing. -/
theorem CommandAction.call_cases (spawn : Process → ℕ) (a : CommandAction) (target source : Node)
    (st : State) :
    a.call spawn target source st = (.status 2, st) ∨
      shellWords (a.line target source st) = some [] ∧
        a.call spawn target source st = (.status 0, st) ∨
      ∃ p, a.call spawn target source st =
        (.status (spawn p), st.log (.process p source (spawn p))) := by
  cases h : shellWords (a.line target source st) with
  | none => exact .inl (by rw [CommandAction.call, h])
  | some argv =>
      cases argv with
      | nil => exact .inr (.inl ⟨rfl, by rw [CommandAction.call, h]⟩)
      | cons w ws => exact .inr (.inr ⟨_, CommandAction.call_eq h (by simp)⟩)

/-- A path without quotes, backslashes, dollar signs and line breaks, or nothing. -/
def Clean (s : Str) : Prop := ∀ c ∈ ['"', '\'', '\\', '$', '\n', '\r'], c ∉ s

/-- A path without quotes, backslashes, dollar signs and line breaks. -/
def CleanPath (s : Str) : Prop := s ≠ [] ∧ Clean s

instance (s : Str) : Decidable (Clean s) :=
  inferInstanceAs (Decidable (∀ c ∈ ['"', '\'', '\\', '$', '\n', '\r'], c ∉ s))

instance (s : Str) : Decidable (CleanPath s) := inferInstanceAs (Decidable (_ ∧ _))

/-- A path that a command may quote: clean, and its blanks are single ones between words, since the
build tool squeezes runs of them (which `subst` leaves as they are). -/
structure Quotable (s : Str) : Prop where
  clean : CleanPath s
  spaced : join " " (words s) = s

instance (s : Str) : Decidable (Quotable s) :=
  decidable_of_iff (CleanPath s ∧ join " " (words s) = s)
    ⟨fun h => ⟨h.1, h.2⟩, fun h => ⟨h.clean, h.spaced⟩⟩

/-- Neither the substitution nor the shell sees anything in a quotable path. -/
theorem Quotable.plain {s : Str} (h : Quotable s) : '$' ∉ s ∧ '"' ∉ s :=
  ⟨h.clean.2 '$' (by simp), h.clean.2 '"' (by simp)⟩

/-- The argument vector of a run that is a process. -/
def Run.argv : Run → Option (List Str)
  | .process p _ _ => some p.argv
  | .python _ _ _ => none

/-- The argument vectors of the processes started on the way from `st` to `st'`. -/
def argvs (st st' : State) : List (List Str) := (st'.runs.drop st.runs.length).filterMap Run.argv

/-- **The process of a command**: the arguments its line is cut into. -/
theorem CommandAction.argvs_iff {spawn : Process → ℕ} {a : CommandAction} {target source : Node}
    {st₁ st : State} (hruns : st₁.runs = st.runs) {argv : List Str} (hne : argv ≠ []) :
    argvs st (a.call spawn target source st₁).2 = [argv] ↔
      shellWords (a.line target source st₁) = some argv := by
  cases hwords : shellWords (a.line target source st₁) with
  | none => simp [CommandAction.call, hwords, argvs, hruns]
  | some ws =>
      by_cases hws : ws = []
      · subst hws
        simp [CommandAction.call, hwords, argvs, hruns, hne.symm]
      · rw [CommandAction.call_eq hwords hws]
        simp [argvs, hruns, Run.argv]

/-! ### Quoted parts -/

/-- A quoted reference is cut into one word, with any blanks it has. -/
theorem shellWords_reference {vars : Vars} {c : Char} {x v : Str} (hc : isNameStart c = true)
    (hx : ∀ d ∈ x, isNameChar d = true) (hget : vars.get? (c :: x) = some (.str v))
    (hv : '$' ∉ v ∧ '"' ∉ v) (s : Str) :
    shellWords (subst vars ('"' :: '$' :: c :: (x ++ '"' :: ' ' :: s))) =
      (shellWords (subst vars s)).map (v :: ·) := by
  have hopen := subst_append_plain vars (a := ['"']) (by decide)
    ('$' :: c :: (x ++ '"' :: ' ' :: s))
  have hclose := subst_append_plain vars (a := ['"', ' ']) (by decide) s
  have hvar := subst_var vars (s := '"' :: ' ' :: s) hc hx (by rintro d ⟨⟩; decide)
  have harg := shellWords_arg (.quoted hv.2) (subst vars s)
  simp only [List.cons_append, List.nil_append, List.append_assoc] at hopen hclose harg
  rw [hopen, hvar, hclose, ref_str hget hv.1, harg]

/-- Quoted plain text is cut into one word, with any blanks it has. -/
theorem shellWords_text (vars : Vars) {v : Str} (hv : '$' ∉ v ∧ '"' ∉ v) (s : Str) :
    shellWords (subst vars ('"' :: (v ++ '"' :: ' ' :: s))) =
      (shellWords (subst vars s)).map (v :: ·) := by
  have hplain : '$' ∉ '"' :: (v ++ ['"', ' ']) := by simp [hv.1]
  have happend := subst_append_plain vars hplain s
  have hleft : '"' :: (v ++ '"' :: ' ' :: s) = '"' :: (v ++ ['"', ' ']) ++ s := by simp
  have hright : '"' :: (v ++ ['"', ' ']) ++ subst vars s =
      '"' :: (v ++ ['"']) ++ ' ' :: subst vars s := by simp
  rw [hleft, happend, hright, shellWords_arg (.quoted hv.2)]

/-! ### The truth about a tool -/

/-- The run is one on `source`: the action that started the process was called with it, or its path
is among the arguments of the function. -/
def Run.On (source : Node) : Run → Prop
  | .process _ src _ => src = source
  | .python _ args _ => source.str ∈ args ∨ source.abspath ∈ args

/-- The tool exited with 0, or returned. -/
def Run.succeeded : Run → Bool
  | .process _ _ status => status == 0
  | .python _ _ returned => returned

/-- What is reported, `ok`, is the truth about what happened from `st` to `st'`: it is a success iff
exactly one tool was run, on `source`, and it succeeded. -/
def Truthful (source : Node) (st : State) (ok : Bool) (st' : State) : Prop :=
  ok = true ↔ ∃ run, st'.runs = st.runs ++ [run] ∧ run.On source ∧ run.succeeded = true

/-- What can come of an action that runs a tool, with the report of it: the tool succeeded, it
failed, or it was not run.  `Called` says of a run that it is the one that was meant. -/
inductive Outcome (Called : Run → Prop) (st : State) : Bool → State → Prop where
  | succeeded {st' : State} (run : Run) (hruns : st'.runs = st.runs ++ [run])
      (hcalled : Called run) (hs : run.succeeded = true) : Outcome Called st true st'
  | failed {st' : State} (run : Run) (hruns : st'.runs = st.runs ++ [run])
      (hcalled : Called run) (hs : run.succeeded = false) : Outcome Called st false st'
  | notRun {st' : State} (hruns : st'.runs = st.runs) : Outcome Called st false st'

namespace Outcome

variable {Called : Run → Prop} {source : Node} {st st₁ st' : State} {ok : Bool}

/-- **Each outcome is reported truly.** -/
theorem truthful (h : Outcome Called st ok st') (hon : ∀ run, Called run → run.On source) :
    Truthful source st ok st' := by
  cases h with
  | succeeded run hruns hcalled hs => exact iff_of_true rfl ⟨run, hruns, hon run hcalled, hs⟩
  | failed run hruns _ hs =>
      refine iff_of_false Bool.false_ne_true ?_
      rintro ⟨run', hruns', -, hs'⟩
      rw [hruns, List.append_cancel_left_eq, List.singleton_inj] at hruns'
      rw [hruns', hs'] at hs
      cases hs
  | notRun hruns => simp [Truthful, hruns]

/-- Whatever was run is what was meant. -/
theorem called (h : Outcome Called st ok st') :
    ∀ run ∈ st'.runs.drop st.runs.length, Called run := by
  cases h with
  | succeeded run hruns hcalled | failed run hruns hcalled => simpa [hruns] using hcalled
  | notRun hruns => simp [hruns]

theorem mono (h : Outcome Called st ok st') {Called' : Run → Prop}
    (hcalled : ∀ run, Called run → Called' run) : Outcome Called' st ok st' := by
  cases h with
  | succeeded run h hrun hs => exact .succeeded run h (hcalled run hrun) hs
  | failed run h hrun hs => exact .failed run h (hcalled run hrun) hs
  | notRun h => exact .notRun h

/-- What was not run before does not matter. -/
theorem of_runs (h : Outcome Called st₁ ok st') (hruns : st₁.runs = st.runs) :
    Outcome Called st ok st' := by
  cases h with
  | succeeded run h hcalled hs => exact .succeeded run (hruns ▸ h) hcalled hs
  | failed run h hcalled hs => exact .failed run (hruns ▸ h) hcalled hs
  | notRun h => exact .notRun (hruns ▸ h)

/-- A tool that was run, and what it came to reported. -/
theorem of_log {run : Run} (h : st'.runs = st.runs ++ [run]) (hcalled : Called run)
    (hok : run.succeeded = ok) : Outcome Called st ok st' := by
  cases ok with
  | true => exact .succeeded run h hcalled hok
  | false => exact .failed run h hcalled hok

end Outcome

/-- A success is not the truth when nothing was run. -/
theorem not_truthful_true {source : Node} {st st' : State} (h : st'.runs = st.runs) :
    ¬ Truthful source st true st' := by
  simp [Truthful, h]

/-- **The outcome of a command**, unless its line is empty. -/
theorem CommandAction.call_outcome {spawn : Process → ℕ} {a : CommandAction}
    {target source : Node} {st : State} {Called : Run → Prop}
    (hne : shellWords (a.line target source st) ≠ some [])
    (hcalled : ∀ argv, shellWords (a.line target source st) = some argv → ∀ status,
      Called (.process ⟨argv, st.environ, a.chdir⟩ source status)) :
    Outcome Called st (!(a.call spawn target source st).1.failed)
      (a.call spawn target source st).2 := by
  cases hwords : shellWords (a.line target source st) with
  | none =>
      rw [CommandAction.call, hwords]
      exact .notRun rfl
  | some argv =>
      rw [CommandAction.call_eq hwords (fun h => hne (h ▸ hwords))]
      exact .of_log rfl (hcalled argv hwords _) (by simp [Result.failed, Run.succeeded, bne])

/-! ### Lists of actions -/

/-- Runs the actions of a target in order; a failing one stops the list.  The answer is whether
the target is reported successful, `none` when some action has not come to an end. -/
def runActions : List ActionFn → State → Option (Bool × State)
  | [], st => some (true, st)
  | a :: as, st =>
      match a st with
      | none => none
      | some (r, st') => if r.failed then some (false, st') else runActions as st'

theorem runActions_cons {a : ActionFn} {as : List ActionFn} {st st' : State} {r : Result}
    (h : a st = some (r, st')) :
    runActions (a :: as) st = if r.failed then some (false, st') else runActions as st' := by
  rw [runActions, h]

theorem runActions_singleton {a : ActionFn} {st st' : State} {r : Result}
    (h : a st = some (r, st')) : runActions [a] st = some (!r.failed, st') := by
  rw [runActions_cons h]
  cases r.failed <;> rfl

end Scons
