import Nrf52Platform.Builder.ResetRuns
import Nrf52Platform.Builder.Swd

/-!
# Builder — Targets

The flashing targets that `builder/main.py` registers, their action lists, and what the build tool
reports of them.

* `actions_outcome`: what comes of a target that calls its tool, which it reports truly.
* `argvs_uploadUf2_iff`: when the UF2 upload gets the intended arguments.
* `reset_raised_iff`: when the reset step stops a serial target.
* `runTarget_ends`: every target comes to an end, on a clock that reaches the deadline.
* `reportsTruly_iff`: the report of a target is the truth iff the target is not
  `flash_serial_adafruit`, which stores its command and never calls it, or the reset step stops it.
-/

namespace Nrf52
open Py Scons Shell

/-! ### The upload actions -/

/-- The state when the `upload_action` of `upload_uf2_adafruit` calls its command. -/
def uf2State (uf2conv : Str) (st : State) : State :=
  ((st.replace "UPLOADER" (.str uf2conv)).replace "UPLOADERFLAGS"
    (.list ["-D", "-d", "$UPLOAD_PORT"])).replace "UPLOADCMD"
    (.str "\"$PYTHONEXE\" \"$UPLOADER\" $SOURCE $UPLOADERFLAGS")

/-- The `upload_action` of `upload_uf2_adafruit`; `uf2conv` is what `get_uf2conv` gives, none when
it raises. -/
def uploadUf2Adafruit (spawn : Process → ℕ) (uf2conv : Option Str) (target source : Node)
    (st : State) : Result × State :=
  match uf2conv with
  | none => (.raised, st)
  | some uf2conv =>
      let cmd : CommandAction := {
        cmd := "$UPLOADCMD"
        strfunction := "Uploading $SOURCE"
        chdir := none }
      cmd.call spawn target source (uf2State uf2conv st)

/-- The `upload_action` of `upload_serial_adafruit`; `toolDir` is what `get_package_dir` gives.  The
command is assigned to the construction variable `cmd`, and nothing is returned. -/
def uploadSerialAdafruit (toolDir : Option Str) (st : State) : Result × State :=
  let st := if st.truthy (st.vars.get? "UPLOAD_SPEED") then st
    else st.replace "UPLOAD_SPEED" (.str "115200")
  let cmd : CommandAction := {
    cmd := "$UPLOADCMD"
    strfunction := "Uploading $SOURCE"
    chdir := none }
  let uploader := pathJoin (toolDir.getD []) ["adafruit-nrfutil.py"]
  (.none, (((st.replace "UPLOADER" (.str uploader)).replace "UPLOADERFLAGS"
    (.list ["dfu", "serial", "-p", "$UPLOAD_PORT", "-b", "$UPLOAD_SPEED", "--singlebank"])).replace
    "UPLOADCMD" (.str "\"$PYTHONEXE\" \"$UPLOADER\" $UPLOADERFLAGS -pkg $SOURCE")).replace
    "cmd" (.action cmd))

/-- `s or default`. -/
def strOr (s default : Str) : Str := if s = [] then default else s

/-- The `upload_nordic` of `upload_serial_nordic`; `flash` gives what `flash_dfu_package` does,
called with these arguments.  What it hands back is dropped, so it fails only when it raises. -/
def uploadNordic (flash : List Str → Result) (source : Node) (st : State) : Result × State :=
  let args := [st.subst "$UPLOAD_PORT", strOr (st.subst "$UPLOAD_SPEED") "115200", source.str]
  (if flash args = .raised then .raised else .none,
    st.log (.python "flash_dfu_package" args (flash args ≠ .raised)))

/-! ### The targets -/

/-- The tools outside the builder. -/
structure Tools where
  spawn : Process → ℕ
  pathsep : Char
  jlinkDir : Option Str
  adafruitNrfutilDir : Option Str
  getSdk : Option Sdk
  getUf2conv : Option Str
  flashDfuPackage : List Str → Result

/-- The files the targets depend on. -/
structure Files where
  targetHex : Node
  targetUf2 : Node
  targetDfuAdafruit : Node
  targetDfuNordic : Node

/-- The flashing targets. -/
inductive Target where
  | flashPyocd
  | flashJlink
  | flashUf2
  | flashSerialAdafruit
  | flashSerialNordic
  deriving DecidableEq

namespace Target

/-- The names of the targets; `upload` is an alias. -/
def named : String → Option Target
  | "flash_pyocd" => some flashPyocd
  | "flash_jlink" => some flashJlink
  | "flash_uf2" => some flashUf2
  | "flash_serial_adafruit" => some flashSerialAdafruit
  | "flash_serial_nordic" => some flashSerialNordic
  | "upload" => some flashSerialAdafruit
  | _ => none

/-- The file a target depends on, its `$SOURCE`. -/
def source (files : Files) : Target → Node
  | flashPyocd | flashJlink => files.targetHex
  | flashUf2 => files.targetUf2
  | flashSerialAdafruit => files.targetDfuAdafruit
  | flashSerialNordic => files.targetDfuNordic

/-- The targets that reset the device and upload through its port. -/
def serial : Target → Bool
  | flashSerialAdafruit | flashSerialNordic => true
  | flashPyocd | flashJlink | flashUf2 => false

end Target

/-- `reset_to_bootloader` as an action. -/
def resetAction (w : Serial) (fuel : ℕ) : ActionFn := fun st =>
  (resetToBootloader vidsPids w fuel st.vars).map
    fun run => (run.result, { st with vars := run.vars })

/-- The action list of a target, called for `target` and its source. -/
def actions (tools : Tools) (w : Serial) (fuel : ℕ) (t : Target) (target source : Node) :
    List ActionFn :=
  match t with
  | .flashPyocd => [fun st => some (uploadSwd tools.spawn tools.pathsep tools.jlinkDir tools.getSdk
      "pyocd" target source st)]
  | .flashJlink => [fun st => some (uploadSwd tools.spawn tools.pathsep tools.jlinkDir tools.getSdk
      "jlink" target source st)]
  | .flashUf2 => [fun st => some (uploadUf2Adafruit tools.spawn tools.getUf2conv target source st)]
  | .flashSerialAdafruit =>
      [resetAction w fuel, fun st => some (uploadSerialAdafruit tools.adafruitNrfutilDir st)]
  | .flashSerialNordic =>
      [resetAction w fuel, fun st => some (uploadNordic tools.flashDfuPackage source st)]

/-- Runs the target of a name: whether it is reported successful, and the state after it. -/
def runTarget (tools : Tools) (files : Files) (w : Serial) (fuel : ℕ) (name : String) (st : State) :
    Option (Bool × State) :=
  match Target.named name with
  | none => none
  | some t => runActions (actions tools w fuel t ⟨name.toList, name.toList⟩ (t.source files)) st

/-! ### The tools -/

/-- A tool: `west flash` with a runner, a script that the interpreter runs, by a command that quotes
the paths or not, or a function. -/
inductive Tool where
  | west (runner : Str)
  | script (path : Str) (quoted : Bool)
  | function (name : String)

/-- The run is one of the tool, with its name and the file among the arguments, except for `west`,
whose command does not name the file.  `python` is the value of `PYTHONEXE`; paths of a script that
the command would not hand over as they are do not count. -/
def Tool.Ran (python : Option Value) (file : Str) : Tool → Run → Prop
  | .west runner, .process p _ _ => westWords runner <+: p.argv
  | .script path quoted, .process p _ _ => ∀ interpreter, python = some (.str interpreter) →
      (∀ q ∈ [interpreter, path, file], Quotable q ∧ (quoted = true ∨ Solid q)) →
      [interpreter, path] <+: p.argv ∧ file ∈ p.argv
  | .function name, .python f args _ => f = name ∧ file ∈ args
  | .west _, .python _ _ _ | .script _ _, .python _ _ _ | .function _, .process _ _ _ => False

/-- The tool of a target, if the SDK has it. -/
def Target.tool (tools : Tools) : Target → Option Tool
  | flashPyocd => some (.west "pyocd")
  | flashJlink => some (.west "jlink")
  | flashUf2 => tools.getUf2conv.map (.script · true)
  | flashSerialAdafruit =>
      some (.script (pathJoin (tools.adafruitNrfutilDir.getD []) ["adafruit-nrfutil.py"]) true)
  | flashSerialNordic => some (.function "flash_dfu_package")

/-- The run is the one that is meant when the target is called with `source`. -/
def Target.Calls (tools : Tools) (t : Target) (source : Node) (python : Option Value)
    (run : Run) : Prop :=
  run.On source ∧ ∃ tool ∈ t.tool tools, tool.Ran python source.str run

/-! ### The targets that call their command -/

section Commands

variable {spawn : Process → ℕ} {pathsep : Char} {target source : Node} {st : State}

theorem swd_outcome (jlinkDir : Option Str) (sdk : Option Sdk) {runner : Str}
    (hrunner : runner ∈ ["pyocd".toList, "jlink".toList]) (python : Option Value) :
    Outcome (fun run => run.On source ∧ (Tool.west runner).Ran python source.str run) st
      (!(uploadSwd spawn pathsep jlinkDir sdk runner target source st).1.failed)
      (uploadSwd spawn pathsep jlinkDir sdk runner target source st).2 := by
  cases sdk with
  | none => exact .notRun rfl
  | some sdk =>
      obtain ⟨rest, hline⟩ := @shellWords_west pathsep jlinkDir sdk runner st target source hrunner
        "Uploading $SOURCE" (some sdk.sdkPath)
      rw [uploadSwd]
      refine (CommandAction.call_outcome ?_ fun argv hargv status => ⟨rfl, ?_⟩).of_runs
        (runs_swdState pathsep jlinkDir sdk runner st)
      · rw [hline]
        simp [westWords]
      · rw [hline] at hargv
        obtain ⟨words, -, rfl⟩ := Option.map_eq_some_iff.mp hargv
        exact List.prefix_append _ _

/-- The variables the upload command is substituted with, itself hidden. -/
def uf2Vars (uf2conv : Str) (target source : Node) (st : State) : Vars :=
  (cmdVars (uf2State uf2conv st).vars target source).erase "UPLOADCMD"

theorem line_uf2 (uf2conv : Str) (strfunction : Str) :
    CommandAction.line ⟨"$UPLOADCMD", strfunction, none⟩ target source (uf2State uf2conv st) =
      subst (uf2Vars uf2conv target source st)
        "\"$PYTHONEXE\" \"$UPLOADER\" $SOURCE $UPLOADERFLAGS" := by
  have hget : (uf2State uf2conv st).vars.get? "UPLOADCMD" =
      some (.str "\"$PYTHONEXE\" \"$UPLOADER\" $SOURCE $UPLOADERFLAGS") :=
    Dict.get?_set_self _ _ _
  exact CommandAction.line_stored "UPLOADCMD" (by decide) (by decide) hget strfunction none

/-- Whatever the environment, the line starts with a quote. -/
theorem line_quote (uf2conv : Str) (strfunction : Str) :
    ∃ rest, CommandAction.line ⟨"$UPLOADCMD", strfunction, none⟩ target source
      (uf2State uf2conv st) = '"' :: rest :=
  ⟨_, (line_uf2 uf2conv strfunction).trans (subst_append_plain _ (a := ['"']) (by decide) _)⟩

/-- The variables that the upload does not set are those of the environment. -/
theorem get?_uf2Vars (uf2conv : Str) {x : Str} (hfile : x ∉ fileNames)
    (hx : x ∉ ["UPLOADER".toList, "UPLOADERFLAGS".toList, "UPLOADCMD".toList]) :
    (uf2Vars uf2conv target source st).get? x = st.vars.get? x := by
  simp only [List.mem_cons, List.not_mem_nil, or_false, not_or] at hx
  obtain ⟨huploader, hflags, hcmd⟩ := hx
  rw [uf2Vars, Dict.get?_erase_of_ne _ hcmd, get?_cmdVars _ _ _ hfile, uf2State]
  simp only [State.replace_vars]
  rw [Dict.get?_set_of_ne _ _ hcmd, Dict.get?_set_of_ne _ _ hflags,
    Dict.get?_set_of_ne _ _ huploader]

theorem get?_uf2Vars_uploader (uf2conv : Str) :
    (uf2Vars uf2conv target source st).get? "UPLOADER" = some (.str uf2conv) := by
  rw [uf2Vars, Dict.get?_erase_of_ne _ (by decide), get?_cmdVars _ _ _ (by decide), uf2State]
  simp only [State.replace_vars]
  rw [Dict.get?_set_of_ne _ _ (by decide), Dict.get?_set_of_ne _ _ (by decide),
    Dict.get?_set_self]

theorem get?_uf2Vars_flags (uf2conv : Str) : (uf2Vars uf2conv target source st).get?
    "UPLOADERFLAGS" = some (.list ["-D", "-d", "$UPLOAD_PORT"]) := by
  rw [uf2Vars, Dict.get?_erase_of_ne _ (by decide), get?_cmdVars _ _ _ (by decide), uf2State]
  simp only [State.replace_vars]
  rw [Dict.get?_set_of_ne _ _ (by decide), Dict.get?_set_self]

theorem get?_uf2Vars_source (uf2conv : Str) :
    (uf2Vars uf2conv target source st).get? "SOURCE" = some (.node source.str) := by
  rw [uf2Vars, Dict.get?_erase_of_ne _ (by decide), get?_cmdVars_source]

/-- **Quoted paths come back whole**: the tool gets the interpreter's path, its own and the file's
as they are, with any blanks they have. -/
theorem shellWords_uf2 {python uf2conv : Str}
    (hpython : st.vars.get? "PYTHONEXE" = some (.str python)) (hpy : '$' ∉ python ∧ '"' ∉ python)
    (hconv : '$' ∉ uf2conv ∧ '"' ∉ uf2conv) (hfile : '"' ∉ source.str) (strfunction : Str) :
    shellWords (CommandAction.line ⟨"$UPLOADCMD", strfunction, none⟩ target source
      (uf2State uf2conv st)) =
      (shellWords (ref (uf2Vars uf2conv target source st) "UPLOADERFLAGS")).map
        ([python, uf2conv, source.str] ++ ·) := by
  have hfirst := shellWords_reference (c := 'P') (x := "YTHONEXE".toList) (by decide) (by decide)
    ((@get?_uf2Vars target source st uf2conv _ (by decide) (by decide)).trans hpython) hpy
    "\"$UPLOADER\" $SOURCE $UPLOADERFLAGS"
  have hsecond := shellWords_reference (c := 'U') (x := "PLOADER".toList) (by decide) (by decide)
    (@get?_uf2Vars_uploader target source st uf2conv) hconv "$SOURCE $UPLOADERFLAGS"
  have hthird : subst (uf2Vars uf2conv target source st) "$SOURCE $UPLOADERFLAGS" =
      join " " (['"' :: (source.str ++ ['"'])] ++
        [ref (uf2Vars uf2conv target source st) "UPLOADERFLAGS"]) := by
    have htail : "$SOURCE $UPLOADERFLAGS".toList = join " " ["$SOURCE", "$UPLOADERFLAGS"] := by
      decide
    have hsource := ref_node (@get?_uf2Vars_source target source st uf2conv)
    rw [htail, subst_join _ (by decide), ← hsource]
    rfl
  have hargs := shellWords_args (.cons (.quoted hfile) .nil)
    (ref (uf2Vars uf2conv target source st) "UPLOADERFLAGS")
  rw [← hthird] at hargs
  rw [line_uf2]
  refine (hfirst.trans (congrArg (Option.map (python :: ·)) hsecond)).trans ?_
  rw [hargs, Option.map_map, Option.map_map]
  rfl

/-- What the flags of the upload stand for. -/
theorem ref_uf2Flags {uf2conv port : Str} (hport : st.vars.get? "UPLOAD_PORT" = some (.str port))
    (hplain : '$' ∉ port) : ref (uf2Vars uf2conv target source st) "UPLOADERFLAGS" =
      join " " ["-D".toList, "-d".toList, port] := by
  have hget : ((uf2Vars uf2conv target source st).erase "UPLOADERFLAGS").get? "UPLOAD_PORT" =
      some (.str port) := by
    rw [Dict.get?_erase_of_ne _ (by decide), get?_uf2Vars _ (by decide) (by decide), hport]
  have hvalue : subst ((uf2Vars uf2conv target source st).erase "UPLOADERFLAGS")
      "$UPLOAD_PORT" = port := subst_stored "UPLOAD_PORT" (by decide) hget hplain
  rw [ref_list (get?_uf2Vars_flags uf2conv), ← hvalue]
  rfl

/-- **When the UF2 upload gets the intended arguments**: the port, which is not quoted, is a word
without quotes; the interpreter, the tool and the file may have blanks. -/
theorem argvs_uploadUf2_iff {python uf2conv port : Str}
    (hpython : st.vars.get? "PYTHONEXE" = some (.str python)) (hpy : '$' ∉ python ∧ '"' ∉ python)
    (hconv : '$' ∉ uf2conv ∧ '"' ∉ uf2conv) (hfile : '"' ∉ source.str)
    (hport : st.vars.get? "UPLOAD_PORT" = some (.str port)) (hplain : '$' ∉ port) :
    argvs st (uploadUf2Adafruit spawn (some uf2conv) target source st).2 =
        [[python, uf2conv, source.str, "-D".toList, "-d".toList, port]] ↔
      Solid port ∧ '"' ∉ port := by
  have hline := @shellWords_uf2 target source st python uf2conv hpython hpy hconv hfile
    "Uploading $SOURCE"
  rw [ref_uf2Flags hport hplain] at hline
  have hflags : shellWords (join " " ["-D".toList, "-d".toList, port]) =
      some ["-D".toList, "-d".toList, port] ↔ Solid port ∧ '"' ∉ port := by
    have hopt : (Solid "-D".toList ∧ '"' ∉ "-D".toList) ∧
      (Solid "-d".toList ∧ '"' ∉ "-d".toList) := by decide
    refine (@shellWords_join_iff [] ["-D".toList, "-d".toList, port]).trans ?_
    rw [List.nil_append, List.forall_mem_cons, List.forall_mem_cons, List.forall_mem_singleton,
      and_iff_right hopt.1, and_iff_right hopt.2]
  have hruns : (uf2State uf2conv st).runs = st.runs := rfl
  rw [uploadUf2Adafruit, CommandAction.argvs_iff hruns (by simp), hline, ← hflags]
  cases shellWords (join " " ["-D".toList, "-d".toList, port]) <;> simp

theorem uf2_outcome (uf2conv : Option Str) :
    Outcome (fun run => run.On source ∧ ∃ path ∈ uf2conv, (Tool.script path true).Ran
      (st.vars.get? "PYTHONEXE") source.str run) st
      (!(uploadUf2Adafruit spawn uf2conv target source st).1.failed)
      (uploadUf2Adafruit spawn uf2conv target source st).2 := by
  cases uf2conv with
  | none => exact .notRun rfl
  | some uf2conv =>
      rw [uploadUf2Adafruit]
      refine (CommandAction.call_outcome ?_ fun argv hargv status =>
        ⟨rfl, uf2conv, rfl, ?_⟩).of_runs rfl
      · obtain ⟨rest, hline⟩ := line_quote uf2conv "Uploading $SOURCE"
        rw [hline]
        exact shellWords_ne_nil (c := '"') (by decide) List.mem_cons_self
      · intro python hpython hpaths
        simp only [List.forall_mem_cons] at hpaths
        rw [shellWords_uf2 hpython hpaths.1.1.plain hpaths.2.1.1.plain hpaths.2.2.1.1.plain.2]
          at hargv
        obtain ⟨flags, -, rfl⟩ := Option.map_eq_some_iff.mp hargv
        exact ⟨⟨source.str :: flags, rfl⟩, by simp⟩

end Commands

/-! ### The serial targets -/

/-- The reset step raises: it flushes or touches the selected port, which does not open. -/
def Serial.Raises (w : Serial) (vars : Vars) : Prop :=
  (∃ cur, w.Selects vidsPids vars cur) ∧
    (w.flushRaises (uploadPort vars) = true ∨ w.touchRaises (uploadPort vars) = true)

/-- **When the reset step stops a target.** -/
theorem reset_raised_iff {w : Serial} {vars : Vars} {fuel : ℕ} {run : ResetRun}
    (h : resetToBootloader vidsPids w fuel vars = some run) :
    run.result = .raised ∧ w.Raises vars ∨ run.result = .none ∧ ¬ w.Raises vars := by
  cases resets_of_run h with
  | absent hcur =>
      refine .inr ⟨rfl, ?_⟩
      rintro ⟨⟨cur, hsel⟩, -⟩
      rw [hsel.1] at hcur
      cases hcur
  | already hcur hin =>
      refine .inr ⟨rfl, ?_⟩
      rintro ⟨⟨cur, hsel⟩, -⟩
      obtain rfl := Option.some.inj (hsel.1.symm.trans hcur)
      rw [hsel.2] at hin
      cases hin
  | flushRaised hsel hf => exact .inl ⟨rfl, ⟨_, hsel⟩, .inl hf⟩
  | touchRaised hsel hf ht => exact .inl ⟨rfl, ⟨_, hsel⟩, .inr ht⟩
  | polled hsel hf ht he =>
      refine .inr ⟨rfl, ?_⟩
      rintro ⟨-, h | h⟩
      · rw [hf] at h
        cases h
      · rw [ht] at h
        cases h

/-- The port a tool was handed: the argument behind `-p` of a process, or the first argument of a
function. -/
def Run.port : Run → Option Str
  | .process p _ _ => (p.argv.dropWhile (· ≠ "-p".toList))[1]?
  | .python _ args _ => args[0]?

/-- What is expected of a target that has come to an end: its report is the truth about the tool,
nothing but that tool was run, and the tool of a serial target was handed the port that the reset
step left in `UPLOAD_PORT`. -/
def ReportsTruly (tools : Tools) (files : Files) (w : Serial) (fuel : ℕ) (t : Target) (st : State)
    (ok : Bool) (st' : State) : Prop :=
  Truthful (t.source files) st ok st' ∧
  (∀ run ∈ st'.runs.drop st.runs.length,
    t.Calls tools (t.source files) (st.vars.get? "PYTHONEXE") run) ∧
  (t.serial = true → ∀ reset, resetToBootloader vidsPids w fuel st.vars = some reset →
    ∀ run ∈ st'.runs.drop st.runs.length, Run.port run = some (uploadPort reset.vars))

section Reports

variable {tools : Tools} {files : Files} {w : Serial} {fuel : ℕ} {st st' : State} {ok : Bool}

/-- A serial target whose reset step ends goes on from what it leaves, unless it failed. -/
theorem runActions_of_reset {upload : State → Result × State} {reset : ResetRun}
    (hreset : resetToBootloader vidsPids w fuel st.vars = some reset) :
    runActions [resetAction w fuel, fun st => some (upload st)] st =
      if reset.result.failed then some (false, { st with vars := reset.vars })
      else some (!(upload { st with vars := reset.vars }).1.failed,
        (upload { st with vars := reset.vars }).2) := by
  have hact : resetAction w fuel st = some (reset.result, { st with vars := reset.vars }) := by
    rw [resetAction, hreset]
    rfl
  rw [runActions_cons hact, runActions_singleton rfl]

/-- What is reported of a serial target is what the reset step or the upload came to. -/
theorem runActions_reset {upload : State → Result × State} (hreport : runActions
    [resetAction w fuel, fun st => some (upload st)] st = some (ok, st')) :
    ∃ reset, resetToBootloader vidsPids w fuel st.vars = some reset ∧
      (reset.result = .raised ∧ w.Raises st.vars ∧ ok = false ∧ st'.runs = st.runs ∨
        reset.result = .none ∧ ¬ w.Raises st.vars ∧
          ok = !(upload { st with vars := reset.vars }).1.failed ∧
          st' = (upload { st with vars := reset.vars }).2) := by
  cases hreset : resetToBootloader vidsPids w fuel st.vars with
  | none => rw [runActions, resetAction, hreset] at hreport; cases hreport
  | some reset =>
      rw [runActions_of_reset hreset] at hreport
      refine ⟨reset, rfl, ?_⟩
      rcases reset_raised_iff hreset with ⟨hr, hw⟩ | ⟨hr, hw⟩
      · rw [hr, if_pos (by decide)] at hreport
        cases hreport
        exact .inl ⟨hr, hw, rfl, rfl⟩
      · rw [hr, if_neg (by decide)] at hreport
        cases hreport
        exact .inr ⟨hr, hw, rfl, rfl⟩

/-- **Every target comes to an end** on a clock that reaches the deadline: enough fuel gives its
report. -/
theorem runTarget_ends {name : String} {t : Target} (hname : Target.named name = some t)
    (hexp : w.Expires) : ∃ N ok st', ∀ fuel, N ≤ fuel →
      runTarget tools files w fuel name st = some (ok, st') := by
  obtain ⟨N, reset, hreset⟩ := reset_ends vidsPids st.vars hexp
  have hserial : ∀ upload : State → Result × State, ∃ ok st', ∀ fuel, N ≤ fuel →
      runActions [resetAction w fuel, fun st => some (upload st)] st = some (ok, st') := by
    intro upload
    cases hfailed : reset.result.failed with
    | true =>
        exact ⟨_, _, fun fuel hfuel => by
          rw [runActions_of_reset (hreset fuel hfuel), if_pos hfailed]⟩
    | false =>
        exact ⟨_, _, fun fuel hfuel => by
          rw [runActions_of_reset (hreset fuel hfuel), if_neg (by simp [hfailed])]⟩
  refine ⟨N, ?_⟩
  simp only [runTarget, hname]
  cases t with
  | flashPyocd | flashJlink | flashUf2 =>
      exact ⟨_, _, fun fuel _ => runActions_singleton rfl⟩
  | flashSerialAdafruit | flashSerialNordic => exact hserial _

theorem adafruit_result (toolDir : Option Str) (st : State) :
    (uploadSerialAdafruit toolDir st).1 = .none ∧
      (uploadSerialAdafruit toolDir st).2.runs = st.runs := by
  refine ⟨rfl, ?_⟩
  rw [uploadSerialAdafruit]
  split <;> rfl

theorem nordic_outcome (flash : List Str → Result) (source : Node) (st : State)
    (python : Option Value) :
    Outcome (fun run => run.On source ∧
      (Tool.function "flash_dfu_package").Ran python source.str run) st
      (!(uploadNordic flash source st).1.failed) (uploadNordic flash source st).2 := by
  refine .of_log rfl ⟨.inl (by simp), rfl, by simp⟩ ?_
  rw [uploadNordic]
  cases flash [st.subst "$UPLOAD_PORT", strOr (st.subst "$UPLOAD_SPEED") "115200", source.str]
  all_goals rfl

/-- The function is handed the port. -/
theorem nordic_runs (flash : List Str → Result) (source : Node) (st : State) : ∃ speed returned,
    (uploadNordic flash source st).2.runs = st.runs ++
      [.python "flash_dfu_package" [uploadPort st.vars, speed, source.str] returned] :=
  ⟨_, _, rfl⟩

/-- **What comes of a target** that calls its tool. -/
theorem actions_outcome {t : Target} (ht : t ≠ .flashSerialAdafruit) {target source : Node}
    (hreport : runActions (actions tools w fuel t target source) st = some (ok, st')) :
    Outcome (t.Calls tools source (st.vars.get? "PYTHONEXE")) st ok st' := by
  cases t with
  | flashPyocd | flashJlink =>
      rw [actions, runActions_singleton rfl] at hreport
      cases hreport
      exact (swd_outcome _ _ (by decide) _).mono fun run hrun => ⟨hrun.1, _, rfl, hrun.2⟩
  | flashUf2 =>
      rw [actions, runActions_singleton rfl] at hreport
      cases hreport
      refine (uf2_outcome _).mono fun run hrun => ⟨hrun.1, ?_⟩
      obtain ⟨path, hpath, hran⟩ := hrun.2
      exact ⟨_, Option.mem_map_of_mem _ hpath, hran⟩
  | flashSerialAdafruit => exact absurd rfl ht
  | flashSerialNordic =>
      rw [actions] at hreport
      obtain ⟨reset, -, ⟨-, -, rfl, hruns⟩ | ⟨-, -, rfl, rfl⟩⟩ := runActions_reset hreport
      · exact .notRun hruns
      · exact ((nordic_outcome _ _ _ _).mono fun run hrun => ⟨hrun.1, _, rfl, hrun.2⟩).of_runs rfl

/-- The port a serial target that calls its tool hands to it. -/
theorem port_of_report {t : Target} (ht : t ≠ .flashSerialAdafruit) (hserial : t.serial = true)
    {target source : Node}
    (hreport : runActions (actions tools w fuel t target source) st = some (ok, st'))
    {reset : ResetRun} (hreset : resetToBootloader vidsPids w fuel st.vars = some reset) :
    ∀ run ∈ st'.runs.drop st.runs.length, Run.port run = some (uploadPort reset.vars) := by
  cases t with
  | flashPyocd | flashJlink | flashUf2 => cases hserial
  | flashSerialAdafruit => exact absurd rfl ht
  | flashSerialNordic =>
      rw [actions] at hreport
      obtain ⟨reset', hreset', ⟨-, -, rfl, hruns⟩ | ⟨-, -, rfl, rfl⟩⟩ := runActions_reset hreport
      · simp [hruns]
      · obtain rfl := Option.some.inj (hreset.symm.trans hreset')
        obtain ⟨speed, returned, hruns⟩ := nordic_runs tools.flashDfuPackage source
          { st with vars := reset.vars }
        intro run hrun
        rw [hruns, List.drop_left, List.mem_singleton] at hrun
        rw [hrun]
        rfl

/-- **The report of a target is the truth** iff the target is not `flash_serial_adafruit`, which
reports a success and uploads nothing, or the reset step raises. -/
theorem reportsTruly_iff {name : String} {t : Target} (hname : Target.named name = some t)
    (hreport : runTarget tools files w fuel name st = some (ok, st')) :
    ReportsTruly tools files w fuel t st ok st' ↔ t ≠ .flashSerialAdafruit ∨ w.Raises st.vars := by
  rw [runTarget, hname] at hreport
  simp only at hreport
  by_cases ht : t = .flashSerialAdafruit
  case neg =>
      have hout := actions_outcome ht hreport
      refine iff_of_true ⟨hout.truthful fun run hrun => hrun.1, hout.called,
        fun hserial reset hreset => ?_⟩ (.inl ht)
      exact port_of_report ht hserial hreport hreset
  case pos =>
      subst ht
      rw [actions] at hreport
      obtain ⟨reset, -, ⟨-, hw, rfl, hruns⟩ | ⟨-, hw, rfl, rfl⟩⟩ := runActions_reset hreport
      · -- the reset step raised: a failure is reported, and nothing was run
        refine iff_of_true ⟨?_, fun run hrun => ?_, fun _ _ _ run hrun => ?_⟩ (.inr hw)
        · simp [Truthful, hruns]
        · simp [hruns] at hrun
        · simp [hruns] at hrun
      · -- the upload action returns nothing, which is a success, and runs nothing
        obtain ⟨hres, hruns⟩ := adafruit_result tools.adafruitNrfutilDir
          { st with vars := reset.vars }
        refine iff_of_false (fun h => ?_) (by simp [hw])
        rw [hres] at h
        exact not_truthful_true hruns h.1

end Reports

/-- Tools that all succeed. -/
def working : Tools where
  spawn _ := 0
  pathsep := ':'
  jlinkDir := none
  adafruitNrfutilDir := none
  getSdk := some ⟨0, "/sdk"⟩
  getUf2conv := some "/sdk/uf2conv.py"
  flashDfuPackage _ := .none

/-- The files of a project. -/
def merged : Files where
  targetHex := ⟨"merged.hex", "/b/merged.hex"⟩
  targetUf2 := ⟨"merged.uf2", "/b/merged.uf2"⟩
  targetDfuAdafruit := ⟨"merged_adafruit.zip", "/b/merged_adafruit.zip"⟩
  targetDfuNordic := ⟨"merged_nordic.zip", "/b/merged_nordic.zip"⟩

/-- A board in bootloader mode. -/
def ready : Serial where
  listing _ := [⟨"COM4", "USB VID:PID=239A:0029 SER=A1"⟩]
  clock _ := 0
  flushRaises _ := false
  touchRaises _ := false

/-- An environment that uploads through `COM4`. -/
def com4 : State := ⟨.ofList [("UPLOAD_PORT", .str "COM4")], [], []⟩

theorem reportsTruly_iff_nordic : ∃ ok st',
    runTarget working merged ready 0 "flash_serial_nordic" com4 = some (ok, st') ∧
      ReportsTruly working merged ready 0 .flashSerialNordic com4 ok st' := by
  obtain ⟨ok, st', hreport⟩ : ∃ ok st',
    runTarget working merged ready 0 "flash_serial_nordic" com4 = some (ok, st') := ⟨_, _, rfl⟩
  exact ⟨ok, st', hreport, (reportsTruly_iff rfl hreport).mpr (.inl (by decide))⟩

theorem not_reportsTruly : ∃ st',
    runTarget working merged ready 0 "upload" com4 = some (true, st') ∧
      ¬ ReportsTruly working merged ready 0 .flashSerialAdafruit com4 true st' :=
  ⟨_, rfl, fun h => not_truthful_true rfl h.1⟩

end Nrf52
