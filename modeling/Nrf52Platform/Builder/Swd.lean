import Mathlib.Logic.Function.Iterate
import Nrf52Platform.Scons.Actions

/-!
# Builder — Swd

`upload_swd` of `builder/main.py`: the command that runs `west flash`, and the environment it runs
in, a copy of the SDK's with the J-Link directory in front of two search paths.

* `heap_swdState`: what the upload does to the dictionary objects: it adds one.
* `deref_uploads`: so any number of uploads leaves the SDK's map alone.
* `launchesAsIntended_iff`: when the process gets the intended arguments and search paths.  A blank
  in the build directory is cut at, and a search path that is not set gets an empty entry.
-/

namespace Nrf52
open Py Scons Shell

/-- What `get_sdk` gives: the SDK's environment map, which is an object, and its path. -/
structure Sdk where
  env : ℕ
  sdkPath : Str
  deriving DecidableEq

/-- The text of a package directory in a format string. -/
def strDir (dir : Option Str) : Str := dir.getD "None"

/-- `f"{dir}{os.pathsep}{value}"`, with `''` for a variable that is not set. -/
def prependDir (pathsep : Char) (dir : Str) (value : Option Str) : Str :=
  dir ++ pathsep :: value.getD ""

/-- The upload command. -/
def swdCommand : Str := "$UPLOADER flash -r $WEST_RUNNER --build-dir $BUILD_DIR -- $UPLOADERFLAGS"

/-- The state when `upload_action` calls its command. -/
def swdState (pathsep : Char) (jlinkDir : Option Str) (sdk : Sdk) (runner : Str) (st : State) :
    State :=
  let (westEnv, st) := st.copy sdk.env
  let st := st.setItem westEnv "PATH"
    (prependDir pathsep (strDir jlinkDir) ((st.deref westEnv).get? "PATH"))
  let st := st.setItem westEnv "LD_LIBRARY_PATH"
    (prependDir pathsep (strDir jlinkDir) ((st.deref westEnv).get? "LD_LIBRARY_PATH"))
  (((st.replace "UPLOADER" (.str "west")).replace "WEST_RUNNER" (.str runner)).replace "UPLOADCMD"
    (.str swdCommand)).replace "ENV" (.dict westEnv)

/-- The `upload_action` of `upload_swd(runner)`; `jlinkDir` is what `get_package_dir` gives, and
`sdk` what `get_sdk` gives, none when it raises. -/
def uploadSwd (spawn : Process → ℕ) (pathsep : Char) (jlinkDir : Option Str) (sdk : Option Sdk)
    (runner : Str) (target source : Node) (st : State) : Result × State :=
  match sdk with
  | none => (.raised, st)
  | some sdk =>
      let cmd : CommandAction := {
        cmd := "$UPLOADCMD"
        strfunction := "Uploading $SOURCE"
        chdir := some sdk.sdkPath }
      cmd.call spawn target source (swdState pathsep jlinkDir sdk runner st)

/-! ### The environment of the process -/

section Environment

variable (pathsep : Char) (jlinkDir : Option Str) (sdk : Sdk) (runner : Str) (st : State)

/-- The environment the upload builds from the SDK's. -/
def westEnv (env : Dict Str Str) : Dict Str Str :=
  (env.set "PATH" (prependDir pathsep (strDir jlinkDir) (env.get? "PATH"))).set "LD_LIBRARY_PATH"
    (prependDir pathsep (strDir jlinkDir) (env.get? "LD_LIBRARY_PATH"))

/-- The environment differs from the SDK's in the two search paths. -/
theorem get?_westEnv_of_notMem (env : Dict Str Str) {x : Str}
    (hx : x ∉ ["PATH".toList, "LD_LIBRARY_PATH".toList]) :
    (westEnv pathsep jlinkDir env).get? x = env.get? x := by
  rw [List.mem_pair, not_or] at hx
  rw [westEnv, Dict.get?_set_of_ne _ _ hx.2, Dict.get?_set_of_ne _ _ hx.1]

theorem get?_westEnv_of_mem (env : Dict Str Str) {x : Str}
    (hx : x ∈ ["PATH".toList, "LD_LIBRARY_PATH".toList]) : (westEnv pathsep jlinkDir env).get? x =
      some (prependDir pathsep (strDir jlinkDir) (env.get? x)) := by
  rcases List.mem_pair.mp hx with rfl | rfl
  · rw [westEnv, Dict.get?_set_of_ne _ _ (by decide), Dict.get?_set_self]
  · rw [westEnv, Dict.get?_set_self]

/-- Copying an object and assigning to two keys of the copy adds one object. -/
theorem heap_copy_assign (st : State) (r : ℕ) {x y : Str} (hne : y ≠ x) (f : Option Str → Str) :
    let st₁ := (st.copy r).2
    let st₂ := st₁.setItem (st.copy r).1 x (f ((st₁.deref (st.copy r).1).get? x))
    (st₂.setItem (st.copy r).1 y (f ((st₂.deref (st.copy r).1).get? y))).heap =
      st.heap ++
        [((st.deref r).set x (f ((st.deref r).get? x))).set y (f ((st.deref r).get? y))] := by
  simp [State.copy, State.setItem, State.deref, Dict.get?_set_of_ne _ _ hne]

/-- **The upload adds one dictionary object**, and changes none. -/
theorem heap_swdState : (swdState pathsep jlinkDir sdk runner st).heap =
    st.heap ++ [westEnv pathsep jlinkDir (st.deref sdk.env)] :=
  heap_copy_assign st sdk.env (by decide) (prependDir pathsep (strDir jlinkDir))

theorem environ_swdState : (swdState pathsep jlinkDir sdk runner st).environ =
    westEnv pathsep jlinkDir (st.deref sdk.env) := by
  have henv : (swdState pathsep jlinkDir sdk runner st).vars.get? "ENV" =
      some (.dict st.heap.length) := Dict.get?_set_self _ _ _
  rw [State.environ, henv]
  simp [State.deref, heap_swdState]

theorem runs_swdState : (swdState pathsep jlinkDir sdk runner st).runs = st.runs := rfl

end Environment

/-! ### The arguments of the process -/

section Arguments

variable {pathsep : Char} {jlinkDir : Option Str} {sdk : Sdk} {runner : Str} {st : State}
  {target source : Node}

/-- The variables the upload command is substituted with, itself hidden. -/
def swdVars (pathsep : Char) (jlinkDir : Option Str) (sdk : Sdk) (runner : Str)
    (target source : Node) (st : State) : Vars :=
  (cmdVars (swdState pathsep jlinkDir sdk runner st).vars target source).erase "UPLOADCMD"

theorem swdVars_eq : swdVars pathsep jlinkDir sdk runner target source st =
    Dict.erase (cmdVars ((((st.vars.set "UPLOADER" (.str "west")).set "WEST_RUNNER"
      (.str runner)).set "UPLOADCMD" (.str swdCommand)).set "ENV" (.dict st.heap.length)) target
      source) "UPLOADCMD" := rfl

/-- The variables that the upload does not set are those of the environment. -/
theorem get?_swdVars {x : Str} (hfile : x ∉ fileNames)
    (hx : x ∉ ["UPLOADER".toList, "WEST_RUNNER".toList, "UPLOADCMD".toList, "ENV".toList]) :
    (swdVars pathsep jlinkDir sdk runner target source st).get? x = st.vars.get? x := by
  simp only [List.mem_cons, List.not_mem_nil, or_false, not_or] at hx
  obtain ⟨huploader, hrunner, hcmd, henv⟩ := hx
  rw [swdVars_eq, Dict.get?_erase_of_ne _ hcmd, get?_cmdVars _ _ _ hfile,
    Dict.get?_set_of_ne _ _ henv, Dict.get?_set_of_ne _ _ hcmd, Dict.get?_set_of_ne _ _ hrunner,
    Dict.get?_set_of_ne _ _ huploader]

theorem get?_swdVars_uploader :
    (swdVars pathsep jlinkDir sdk runner target source st).get? "UPLOADER" =
      some (.str "west") := by
  rw [swdVars_eq, Dict.get?_erase_of_ne _ (by decide), get?_cmdVars _ _ _ (by decide),
    Dict.get?_set_of_ne _ _ (by decide), Dict.get?_set_of_ne _ _ (by decide),
    Dict.get?_set_of_ne _ _ (by decide), Dict.get?_set_self]

theorem get?_swdVars_runner :
    (swdVars pathsep jlinkDir sdk runner target source st).get? "WEST_RUNNER" =
      some (.str runner) := by
  rw [swdVars_eq, Dict.get?_erase_of_ne _ (by decide), get?_cmdVars _ _ _ (by decide),
    Dict.get?_set_of_ne _ _ (by decide), Dict.get?_set_of_ne _ _ (by decide), Dict.get?_set_self]

/-- The line is the command, substituted. -/
theorem line_eq_subst (strfunction : Str) (chdir : Option Str) :
    CommandAction.line ⟨"$UPLOADCMD", strfunction, chdir⟩ target source
        (swdState pathsep jlinkDir sdk runner st) =
      subst (swdVars pathsep jlinkDir sdk runner target source st) swdCommand := by
  have hget : (swdState pathsep jlinkDir sdk runner st).vars.get? "UPLOADCMD" =
      some (.str swdCommand) :=
    (Dict.get?_set_of_ne _ _ (by decide)).trans (Dict.get?_set_self _ _ _)
  exact CommandAction.line_stored "UPLOADCMD" (by decide) (by decide) hget strfunction chdir

/-- What the build directory stands for in the upload command. -/
def swdBuildDir (pathsep : Char) (jlinkDir : Option Str) (sdk : Sdk) (runner : Str)
    (target source : Node) (st : State) : Str :=
  subst (swdVars pathsep jlinkDir sdk runner target source st) "$BUILD_DIR"

/-- What a list of flags stands for in the upload command. -/
def swdFlags (pathsep : Char) (jlinkDir : Option Str) (sdk : Sdk) (runner : Str)
    (target source : Node) (st : State) (raw : List Str) : List Str :=
  raw.map (subst ((swdVars pathsep jlinkDir sdk runner target source st).erase "UPLOADERFLAGS"))

/-- A stored build directory without a dollar sign stands for itself. -/
theorem swdBuildDir_eq {buildDir : Str} (hbuild : st.vars.get? "BUILD_DIR" = some (.str buildDir))
    (hplain : '$' ∉ buildDir) :
    swdBuildDir pathsep jlinkDir sdk runner target source st = buildDir :=
  subst_stored "BUILD_DIR" (by decide) ((get?_swdVars (by decide) (by decide)).trans hbuild) hplain

/-- **The line joins the arguments with spaces.** -/
theorem line_swd (hrunner : runner ∈ ["pyocd".toList, "jlink".toList]) (strfunction : Str)
    (chdir : Option Str) : CommandAction.line ⟨"$UPLOADCMD", strfunction, chdir⟩ target source
        (swdState pathsep jlinkDir sdk runner st) =
      join " " ["west", "flash", "-r", runner, "--build-dir",
        swdBuildDir pathsep jlinkDir sdk runner target source st, "--",
        ref (swdVars pathsep jlinkDir sdk runner target source st) "UPLOADERFLAGS"] := by
  have hplain : '$' ∉ runner := by rcases List.mem_pair.mp hrunner with rfl | rfl <;> decide
  have hcommand : swdCommand = join " " ["$UPLOADER", "flash", "-r", "$WEST_RUNNER", "--build-dir",
      "$BUILD_DIR", "--", "$UPLOADERFLAGS"] := by decide
  have hwest := ref_str (@get?_swdVars_uploader pathsep jlinkDir sdk runner st target source)
    (by decide)
  have hrun := ref_str (@get?_swdVars_runner pathsep jlinkDir sdk runner st target source) hplain
  rw [line_eq_subst, hcommand, subst_join _ (by decide), swdBuildDir]
  generalize swdVars pathsep jlinkDir sdk runner target source st = vars at *
  have hdir : subst vars "$BUILD_DIR" = ref vars "BUILD_DIR" :=
    subst_ref vars "BUILD_DIR" (by decide)
  have hmap : ["$UPLOADER".toList, "flash".toList, "-r".toList, "$WEST_RUNNER".toList,
      "--build-dir".toList, "$BUILD_DIR".toList, "--".toList, "$UPLOADERFLAGS".toList].map
        (partText vars) = ["west".toList, "flash".toList, "-r".toList, runner,
      "--build-dir".toList, ref vars "BUILD_DIR", "--".toList, ref vars "UPLOADERFLAGS"] := by
    rw [← hrun, ← hwest]
    rfl
  rw [hmap, hdir]

/-- The flags in the upload command: those of a list, and none when there is no variable. -/
theorem ref_swdFlags {raw : List Str}
    (hflags : (st.vars.get? "UPLOADERFLAGS").getD (.list []) = .list raw) :
    ref (swdVars pathsep jlinkDir sdk runner target source st) "UPLOADERFLAGS" =
      join " " (swdFlags pathsep jlinkDir sdk runner target source st raw) := by
  have hget := @get?_swdVars pathsep jlinkDir sdk runner st target source "UPLOADERFLAGS".toList
    (by decide) (by decide)
  cases hvar : st.vars.get? "UPLOADERFLAGS" with
  | none =>
      rw [hvar] at hflags hget
      obtain rfl : [] = raw := Value.list.inj hflags
      rw [ref, Piece.text, hget]
      rfl
  | some v =>
      rw [hvar] at hflags hget
      obtain rfl : v = .list raw := hflags
      exact ref_list hget

/-- The words that every line starts with. -/
def westWords (runner : Str) : List Str := ["west", "flash", "-r", runner]

theorem solid_westWords (hrunner : runner ∈ ["pyocd".toList, "jlink".toList]) :
    ∀ w ∈ westWords runner, Solid w ∧ '"' ∉ w := by
  rcases List.mem_pair.mp hrunner with rfl | rfl <;> decide

/-- **Whatever the environment**, the process gets the tool's name and the runner first. -/
theorem shellWords_west (hrunner : runner ∈ ["pyocd".toList, "jlink".toList]) (strfunction : Str)
    (chdir : Option Str) : ∃ rest, shellWords (CommandAction.line ⟨"$UPLOADCMD", strfunction, chdir⟩
      target source (swdState pathsep jlinkDir sdk runner st)) =
        (shellWords rest).map (westWords runner ++ ·) := by
  have hargs : List.Forall₂ Arg (westWords runner) (westWords runner) :=
    List.forall₂_same.mpr fun w hw => .plain (solid_westWords hrunner w hw).1
      (solid_westWords hrunner w hw).2
  rw [line_swd hrunner]
  exact ⟨_, shellWords_args hargs (join " " ["--build-dir", _, "--", _])⟩

/-- **The line is cut into the intended arguments** iff the build directory and the flags are words
without quotes. -/
theorem shellWords_swd_iff (hrunner : runner ∈ ["pyocd".toList, "jlink".toList]) {buildDir : Str}
    {flags : List Str} :
    shellWords (join " " ["west", "flash", "-r", runner, "--build-dir", buildDir, "--",
        join " " flags]) = some (["west".toList, "flash".toList, "-r".toList, runner,
          "--build-dir".toList, buildDir, "--".toList] ++ flags) ↔
      ∀ w ∈ buildDir :: flags, Solid w ∧ '"' ∉ w := by
  have hfixed : ∀ w ∈ westWords runner ++ ["--build-dir".toList, "--".toList],
      Solid w ∧ '"' ∉ w := by
    have hopt : ∀ w ∈ ["--build-dir".toList, "--".toList], Solid w ∧ '"' ∉ w := by decide
    exact List.forall_mem_append.mpr ⟨solid_westWords hrunner, hopt⟩
  refine (@shellWords_join_iff ["west", "flash", "-r", runner, "--build-dir", buildDir, "--"]
    flags).trans ⟨fun h w hw => h w ?_, fun h w hw => ?_⟩
  · rcases List.mem_cons.mp hw with rfl | hw
    · simp
    · exact List.mem_append_right _ hw
  · have hw' : w ∈ westWords runner ++ ["--build-dir".toList, "--".toList] ∨
        w ∈ buildDir :: flags := by
      simp only [westWords, List.mem_append, List.mem_cons, List.not_mem_nil, or_false] at hw ⊢
      tauto
    exact hw'.elim (hfixed w) (h w)

end Arguments

/-! ### The intended process -/

/-- The directories of a search path; a path that is not set has none. -/
def searchPath (pathsep : Char) : Option Str → List Str
  | none => []
  | some value => value.splitOn pathsep

/-- What is expected of an upload: one process, with the intended arguments, whose search paths are
those of the SDK with the J-Link directory in front and whose environment is otherwise the SDK's;
and any number of uploads leaves the SDK's map alone. -/
def LaunchesAsIntended (spawn : Process → ℕ) (pathsep : Char) (jlinkDir : Str) (sdk : Sdk)
    (runner buildDir : Str) (flags : List Str) (target source : Node) (st : State) : Prop :=
  ∃ p status,
    (uploadSwd spawn pathsep (some jlinkDir) (some sdk) runner target source st).2.runs =
      st.runs ++ [.process p source status] ∧
    p.argv = ["west".toList, "flash".toList, "-r".toList, runner, "--build-dir".toList, buildDir,
      "--".toList] ++ flags ∧
    (∀ x ∈ ["PATH".toList, "LD_LIBRARY_PATH".toList], searchPath pathsep (p.env.get? x) =
      jlinkDir :: searchPath pathsep ((st.deref sdk.env).get? x)) ∧
    (∀ x ∉ ["PATH".toList, "LD_LIBRARY_PATH".toList],
      p.env.get? x = (st.deref sdk.env).get? x) ∧
    ∀ n, ((fun st => (uploadSwd spawn pathsep (some jlinkDir) (some sdk) runner target source
      st).2)^[n] st).deref sdk.env = st.deref sdk.env

section Intended

variable {spawn : Process → ℕ} {pathsep : Char} {jlinkDir : Str} {sdk : Sdk}
  {runner buildDir : Str} {raw : List Str} {target source : Node} {st : State}

/-- A directory in front of a search path: the list gets it in front iff the path is set. -/
theorem searchPath_prependDir (hjlink : pathsep ∉ jlinkDir) (value : Option Str) :
    searchPath pathsep (some (prependDir pathsep jlinkDir value)) =
        jlinkDir :: searchPath pathsep value ↔ value.isSome := by
  have hsplit : ∀ v : Str, (jlinkDir ++ pathsep :: v).splitOn pathsep =
      jlinkDir :: v.splitOn pathsep := by
    intro v
    have hdir : jlinkDir.splitOnP (· == pathsep) = [jlinkDir] :=
      List.splitOnP_eq_singleton fun c hc => by
        simpa using fun h : c = pathsep => hjlink (h ▸ hc)
    rw [List.splitOn, List.splitOnP_append_cons _ _ (by simp), hdir]
    rfl
  cases value with
  | none => simp [searchPath, prependDir, hsplit]
  | some v => simp [searchPath, prependDir, hsplit]

theorem searchPath_westEnv (hjlink : pathsep ∉ jlinkDir) (env : Dict Str Str) {x : Str}
    (hx : x ∈ ["PATH".toList, "LD_LIBRARY_PATH".toList]) :
    searchPath pathsep ((westEnv pathsep (some jlinkDir) env).get? x) =
        jlinkDir :: searchPath pathsep (env.get? x) ↔ (env.get? x).isSome := by
  rw [get?_westEnv_of_mem _ _ _ hx]
  exact searchPath_prependDir hjlink _

/-- An upload adds to the dictionary objects, and changes none that there are. -/
theorem heap_uploadSwd (sdk : Option Sdk) (jlinkDir : Option Str) : ∃ added,
    (uploadSwd spawn pathsep jlinkDir sdk runner target source st).2.heap = st.heap ++ added := by
  cases sdk with
  | none => exact ⟨[], by rw [uploadSwd, List.append_nil]⟩
  | some sdk =>
      have hstate := heap_swdState pathsep jlinkDir sdk runner st
      rcases CommandAction.call_cases spawn ⟨"$UPLOADCMD", "Uploading $SOURCE", some sdk.sdkPath⟩
        target source (swdState pathsep jlinkDir sdk runner st) with h | ⟨-, h⟩ | ⟨p, h⟩
      all_goals exact ⟨_, by rw [uploadSwd, h]; exact hstate⟩

/-- **Uploads do not accumulate entries**: the dictionary objects there were stay as they were. -/
theorem deref_uploads (sdk : Option Sdk) (jlinkDir : Option Str) {r : ℕ} (n : ℕ) :
    ∀ {st : State}, r < st.heap.length →
      ((fun st => (uploadSwd spawn pathsep jlinkDir sdk runner target source st).2)^[n]
        st).deref r = st.deref r := by
  induction n with
  | zero => exact fun _ => rfl
  | succ n ih =>
      intro st hr
      obtain ⟨added, hadded⟩ := @heap_uploadSwd spawn pathsep runner target source st sdk jlinkDir
      rw [Function.iterate_succ_apply, ih (by simp only [hadded, List.length_append]; omega),
        State.deref, hadded, List.getElem?_append_left hr, State.deref]

/-- The process an upload starts, if its line can be read. -/
theorem uploadSwd_runs_iff {jlinkDir : Option Str} {p : Process} {status : ℕ} {line : Str}
    (hline : ∀ strfunction chdir, CommandAction.line ⟨"$UPLOADCMD", strfunction, chdir⟩ target
      source (swdState pathsep jlinkDir sdk runner st) = line) :
    (uploadSwd spawn pathsep jlinkDir (some sdk) runner target source st).2.runs =
        st.runs ++ [.process p source status] ↔
      ∃ argv, argv ≠ [] ∧ shellWords line = some argv ∧
        p = ⟨argv, westEnv pathsep jlinkDir (st.deref sdk.env), some sdk.sdkPath⟩ ∧
        status = spawn p := by
  have hcall := hline "Uploading $SOURCE" (some sdk.sdkPath)
  rw [uploadSwd]
  cases hwords : shellWords line with
  | none =>
      rw [CommandAction.call, hcall, hwords]
      simp [runs_swdState]
  | some argv =>
      by_cases hne : argv = []
      · subst hne
        rw [CommandAction.call, hcall, hwords]
        simp [runs_swdState]
      · rw [CommandAction.call_eq (hcall ▸ hwords) hne, State.log_runs, runs_swdState,
          environ_swdState]
        simp only [List.append_cancel_left_eq, List.cons.injEq, Run.process.injEq, and_true,
          true_and, Option.some_inj]
        refine ⟨?_, ?_⟩
        · rintro ⟨rfl, rfl⟩
          exact ⟨argv, hne, rfl, rfl, rfl⟩
        · rintro ⟨argv', -, rfl, rfl, rfl⟩
          exact ⟨rfl, rfl⟩

/-- **When an upload launches west as intended**: both search paths are set in the SDK's
environment, and the build directory and the flags are words without quotes. -/
theorem launchesAsIntended_iff (hrunner : runner ∈ ["pyocd".toList, "jlink".toList])
    (hjlink : pathsep ∉ jlinkDir) (hsdk : sdk.env < st.heap.length)
    (hbuild : swdBuildDir pathsep (some jlinkDir) sdk runner target source st = buildDir)
    (hflags : (st.vars.get? "UPLOADERFLAGS").getD (.list []) = .list raw) {flags : List Str}
    (hexpand : swdFlags pathsep (some jlinkDir) sdk runner target source st raw = flags) :
    LaunchesAsIntended spawn pathsep jlinkDir sdk runner buildDir flags target source st ↔
      (∀ x ∈ ["PATH".toList, "LD_LIBRARY_PATH".toList],
        ((st.deref sdk.env).get? x).isSome) ∧
      ∀ w ∈ buildDir :: flags, Solid w ∧ '"' ∉ w := by
  have hline := @line_swd pathsep (some jlinkDir) sdk runner st target source hrunner
  rw [hbuild, ref_swdFlags hflags, hexpand] at hline
  have hargs := @shellWords_swd_iff runner hrunner buildDir flags
  refine ⟨?_, ?_⟩
  · rintro ⟨p, status, hruns, hargv, hpaths, -, -⟩
    -- the process is the one the line is cut into, so its arguments are known
    obtain ⟨argv, -, hwords, rfl, -⟩ := (uploadSwd_runs_iff hline).mp hruns
    obtain rfl : argv = _ := hargv
    exact ⟨fun x hx => (searchPath_westEnv hjlink _ hx).mp (hpaths x hx), hargs.mp hwords⟩
  · rintro ⟨hset, hsolid⟩
    exact ⟨_, _, (uploadSwd_runs_iff hline).mpr ⟨_, by simp, hargs.mpr hsolid, rfl, rfl⟩, rfl,
      fun x hx => (searchPath_westEnv hjlink _ hx).mpr (hset x hx),
      fun x hx => get?_westEnv_of_notMem _ _ _ hx, fun n => deref_uploads _ _ n hsdk⟩

end Intended

/-- A project in the given build directory, with an SDK of the given environment map. -/
def project (buildDir : Str) (env : List (Str × Str)) : State :=
  ⟨.ofList [("BUILD_DIR", .str buildDir), ("UPLOADERFLAGS", .list ["--erase".toList])],
    [.ofList env], []⟩

theorem launchesAsIntended_iff_sdk :
    LaunchesAsIntended (fun _ => 0) ':' "/jlink" ⟨0, "/sdk"⟩ "jlink" "/b" ["--erase".toList]
      ⟨"flash", "/flash"⟩ ⟨"merged.hex", "/b/merged.hex"⟩
      (project "/b" [("PATH", "/usr/bin:/bin"), ("LD_LIBRARY_PATH", "")]) :=
  (launchesAsIntended_iff (by decide) (by decide) (by decide) (by decide) rfl
    (by decide)).mpr (by decide)

/-- A search path that is not set gets an empty entry, and a build directory is cut. -/
theorem not_launchesAsIntended :
    ¬ LaunchesAsIntended (fun _ => 0) ':' "/jlink" ⟨0, "/sdk"⟩ "jlink" "/b" ["--erase".toList]
        ⟨"flash", "/flash"⟩ ⟨"merged.hex", "/b/merged.hex"⟩
        (project "/b" [("PATH", "/usr/bin:/bin")]) ∧
      ¬ LaunchesAsIntended (fun _ => 0) ':' "/jlink" ⟨0, "/sdk"⟩ "jlink" "/my b"
        ["--erase".toList] ⟨"flash", "/flash"⟩ ⟨"merged.hex", "/b/merged.hex"⟩
        (project "/my b" [("PATH", "/usr/bin:/bin"), ("LD_LIBRARY_PATH", "")]) := by
  have hrun : ∀ (b : Str) (env : List (Str × Str)) (q : Process), (uploadSwd (fun _ => 0) ':'
      (some "/jlink") (some ⟨0, "/sdk"⟩) "jlink" ⟨"flash", "/flash"⟩
      ⟨"merged.hex", "/b/merged.hex"⟩ (project b env)).2.runs =
        [.process q ⟨"merged.hex", "/b/merged.hex"⟩ 0] →
      ∀ {p : Process} {status : ℕ}, (uploadSwd (fun _ => 0) ':' (some "/jlink")
        (some ⟨0, "/sdk"⟩) "jlink" ⟨"flash", "/flash"⟩ ⟨"merged.hex", "/b/merged.hex"⟩
        (project b env)).2.runs =
        (project b env).runs ++ [.process p ⟨"merged.hex", "/b/merged.hex"⟩ status] → p = q := by
    intro b env q hq p status hp
    rw [hq] at hp
    have hpq : q = p ∧ 0 = status := by simpa [project] using hp
    exact hpq.1.symm
  refine ⟨?_, ?_⟩
  · rintro ⟨p, status, hruns, -, hpaths, -⟩
    obtain rfl := hrun _ _ ⟨["west", "flash", "-r", "jlink", "--build-dir", "/b", "--", "--erase"],
      .ofList [("PATH", "/jlink:/usr/bin:/bin"), ("LD_LIBRARY_PATH", "/jlink:")], some "/sdk"⟩
      (by decide) hruns
    exact absurd (hpaths "LD_LIBRARY_PATH" (by decide)) (by decide)
  · rintro ⟨p, status, hruns, hargv, -⟩
    obtain rfl := hrun _ _ ⟨["west", "flash", "-r", "jlink", "--build-dir", "/my", "b", "--",
      "--erase"], .ofList [("PATH", "/jlink:/usr/bin:/bin"), ("LD_LIBRARY_PATH", "/jlink:")],
      some "/sdk"⟩ (by decide) hruns
    exact absurd hargv (by decide)

end Nrf52
