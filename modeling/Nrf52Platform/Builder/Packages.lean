import Nrf52Platform.Builder.Targets
import Nrf52Platform.Builder.Uf2
import Nrf52Platform.Scons.Sequences

/-!
# Builder — Packages

The builders of the files that the flashing targets depend on, and the flashing of a file that has
to be built first.

* `shellWords_package`: the packager gets the paths as they are.  Its command quotes the interpreter
  and the tool, which may have blanks, as the command of `build_uf2` does not.
* `build_outcome`: what comes of each builder, which it reports truly.
* `argvs_deployUf2_iff`: when `flash_uf2` gets the hex file to the drive, by a converter and an
  upload that are both run as intended.
* `argvs_deployAdafruit`: `flash_serial_adafruit` runs the packager as intended, and nothing else.
-/

namespace Nrf52
open Py Scons Shell

/-! ### The builders -/

/-- The action of `PackageDfuAdafruit`; `toolDir` is what `get_package_dir` gives. -/
def packageDfuAdafruit (toolDir : Option Str) : CommandAction where
  cmd := join " " ["\"$PYTHONEXE\"",
    '"' :: (pathJoin (toolDir.getD []) ["adafruit-nrfutil.py"] ++ ['"']), "dfu", "genpkg",
    "--dev-type", "0x0052", "--application", "$SOURCES", "$TARGET"]
  strfunction := "Building $TARGET"
  chdir := none

/-- The action of `PackageDfuNordic`, which hands back what `create_dfu_package` does; `create`
gives that, called with these arguments. -/
def packageDfuNordic (create : List Str → Result) (target source : Node) (st : State) :
    Result × State :=
  let args := [source.abspath, target.abspath]
  (create args, st.log (.python "create_dfu_package" args (!(create args).failed)))

/-- The builders. -/
inductive Package where
  | uf2
  | dfuAdafruit
  | dfuNordic
  deriving DecidableEq

/-- What the builders call besides the tools of the targets. -/
structure Packagers where
  files : Str → Option Str
  createDfuPackage : List Str → Result

/-- Builds `target` from `source`. -/
def Package.build (tools : Tools) (packagers : Packagers) (pkg : Package) (target source : Node)
    (st : State) : Result × State :=
  match pkg with
  | uf2 => buildUf2 tools.spawn packagers.files tools.getUf2conv target source st
  | dfuAdafruit => (packageDfuAdafruit tools.adafruitNrfutilDir).call tools.spawn target source st
  | dfuNordic => packageDfuNordic packagers.createDfuPackage target source st

/-- The tool of a builder, if the SDK has it.  The command of `build_uf2` does not quote. -/
def Package.tool (tools : Tools) : Package → Option Tool
  | uf2 => tools.getUf2conv.map (.script · false)
  | dfuAdafruit =>
      some (.script (pathJoin (tools.adafruitNrfutilDir.getD []) ["adafruit-nrfutil.py"]) true)
  | dfuNordic => some (.function "create_dfu_package")

/-- How the command of a builder names the file that it builds from. -/
def Package.file (source : Node) : Package → Str
  | uf2 | dfuNordic => source.abspath
  | dfuAdafruit => source.str

/-- The run is the one that is meant when the builder is called with `source`. -/
def Package.Calls (tools : Tools) (pkg : Package) (source : Node) (python : Option Value)
    (run : Run) : Prop :=
  run.On source ∧ ∃ tool ∈ pkg.tool tools, tool.Ran python (pkg.file source) run

/-! ### The arguments of the packager -/

section Arguments

variable {spawn : Process → ℕ} {toolDir : Option Str} {target source : Node} {st : State}

/-- Whatever the environment, the line starts with a quote. -/
theorem line_package : ∃ rest, (packageDfuAdafruit toolDir).line target source st = '"' :: rest :=
  ⟨_, subst_append_plain _ (a := ['"']) (by decide) _⟩

/-- The arguments of the packager, but for the file that is built. -/
def packagerWords (python tool : Str) (source : Node) : List Str :=
  [python, tool, "dfu", "genpkg", "--dev-type", "0x0052", "--application", source.str]

/-- **Quoted paths come back whole**, and so does the source, which is quoted as a file. -/
theorem shellWords_package {python tool : Str}
    (hpython : st.vars.get? "PYTHONEXE" = some (.str python)) (hpy : '$' ∉ python ∧ '"' ∉ python)
    (htool : pathJoin (toolDir.getD []) ["adafruit-nrfutil.py"] = tool)
    (hplain : '$' ∉ tool ∧ '"' ∉ tool) (hfile : '"' ∉ source.str) :
    shellWords ((packageDfuAdafruit toolDir).line target source st) =
      (shellWords ('"' :: (target.str ++ ['"']))).map (packagerWords python tool source ++ ·) := by
  have hopt : ∀ w ∈ ["dfu".toList, "genpkg".toList, "--dev-type".toList, "0x0052".toList,
      "--application".toList], Solid w ∧ '"' ∉ w := by decide
  -- behind the two quoted paths stand the options and the files
  have htail : subst (cmdVars st.vars target source) (join " " ["dfu", "genpkg", "--dev-type",
      "0x0052", "--application", "$SOURCES", "$TARGET"]) = join " " (["dfu".toList,
        "genpkg".toList, "--dev-type".toList, "0x0052".toList, "--application".toList,
        '"' :: (source.str ++ ['"'])] ++ ['"' :: (target.str ++ ['"'])]) := by
    have hsource := ref_node (get?_cmdVars_sources st.vars target source)
    have htarget := ref_node (get?_cmdVars_target st.vars target source)
    rw [subst_join _ (by decide), ← hsource, ← htarget]
    rfl
  have hargs : List.Forall₂ Arg ["dfu".toList, "genpkg".toList, "--dev-type".toList,
      "0x0052".toList, "--application".toList, '"' :: (source.str ++ ['"'])] ["dfu".toList,
        "genpkg".toList, "--dev-type".toList, "0x0052".toList, "--application".toList,
        source.str] := by
    have hplain : List.Forall₂ Arg ["dfu".toList, "genpkg".toList, "--dev-type".toList,
        "0x0052".toList, "--application".toList] _ :=
      List.forall₂_same.mpr fun w hw => .plain (hopt w hw).1 (hopt w hw).2
    exact List.rel_append hplain (.cons (Arg.quoted hfile) .nil)
  have hget : (cmdVars st.vars target source).get? "PYTHONEXE" = some (.str python) := by
    rw [get?_cmdVars _ _ _ (by decide), hpython]
  have hfirst := shellWords_reference (c := 'P') (x := "YTHONEXE".toList) (by decide) (by decide)
    hget hpy ('"' :: (tool ++ '"' :: ' ' :: join " " ["dfu", "genpkg", "--dev-type", "0x0052",
      "--application", "$SOURCES", "$TARGET"]))
  have hcmd : (packageDfuAdafruit toolDir).cmd = '"' :: '$' :: 'P' :: ("YTHONEXE".toList ++ '"' ::
      ' ' :: '"' :: (tool ++ '"' :: ' ' :: join " " ["dfu", "genpkg", "--dev-type", "0x0052",
        "--application", "$SOURCES", "$TARGET"])) := by
    rw [packageDfuAdafruit, htool]
    simp
  rw [← hcmd, shellWords_text _ hplain, htail, shellWords_args hargs, Option.map_map,
    Option.map_map] at hfirst
  exact hfirst

/-- The process of the packager, whatever blanks the four paths have, and what it comes to. -/
theorem packageDfuAdafruit_eq {python tool : Str}
    (hpython : st.vars.get? "PYTHONEXE" = some (.str python)) (hpy : '$' ∉ python ∧ '"' ∉ python)
    (htool : pathJoin (toolDir.getD []) ["adafruit-nrfutil.py"] = tool)
    (hplain : '$' ∉ tool ∧ '"' ∉ tool) (hfiles : ∀ p ∈ [source.str, target.str], '"' ∉ p)
    {p : Process}
    (hp : p = ⟨packagerWords python tool source ++ [target.str], st.environ, none⟩) :
    (packageDfuAdafruit toolDir).call spawn target source st =
      (.status (spawn p), st.log (.process p source (spawn p))) := by
  have hline := @shellWords_package toolDir target source st python tool hpython hpy htool hplain
    (hfiles _ (by simp))
  rw [shellWords_of_arg (.quoted (hfiles target.str (by simp)))] at hline
  rw [hp]
  exact CommandAction.call_eq hline (by simp)

end Arguments

/-! ### The outcome of a builder -/

section Build

variable {tools : Tools} {packagers : Packagers} {target source : Node} {st : State}

/-- No part that `build_uf2` joins has a dollar sign; the other builders join no part of their
own. -/
def PlainParts (tools : Tools) (packagers : Packagers) (pkg : Package) (target source : Node)
    (st : State) : Prop :=
  pkg = .uf2 → ∀ uf2conv ∈ tools.getUf2conv, ∀ w ∈ [uf2conv, source.abspath,
    strFamilyId (getZephyrConfig packagers.files st.vars familySymbol), target.abspath], '$' ∉ w

theorem buildUf2_outcome (hplain : PlainParts tools packagers .uf2 target source st) :
    Outcome (Package.uf2.Calls tools source (st.vars.get? "PYTHONEXE")) st
      (!(buildUf2 tools.spawn packagers.files tools.getUf2conv target source st).1.failed)
      (buildUf2 tools.spawn packagers.files tools.getUf2conv target source st).2 := by
  have hplain := hplain rfl
  cases huf2 : tools.getUf2conv with
  | none => exact .notRun rfl
  | some uf2conv =>
      obtain ⟨id, hid⟩ : ∃ id, strFamilyId (getZephyrConfig packagers.files st.vars familySymbol) =
        id := ⟨_, rfl⟩
      have hparts : ∀ w ∈ [uf2conv, source.abspath, "-c", "-f", id, "-o", target.abspath],
          '$' ∉ w := by
        have hopt : ∀ w ∈ ["-c".toList, "-f".toList, "-o".toList], '$' ∉ w := by decide
        have hpath := hplain uf2conv huf2
        simp only [hid, List.forall_mem_cons, List.not_mem_nil, false_implies, implies_true,
          and_true] at hopt hpath ⊢
        tauto
      have hline : ∀ strfunction chdir, CommandAction.line ⟨join " " ["$PYTHONEXE", uf2conv,
          source.abspath, "-c", "-f", id, "-o", target.abspath], strfunction, chdir⟩ target source
          st = join " " (ref (cmdVars st.vars target source) "PYTHONEXE" :: [uf2conv,
            source.abspath, "-c", "-f", id, "-o", target.abspath]) := fun _ _ =>
        subst_command (cmdVars st.vars target source) (x := "PYTHONEXE".toList) (by decide) hparts
      rw [buildUf2, hid]
      refine CommandAction.call_outcome ?_ fun argv hargv status =>
        ⟨rfl, _, Option.mem_map_of_mem _ huf2, fun python hpython hpaths => ?_⟩
      · -- the option `-c` is in the line, whatever the variables are
        rw [hline]
        exact shellWords_ne_nil (c := '-') (by decide)
          (mem_join_of_mem _ (w := "-c".toList) (by decide) (by simp))
      · have hget : (cmdVars st.vars target source).get? "PYTHONEXE" = some (.str python) := by
          rw [get?_cmdVars _ _ _ (by decide), hpython]
        have hsolid : ∀ q ∈ [python, uf2conv, source.abspath], Solid q ∧ '"' ∉ q := fun q hq =>
          ⟨(hpaths q hq).2.resolve_left Bool.false_ne_true, (hpaths q hq).1.plain.2⟩
        have hargs : List.Forall₂ Arg [python, uf2conv, source.abspath] _ :=
          List.forall₂_same.mpr fun w hw => .plain (hsolid w hw).1 (hsolid w hw).2
        rw [hline, ref_str hget (hpaths python (by simp)).1.plain.1] at hargv
        have hwords := shellWords_args hargs (join " " ["-c", "-f", id, "-o", target.abspath])
        obtain ⟨rest, -, rfl⟩ := Option.map_eq_some_iff.mp (hwords.symm.trans hargv)
        exact ⟨⟨source.abspath :: rest, rfl⟩, by simp [Package.file]⟩

/-- **What comes of a builder.** -/
theorem build_outcome (pkg : Package) (hplain : PlainParts tools packagers pkg target source st) :
    Outcome (pkg.Calls tools source (st.vars.get? "PYTHONEXE")) st
      (!(pkg.build tools packagers target source st).1.failed)
      (pkg.build tools packagers target source st).2 := by
  cases pkg with
  | uf2 => exact buildUf2_outcome hplain
  | dfuAdafruit =>
      refine CommandAction.call_outcome ?_ fun argv hargv status =>
        ⟨rfl, _, rfl, fun python hpython hpaths => ?_⟩
      · obtain ⟨rest, hline⟩ := @line_package tools.adafruitNrfutilDir target source st
        rw [hline]
        exact shellWords_ne_nil (c := '"') (by decide) List.mem_cons_self
      · simp only [List.forall_mem_cons] at hpaths
        rw [shellWords_package hpython hpaths.1.1.plain rfl hpaths.2.1.1.plain
          hpaths.2.2.1.1.plain.2] at hargv
        obtain ⟨rest, -, rfl⟩ := Option.map_eq_some_iff.mp hargv
        exact ⟨⟨_, rfl⟩, by simp [packagerWords, Package.file]⟩
  | dfuNordic => exact .of_log rfl ⟨.inr List.mem_cons_self, _, rfl, rfl, List.mem_cons_self⟩ rfl

end Build

/-! ### Building, then flashing -/

/-- The builder of the file a target depends on; the hex file is built outside. -/
def Target.package : Target → Option Package
  | flashPyocd | flashJlink => none
  | flashUf2 => some .uf2
  | flashSerialAdafruit => some .dfuAdafruit
  | flashSerialNordic => some .dfuNordic

/-- Runs the target of a name whose file is out of date: the file is built from the hex file, then
the actions of the target are run. -/
def deploy (tools : Tools) (packagers : Packagers) (files : Files) (w : Serial) (fuel : ℕ)
    (name : String) (st : State) : Option (Bool × State) :=
  match Target.named name with
  | none => none
  | some t =>
      let source := t.source files
      let build : List ActionFn := t.package.toList.map fun pkg st =>
        some (pkg.build tools packagers source files.targetHex st)
      runActions (build ++ actions tools w fuel t ⟨name.toList, name.toList⟩ source) st

/-! ### From the hex file to the drive -/

section Uf2

variable {tools : Tools} {packagers : Packagers} {files : Files} {w : Serial} {fuel : ℕ}
  {st st' : State} {ok : Bool} {python uf2conv v : Str}

/-- The process of the converter, and what it comes to. -/
theorem buildUf2_eq {spawn : Process → ℕ} {fs : Str → Option Str} {target source : Node}
    (hpython : st.vars.get? "PYTHONEXE" = some (.str python))
    (hpaths : ∀ p ∈ [python, uf2conv, source.abspath, target.abspath], CleanPath p)
    (hset : FamilySet fs st.vars v) (hv : Alnum v) {p : Process}
    (hp : p = ⟨(uf2Args python uf2conv target source v).flatMap words, st.environ, none⟩) :
    buildUf2 spawn fs (some uf2conv) target source st =
      (.status (spawn p), st.log (.process p source (spawn p))) := by
  have hid := familyId_of_set hset hv
  have hplain : ∀ c ∈ ['"', '$'], c ∉ v := by
    intro c hc hcv
    rcases List.mem_pair.mp hc with rfl | rfl
    · exact (hv.plain hcv).2.1 rfl
    · exact (hv.plain hcv).2.2.1 rfl
  have hargvs : argvs st (buildUf2 spawn fs (some uf2conv) target source st).2 = _ :=
    argvs_buildUf2 hpython hpaths hid hplain
  have hne : (uf2Args python uf2conv target source v).flatMap words ≠ [] := by
    intro h
    have hc : "-c".toList ∈ (uf2Args python uf2conv target source v).flatMap words :=
      List.mem_flatMap.mpr ⟨"-c".toList, by simp [uf2Args], by decide⟩
    simp [h] at hc
  rw [buildUf2, CommandAction.argvs_iff rfl hne] at hargvs
  rw [hp, buildUf2]
  exact CommandAction.call_eq hargvs hne

/-- The upload forgets no tool that was run. -/
theorem runs_uploadUf2 {spawn : Process → ℕ} {target source : Node} :
    st.runs <+: (uploadUf2Adafruit spawn (some uf2conv) target source st).2.runs :=
  CommandAction.runs_prefix spawn _ target source (uf2State uf2conv st)

/-- **From the hex file to the drive**: when `flash_uf2`, with its file out of date, runs the
converter on the hex file and then the upload of what the converter was told to write, each with the
intended arguments: no path of the converter has a blank, the port has neither that nor a quote, and
the converter succeeds. -/
theorem argvs_deployUf2_iff (hpython : st.vars.get? "PYTHONEXE" = some (.str python))
    (hconv : tools.getUf2conv = some uf2conv)
    (hpaths : ∀ p ∈ [python, uf2conv, files.targetHex.abspath, files.targetUf2.abspath],
      CleanPath p) (hfile : CleanPath files.targetUf2.str)
    (hset : FamilySet packagers.files st.vars v) (hv : Alnum v) {port : Str}
    (hport : st.vars.get? "UPLOAD_PORT" = some (.str port)) (hplain : '$' ∉ port)
    (hreport : deploy tools packagers files w fuel "flash_uf2" st = some (ok, st')) :
    argvs st st' = [uf2Args python uf2conv files.targetUf2 files.targetHex v,
        [python, uf2conv, files.targetUf2.str, "-D".toList, "-d".toList, port]] ↔
      (∀ p ∈ [python, uf2conv, files.targetHex.abspath, files.targetUf2.abspath],
        ∀ c ∈ p, isBlank c = false) ∧
      (Solid port ∧ '"' ∉ port) ∧
      tools.spawn ⟨uf2Args python uf2conv files.targetUf2 files.targetHex v, st.environ, none⟩ =
        0 := by
  obtain ⟨p, hp⟩ : ∃ p : Process, p = ⟨(uf2Args python uf2conv files.targetUf2 files.targetHex
    v).flatMap words, st.environ, none⟩ := ⟨_, rfl⟩
  have hargv : p.argv = uf2Args python uf2conv files.targetUf2 files.targetHex v ↔
      ∀ q ∈ [python, uf2conv, files.targetHex.abspath, files.targetUf2.abspath],
        ∀ c ∈ q, isBlank c = false := by
    rw [hp]
    exact flatMap_words_uf2Args hv hpaths
  have hmeant : p.argv = uf2Args python uf2conv files.targetUf2 files.targetHex v →
      p = ⟨uf2Args python uf2conv files.targetUf2 files.targetHex v, st.environ, none⟩ := by
    rw [hp]
    exact fun h => congrArg (fun argv => Process.mk argv st.environ none) h
  have hbuild : Package.uf2.build tools packagers files.targetUf2 files.targetHex st =
      (.status (tools.spawn p), st.log (.process p files.targetHex (tools.spawn p))) := by
    rw [Package.build, hconv]
    exact buildUf2_eq hpython hpaths hset hv hp
  have hfirst : argvs st (st.log (.process p files.targetHex (tools.spawn p))) = [p.argv] := by
    simp [argvs, Run.argv]
  have hactions : runActions [fun st => some (Package.uf2.build tools packagers files.targetUf2
      files.targetHex st), fun st => some (uploadUf2Adafruit tools.spawn tools.getUf2conv
        ⟨"flash_uf2", "flash_uf2"⟩ files.targetUf2 st)] st = some (ok, st') := hreport
  rw [runActions_cons (congrArg some hbuild)] at hactions
  by_cases hstatus : tools.spawn p = 0
  · rw [if_neg (by simp [Result.failed, hstatus])] at hactions
    obtain ⟨-, rfl⟩ := runActions_one hactions
    have hclean : ∀ q ∈ [python, uf2conv], '$' ∉ q ∧ '"' ∉ q := by
      intro q hq
      have hq' : q ∈ [python, uf2conv, files.targetHex.abspath, files.targetUf2.abspath] :=
        List.mem_append_left [files.targetHex.abspath, files.targetUf2.abspath] hq
      exact ⟨(hpaths q hq').2 '$' (by simp), (hpaths q hq').2 '"' (by simp)⟩
    have hupload := @argvs_uploadUf2_iff tools.spawn ⟨"flash_uf2", "flash_uf2"⟩ files.targetUf2
      (st.log (.process p files.targetHex (tools.spawn p))) python uf2conv port hpython
      (hclean python (by simp)) (hclean uf2conv (by simp)) (hfile.2 '"' (by simp)) hport hplain
    rw [hconv, argvs_append (List.prefix_append _ _) runs_uploadUf2, hfirst,
      List.singleton_append, List.cons.injEq, hupload, hargv]
    refine and_congr_right fun hblank => (and_iff_left ?_).symm
    rw [← hmeant (hargv.mpr hblank), hstatus]
  · rw [if_pos (by simp [Result.failed, hstatus])] at hactions
    cases hactions
    rw [hfirst]
    refine iff_of_false (by simp) ?_
    rintro ⟨hblank, -, hspawn⟩
    rw [← hmeant (hargv.mpr hblank)] at hspawn
    exact hstatus hspawn

end Uf2

/-- Packagers for a project without a configuration file. -/
def packaging : Packagers := ⟨fun _ => none, fun _ => .none⟩

/-- Packagers for a project whose configuration sets the family id. -/
def configured : Packagers := ⟨fun _ => some feather, fun _ => .none⟩

/-- An environment with an interpreter and a port. -/
def flashing : State :=
  ⟨.ofList [("PYTHONEXE", .str "python"), ("UPLOAD_PORT", .str "COM4")], [], []⟩

set_option maxRecDepth 4000 in
theorem argvs_deployUf2_iff_feather : ∃ ok st',
    deploy working configured merged ready 0 "flash_uf2" flashing = some (ok, st') ∧
      argvs flashing st' =
        [uf2Args "python" "/sdk/uf2conv.py" merged.targetUf2 merged.targetHex "0xADA52840",
          ["python".toList, "/sdk/uf2conv.py".toList, "merged.uf2".toList, "-D".toList,
            "-d".toList, "COM4".toList]] := by
  have hset : FamilySet configured.files flashing.vars "0xADA52840" :=
    ⟨feather, rfl, ["CONFIG_SOC=\"nrf52840\"\n"],
      "CONFIG_BUILD_OUTPUT_UF2_FAMILY_ID=\"0xADA52840\"\n", [], by decide, by decide,
      "\"0xADA52840\"", by decide, [], "\n", by decide, by decide, by decide⟩
  obtain ⟨ok, st', h⟩ : ∃ ok st',
    deploy working configured merged ready 0 "flash_uf2" flashing = some (ok, st') := ⟨_, _, rfl⟩
  exact ⟨ok, st', h, (argvs_deployUf2_iff rfl rfl (by decide) (by decide) hset
    ⟨by decide, by decide⟩ rfl (by decide) h).mpr ⟨by decide, by decide, rfl⟩⟩

/-! ### From the hex file to nowhere -/

section Adafruit

variable {tools : Tools} {packagers : Packagers} {files : Files} {w : Serial} {fuel : ℕ}
  {st st' : State} {ok : Bool} {python tool : Str}

/-- **From the hex file to nowhere**: `flash_serial_adafruit`, with its file out of date, starts the
packager, with exactly the intended arguments whatever blanks the paths have, and no other process.
It is reported successful iff the packager succeeds and the ports open. -/
theorem argvs_deployAdafruit {name : String} (hname : Target.named name = some .flashSerialAdafruit)
    (hpython : st.vars.get? "PYTHONEXE" = some (.str python)) (hpy : Quotable python)
    (htool : pathJoin (tools.adafruitNrfutilDir.getD []) ["adafruit-nrfutil.py"] = tool)
    (hquotable : Quotable tool)
    (hfiles : ∀ p ∈ [files.targetHex.str, files.targetDfuAdafruit.str], CleanPath p)
    (hreport : deploy tools packagers files w fuel name st = some (ok, st')) :
    argvs st st' = [packagerWords python tool files.targetHex ++ [files.targetDfuAdafruit.str]] ∧
      (ok = true ↔ tools.spawn ⟨packagerWords python tool files.targetHex ++
        [files.targetDfuAdafruit.str], st.environ, none⟩ = 0 ∧ ¬ w.Raises st.vars) := by
  obtain ⟨p, hp⟩ : ∃ p : Process, p = ⟨packagerWords python tool files.targetHex ++
    [files.targetDfuAdafruit.str], st.environ, none⟩ := ⟨_, rfl⟩
  have hbuild : Package.dfuAdafruit.build tools packagers files.targetDfuAdafruit files.targetHex
      st = (.status (tools.spawn p), st.log (.process p files.targetHex (tools.spawn p))) :=
    packageDfuAdafruit_eq hpython hpy.plain htool hquotable.plain
      (fun q hq => (hfiles q hq).2 '"' (by simp)) hp
  have hargvs : ∀ st', st'.runs = st.runs ++ [.process p files.targetHex (tools.spawn p)] →
      argvs st st' = [packagerWords python tool files.targetHex ++
        [files.targetDfuAdafruit.str]] := by
    intro st' hruns
    simp [argvs, hruns, Run.argv, hp]
  rw [← hp]
  rw [deploy, hname] at hreport
  simp only [Target.package, Option.toList_some, List.map_singleton, List.singleton_append,
    Target.source] at hreport
  rw [runActions_cons (congrArg some hbuild)] at hreport
  by_cases hstatus : tools.spawn p = 0
  · rw [if_neg (by simp [Result.failed, hstatus]), actions] at hreport
    obtain ⟨reset, -, ⟨-, hw, rfl, hruns⟩ | ⟨-, hw, rfl, rfl⟩⟩ := runActions_reset hreport
    · exact ⟨hargvs _ hruns, iff_of_false Bool.false_ne_true fun h => h.2 hw⟩
    · -- the upload returns nothing, which is a success, and starts nothing
      obtain ⟨hres, hruns⟩ := adafruit_result tools.adafruitNrfutilDir
        { st.log (.process p files.targetHex (tools.spawn p)) with vars := reset.vars }
      exact ⟨hargvs _ hruns, iff_of_true (by rw [hres]; rfl) ⟨hstatus, hw⟩⟩
  · rw [if_pos (by simp [Result.failed, hstatus])] at hreport
    cases hreport
    exact ⟨hargvs _ rfl, by simp [hstatus]⟩

end Adafruit

theorem argvs_deployAdafruit_blank : ∃ ok st',
    deploy { working with adafruitNrfutilDir := some "/my tools" } packaging merged ready 0 "upload"
        (withPython "/my env/python3") = some (ok, st') ∧
      argvs (withPython "/my env/python3") st' = [packagerWords "/my env/python3"
        "/my tools/adafruit-nrfutil.py" ⟨"merged.hex", "/b/merged.hex"⟩ ++
          ["merged_adafruit.zip".toList]] ∧ ok = true := by
  obtain ⟨ok, st', h⟩ : ∃ ok st',
    deploy { working with adafruitNrfutilDir := some "/my tools" } packaging merged ready 0 "upload"
      (withPython "/my env/python3") = some (ok, st') := ⟨_, _, rfl⟩
  obtain ⟨hargvs, hok⟩ := argvs_deployAdafruit rfl rfl (by decide) rfl (by decide) (by decide) h
  refine ⟨ok, st', h, hargvs, hok.mpr ⟨rfl, ?_⟩⟩
  rintro ⟨-, hf | ht⟩
  · cases hf
  · cases ht

end Nrf52
