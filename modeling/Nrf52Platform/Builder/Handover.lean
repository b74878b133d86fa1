import Nrf52Platform.Builder.Bench
import Nrf52Platform.Builder.Session

/-!
# Builder — Handover

The port that a serial target leaves in `UPLOAD_PORT`, handed over to the targets that follow it in
the same invocation.

* `port_of_run`, `port_of_job`: what the reset step leaves there, and a serial target with it.
* `uf2_follows`: a UF2 upload behind a serial target goes where the upload to the selected device
  went, whatever the name of the port was before.
-/

namespace Nrf52
open Py Scons Shell

namespace Bench

variable {D : Type} {devices : Devices D} {b : Bench D}

/-- The step leaves a port, if there was one. -/
theorem port_of_run {vars : Vars} {fuel : ℕ} {run : ResetRun} {name : Str}
    (hget : vars.get? "UPLOAD_PORT" = some (.str name)) (hname : '$' ∉ name)
    (h : resetToBootloader vidsPids (b.shown devices) fuel vars = some run) :
    ∃ port, run.vars.get? "UPLOAD_PORT" = some (.str port) ∧ '$' ∉ port := by
  have hlisted : ∀ {k : ℕ} {port : Port}, port ∈ (b.shown devices).listing k → '$' ∉ port.port := by
    intro k port hport
    obtain ⟨s, hs, rfl⟩ := List.mem_map.mp hport
    rw [s.port_shown]
    exact b.plain k s hs
  cases resets_of_run h with
  | absent | flushRaised | touchRaised => exact ⟨name, hget, hname⟩
  | @already cur hcur =>
      exact ⟨cur.port, Dict.get?_set_self _ _ _, hlisted (mem_of_currentPort hcur).1⟩
  | @polled cur e hsel hf ht he =>
      cases e with
      | timeout n => exact ⟨name, hget, hname⟩
      | hit n port =>
          have hhit := he.2.2.2
          rw [Serial.hit] at hhit
          exact ⟨port.port, Dict.get?_set_self _ _ _, hlisted (List.mem_of_find?_eq_some hhit)⟩

end Bench

section Handover

variable {tools : Tools} {packagers : Packagers} {files : Files} {st st₁ st' : State} {ok : Bool}

/-- A builder assigns nothing. -/
theorem vars_build (pkg : Package) (target source : Node) :
    (pkg.build tools packagers target source st).2.vars = st.vars := by
  cases pkg with
  | uf2 =>
      simp only [Package.build]
      cases tools.getUf2conv with
      | none => rfl
      | some uf2conv => exact CommandAction.call_vars _ _ _ _ _
  | dfuAdafruit => exact CommandAction.call_vars _ _ _ _ _
  | dfuNordic => rfl

/-- A serial target leaves in `UPLOAD_PORT` what its reset step does. -/
theorem port_of_job {job : Job} (hserial : job.target.serial = true)
    (h : runActions (job.actions tools packagers files) st = some (true, st')) :
    ∃ reset, resetToBootloader vidsPids job.serial job.fuel st.vars = some reset ∧
      reset.result = .none ∧
      st'.vars.get? "UPLOAD_PORT" = reset.vars.get? "UPLOAD_PORT" := by
  rw [Job.actions] at h
  obtain ⟨st₁, hbuild, hactions⟩ := exists_of_append h
  have hvars : st₁.vars = st.vars := by
    refine runActions_invariant (P := fun s => s.vars = st.vars) (fun a ha s r s' hstep hs => ?_)
      hbuild rfl
    obtain ⟨pkg, -, rfl⟩ := List.mem_map.mp ha
    have hs' : _ = s' := congrArg Prod.snd (Option.some.inj hstep)
    rw [← hs']
    exact (vars_build pkg _ _).trans hs
  rw [← hvars]
  cases htarget : job.target with
  | flashPyocd | flashJlink | flashUf2 => rw [htarget] at hserial; cases hserial
  | flashSerialNordic =>
      rw [htarget] at hactions
      obtain ⟨reset, hreset, ⟨-, -, hfalse, -⟩ | ⟨hret, -, -, rfl⟩⟩ := runActions_reset hactions
      · cases hfalse
      · exact ⟨reset, hreset, hret, rfl⟩
  | flashSerialAdafruit =>
      rw [htarget] at hactions
      obtain ⟨reset, hreset, ⟨-, -, hfalse, -⟩ | ⟨hret, -, -, rfl⟩⟩ := runActions_reset hactions
      · cases hfalse
      · refine ⟨reset, hreset, hret, ?_⟩
        simp only [uploadSerialAdafruit, State.replace_vars]
        rw [Dict.get?_set_of_ne _ _ (by decide), Dict.get?_set_of_ne _ _ (by decide),
          Dict.get?_set_of_ne _ _ (by decide), Dict.get?_set_of_ne _ _ (by decide)]
        split
        case isTrue => rfl
        case isFalse => exact Dict.get?_set_of_ne _ _ (by decide)

variable {D : Type} [DecidableEq D] {devices : Devices D} {b : Bench D} {d : D}

/-- **A UF2 upload follows the selected device.**  Behind a serial target, and any others that are
not, the UF2 tool is handed the port where the upload to the device went. -/
theorem uf2_follows {job last : Job} {after : List Job} (hserial : job.target.serial = true)
    (hbench : job.serial = b.shown devices) (hafter : ∀ j ∈ after, j.target.serial = false)
    (hlast : last.target = .flashUf2) (hfresh : last.stale = false) {name python uf2conv : Str}
    (hname : st.vars.get? "UPLOAD_PORT" = some (.str name)) (hplain : '$' ∉ name)
    (hat : b.At d name) (hpython : st.vars.get? "PYTHONEXE" = some (.str python))
    (hpy : Quotable python) (hconv : tools.getUf2conv = some uf2conv)
    (huf2 : Quotable uf2conv) (hfile : CleanPath files.targetUf2.str)
    (hbefore : session tools packagers files (job :: after) st = some (true, st₁))
    (hrun : runActions (last.actions tools packagers files) st₁ = some (ok, st')) :
    ∃ port, b.Goes d name port ∧ (argvs st₁ st' =
        [[python, uf2conv, files.targetUf2.str, "-D".toList, "-d".toList, port]] ↔
      Solid port ∧ '"' ∉ port) := by
  obtain ⟨mid, hjob, hrest⟩ := exists_of_session hbefore
  obtain ⟨reset, hreset, hret, hleft⟩ := port_of_job hserial hjob
  rw [hbench] at hreset
  obtain ⟨port, hport, hclean⟩ := Bench.port_of_run hname hplain hreset
  have hgoes : b.Goes d name port := by
    rw [← Bench.uploadPort_of_get? hname hplain] at hat ⊢
    rw [← Bench.uploadPort_of_get? hport hclean]
    exact Bench.goes_of_run hat hreset hret
  -- the targets behind the serial one assign no port, and none assigns the interpreter
  have hport₁ : st₁.vars.get? "UPLOAD_PORT" = some (.str port) := by
    have hnot : ∀ t : Target, t.serial = false → "UPLOAD_PORT".toList ∉ t.assigned := by
      intro t
      cases t <;> decide
    rw [get?_session (fun j hj => hnot _ (hafter j hj)) hrest, hleft, hport]
  have hpython₁ : st₁.vars.get? "PYTHONEXE" = some (.str python) := by
    rw [get?_session (fun j _ => python_notMem_assigned j.target) hbefore, hpython]
  refine ⟨port, hgoes, ?_⟩
  have hpackage : last.package = none := by rw [Job.package, hfresh]; rfl
  rw [Job.actions, hpackage, hlast] at hrun
  obtain ⟨-, rfl⟩ := runActions_one hrun
  rw [hconv]
  exact argvs_uploadUf2_iff hpython₁ hpy.plain huf2.plain (hfile.2 '"' (by simp)) hport₁ hclean

end Handover

/-- A Nordic upload to a board that comes back at another port. -/
def nordicJob : Job := ⟨.flashSerialNordic, false, twoBoards.shown boards, 3⟩

/-- An environment with an interpreter, that uploads through `COM3`. -/
def handing : State :=
  ⟨.ofList [("UPLOAD_PORT", .str "COM3"), ("PYTHONEXE", .str "python")], [], []⟩

theorem uf2_follows_twoBoards : ∃ st₁ ok st',
    session working packaging merged [nordicJob] handing = some (true, st₁) ∧
      runActions (Job.actions working packaging merged ⟨.flashUf2, false, ready, 0⟩) st₁ =
        some (ok, st') ∧
      ∃ port, twoBoards.Goes false "COM3" port ∧ (argvs st₁ st' = [["python".toList,
          "/sdk/uf2conv.py".toList, "merged.uf2".toList, "-D".toList, "-d".toList, port]] ↔
        Solid port ∧ '"' ∉ port) := by
  have hreset : resetToBootloader vidsPids (twoBoards.shown boards) 3 handing.vars =
      some { reenumerated with
        vars := .ofList [("UPLOAD_PORT", .str "COM4"), ("PYTHONEXE", .str "python")] } := by
    decide +kernel
  have hbefore : session working packaging merged [nordicJob] handing = _ :=
    @runActions_of_reset _ _ _ (uploadNordic working.flashDfuPackage merged.targetDfuNordic) _
      hreset
  have hat : twoBoards.At false "COM3" := ⟨_, List.mem_cons_self, by decide, rfl⟩
  have hrun : ∀ st, runActions (Job.actions working packaging merged
      ⟨.flashUf2, false, ready, 0⟩) st = _ := fun st => runActions_singleton rfl
  have hserial : nordicJob.target.serial = true := rfl
  exact ⟨_, _, _, hbefore, hrun _, uf2_follows hserial rfl (by simp) rfl rfl rfl (by decide) hat
    rfl (by decide) rfl (by decide) (by decide) hbefore (hrun _)⟩

end Nrf52
