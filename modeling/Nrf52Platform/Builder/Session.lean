import Nrf52Platform.Builder.Packages
import Nrf52Platform.Scons.Sequences

/-!
# Builder — Session

Several targets in one invocation of the build tool.  They are run in order, on one environment,
until one fails; what an upload assigns to a construction variable is there for the next.

* `session_keeps`: what a session leaves alone: the variables that none of its targets assigns, the
  dictionary objects there were, and the tools run before.
* `session_truthful`: a session is reported successful iff every tool was run, in order, and
  succeeded.
* `session_ends`: a session comes to an end, on clocks that reach their deadlines.
* `session_environ`: from the first target that runs `west` on, every process gets the environment
  of `west`, whose search paths do not grow.
* `session_swd_argvs`: the flags a session leaves are those of its last target that has any, and an
  SWD upload hands them to `west`.
-/

namespace Nrf52
open Py Scons Shell

/-! ### Sessions -/

/-- The name of a target. -/
def Target.name : Target → Str
  | flashPyocd => "flash_pyocd"
  | flashJlink => "flash_jlink"
  | flashUf2 => "flash_uf2"
  | flashSerialAdafruit => "flash_serial_adafruit"
  | flashSerialNordic => "flash_serial_nordic"

/-- A target to run: whether the file it depends on is out of date, and the outside its reset step
meets. -/
structure Job where
  target : Target
  stale : Bool
  serial : Serial
  fuel : ℕ

namespace Job

/-- The builder of the file, if it has to be built. -/
def package (job : Job) : Option Package := if job.stale then job.target.package else none

/-- The actions of a job. -/
def actions (tools : Tools) (packagers : Packagers) (files : Files) (job : Job) : List ActionFn :=
  let source := job.target.source files
  let build : List ActionFn := job.package.toList.map fun pkg st =>
    some (pkg.build tools packagers source files.targetHex st)
  build ++ Nrf52.actions tools job.serial job.fuel job.target
    ⟨job.target.name, job.target.name⟩ source

/-- The runs that are meant, in order: of the builder's tool, if the file has to be built, and of
the target's. -/
def calls (tools : Tools) (files : Files) (python : Option Value) (job : Job) : List (Run → Prop) :=
  job.package.toList.map (fun pkg => pkg.Calls tools files.targetHex python) ++
    [job.target.Calls tools (job.target.source files) python]

end Job

/-- Runs the jobs of one invocation. -/
def session (tools : Tools) (packagers : Packagers) (files : Files) (jobs : List Job) (st : State) :
    Option (Bool × State) :=
  runActions (jobs.flatMap (Job.actions tools packagers files)) st

section Cons

variable {tools : Tools} {packagers : Packagers} {files : Files} {job : Job} {jobs : List Job}
  {st st' : State}

/-- **A session, job by job**: the first fails, or the others go on from it. -/
theorem session_cons_iff {ok : Bool} :
    session tools packagers files (job :: jobs) st = some (ok, st') ↔
      runActions (job.actions tools packagers files) st = some (false, st') ∧ ok = false ∨
        ∃ st₁, runActions (job.actions tools packagers files) st = some (true, st₁) ∧
          session tools packagers files jobs st₁ = some (ok, st') := by
  rw [session, List.flatMap_cons, runActions_append_iff]
  rfl

theorem exists_of_session (h : session tools packagers files (job :: jobs) st = some (true, st')) :
    ∃ st₁, runActions (job.actions tools packagers files) st = some (true, st₁) ∧
      session tools packagers files jobs st₁ = some (true, st') := by
  rw [session, List.flatMap_cons] at h
  exact exists_of_append h

end Cons

/-- A UF2 upload, of a file that is out of date. -/
def uf2Job : Job := ⟨.flashUf2, true, ready, 0⟩

/-- An upload with J-Link. -/
def jlinkJob : Job := ⟨.flashJlink, false, ready, 0⟩

/-- A project with the given build directory. -/
def desk (buildDir : Str) : State :=
  ⟨.ofList [("PIOENV", .str "dk"), ("BUILD_DIR", .str buildDir), ("PYTHONEXE", .str "python"),
    ("UPLOAD_PORT", .str "COM4"), ("ENV", .dict 1)],
    [.ofList [("PATH", "/usr/bin")], .ofList [("PATH", "/bin")]], []⟩

theorem session_desk :
    ∃ st', session working packaging merged [uf2Job] (desk "/b") = some (true, st') :=
  ⟨_, rfl⟩

/-! ### What an action leaves alone -/

/-- The construction variables that the actions of a target assign. -/
def Target.assigned : Target → List Str
  | flashPyocd | flashJlink => ["UPLOADER", "WEST_RUNNER", "UPLOADCMD", "ENV"]
  | flashUf2 => ["UPLOADER", "UPLOADERFLAGS", "UPLOADCMD"]
  | flashSerialAdafruit =>
      ["UPLOAD_PORT", "UPLOAD_SPEED", "UPLOADER", "UPLOADERFLAGS", "UPLOADCMD", "cmd"]
  | flashSerialNordic => ["UPLOAD_PORT"]

/-- What holds between the states before and after actions that assign variables of `xs`: the others
keep their values, dictionary objects are only added, and so are tools that were run. -/
structure Keeps (xs : List Str) (st st' : State) : Prop where
  vars : ∀ x ∉ xs, st'.vars.get? x = st.vars.get? x
  heap : st.heap <+: st'.heap
  runs : st.runs <+: st'.runs

namespace Keeps

variable {xs : List Str} {st st₁ st' : State}

theorem refl (xs : List Str) (st : State) : Keeps xs st st :=
  ⟨fun _ _ => rfl, List.prefix_rfl, List.prefix_rfl⟩

theorem trans (h : Keeps xs st st₁) (h' : Keeps xs st₁ st') : Keeps xs st st' :=
  ⟨fun x hx => (h'.vars x hx).trans (h.vars x hx), h.heap.trans h'.heap, h.runs.trans h'.runs⟩

theorem mono (h : Keeps xs st st') {ys : List Str} (hxs : xs ⊆ ys) : Keeps ys st st' :=
  ⟨fun x hx => h.vars x fun hmem => hx (hxs hmem), h.heap, h.runs⟩

theorem replace (h : Keeps xs st st') {x : Str} (hx : x ∈ xs) (v : Value) :
    Keeps xs st (st'.replace x v) := by
  refine ⟨fun y hy => ?_, h.heap, h.runs⟩
  have hne : y ≠ x := fun h => hy (h ▸ hx)
  rw [State.replace_vars, Dict.get?_set_of_ne _ _ hne, h.vars y hy]

theorem log (xs : List Str) (st : State) (run : Run) : Keeps xs st (st.log run) :=
  ⟨fun _ _ => rfl, List.prefix_rfl, List.prefix_append _ _⟩

theorem call (h : Keeps xs st st') (spawn : Process → ℕ) (a : CommandAction)
    (target source : Node) : Keeps xs st (a.call spawn target source st').2 := by
  rcases a.call_cases spawn target source st' with hcall | ⟨-, hcall⟩ | ⟨p, hcall⟩
  · rwa [hcall]
  · rwa [hcall]
  · rw [hcall]
    exact h.trans (log xs st' _)

/-- An object that was there reads as it did. -/
theorem deref (h : Keeps xs st st') {r : ℕ} (hr : r < st.heap.length) :
    st'.deref r = st.deref r := by
  obtain ⟨added, hadded⟩ := h.heap
  rw [State.deref, State.deref, ← hadded, List.getElem?_append_left hr]

/-- An action function that always ends keeps what its state does. -/
theorem of_some {r : Result} {step : Result × State} (h : Keeps xs st step.2)
    (hstep : some step = some (r, st')) : Keeps xs st st' := by
  obtain rfl := Option.some.inj hstep
  exact h

end Keeps

section Targets

variable {xs : List Str} {spawn : Process → ℕ} {target source : Node} {st st' : State} {r : Result}

theorem uploadSwd_keeps (pathsep : Char) (jlinkDir : Option Str) (sdk : Option Sdk)
    (runner : Str) : Keeps Target.flashJlink.assigned st
      (uploadSwd spawn pathsep jlinkDir sdk runner target source st).2 := by
  cases sdk with
  | none => exact .refl _ st
  | some sdk =>
      have hheap : Keeps Target.flashJlink.assigned st
          { st with heap := (swdState pathsep jlinkDir sdk runner st).heap } := by
        rw [heap_swdState]
        exact ⟨fun _ _ => rfl, List.prefix_append _ _, List.prefix_rfl⟩
      have hvars := (((hheap.replace (x := "UPLOADER") (by decide) (.str "west")).replace
        (x := "WEST_RUNNER") (by decide) (.str runner)).replace (x := "UPLOADCMD") (by decide)
        (.str swdCommand)).replace (x := "ENV") (by decide) (.dict st.heap.length)
      exact hvars.call _ _ _ _

theorem uploadUf2_keeps (uf2conv : Option Str) : Keeps Target.flashUf2.assigned st
    (uploadUf2Adafruit spawn uf2conv target source st).2 := by
  cases uf2conv with
  | none => exact .refl _ st
  | some uf2conv =>
      have hvars := (((Keeps.refl Target.flashUf2.assigned st).replace (x := "UPLOADER")
        (by decide) (.str uf2conv)).replace (x := "UPLOADERFLAGS") (by decide)
        (.list ["-D", "-d", "$UPLOAD_PORT"])).replace (x := "UPLOADCMD") (by decide)
        (.str "\"$PYTHONEXE\" \"$UPLOADER\" $SOURCE $UPLOADERFLAGS")
      exact hvars.call _ _ _ _

theorem adafruit_keeps (toolDir : Option Str) (st : State) :
    Keeps Target.flashSerialAdafruit.assigned st (uploadSerialAdafruit toolDir st).2 := by
  have hspeed : Keeps Target.flashSerialAdafruit.assigned st
      (if st.truthy (st.vars.get? "UPLOAD_SPEED") then st
        else st.replace "UPLOAD_SPEED" (.str "115200")) := by
    split
    · exact .refl _ st
    · exact (Keeps.refl _ st).replace (by decide) _
  exact (((hspeed.replace (x := "UPLOADER") (by decide) _).replace (x := "UPLOADERFLAGS")
    (by decide) _).replace (x := "UPLOADCMD") (by decide) _).replace (x := "cmd") (by decide) _

/-- The reset step assigns `UPLOAD_PORT`, or nothing. -/
theorem resetAction_keeps (hport : "UPLOAD_PORT".toList ∈ xs) {w : Serial} {fuel : ℕ}
    (h : resetAction w fuel st = some (r, st')) : Keeps xs st st' := by
  obtain ⟨reset, hreset, hst'⟩ := Option.map_eq_some_iff.mp h
  cases hst'
  cases resets_of_run hreset with
  | absent | flushRaised | touchRaised => exact .refl xs st
  | already => exact (Keeps.refl xs st).replace hport _
  | @polled cur e =>
      cases e with
      | hit n port => exact (Keeps.refl xs st).replace hport (.str port.port)
      | timeout n => exact .refl xs st

/-- **A target keeps what it does not assign.** -/
theorem target_keeps {tools : Tools} {w : Serial} {fuel : ℕ} {t : Target} {a : ActionFn}
    (ha : a ∈ Nrf52.actions tools w fuel t target source) (h : a st = some (r, st')) :
    Keeps t.assigned st st' := by
  cases t with
  | flashPyocd | flashJlink =>
      obtain rfl := List.mem_singleton.mp ha
      exact .of_some (uploadSwd_keeps _ _ _ _) h
  | flashUf2 =>
      obtain rfl := List.mem_singleton.mp ha
      exact .of_some (uploadUf2_keeps _) h
  | flashSerialAdafruit =>
      obtain rfl | rfl := List.mem_pair.mp ha
      · exact resetAction_keeps (by decide) h
      · exact .of_some (adafruit_keeps _ _) h
  | flashSerialNordic =>
      obtain rfl | rfl := List.mem_pair.mp ha
      · exact resetAction_keeps (by decide) h
      · exact .of_some (.log _ _ _) h

/-- A builder assigns nothing. -/
theorem build_keeps (tools : Tools) (packagers : Packagers) (pkg : Package) :
    Keeps xs st (pkg.build tools packagers target source st).2 := by
  cases pkg with
  | uf2 =>
      simp only [Package.build]
      cases tools.getUf2conv with
      | none => exact .refl xs st
      | some uf2conv => exact (Keeps.refl xs st).call _ _ _ _
  | dfuAdafruit => exact (Keeps.refl xs st).call _ _ _ _
  | dfuNordic => exact .log xs st _

end Targets

/-- **Every action of a job keeps what its target does not assign.** -/
theorem job_keeps {tools : Tools} {packagers : Packagers} {files : Files} {job : Job}
    {a : ActionFn} (ha : a ∈ job.actions tools packagers files) {st st' : State} {r : Result}
    (h : a st = some (r, st')) : Keeps job.target.assigned st st' := by
  rw [Job.actions] at ha
  rcases List.mem_append.mp ha with hbuild | htarget
  · obtain ⟨pkg, -, rfl⟩ := List.mem_map.mp hbuild
    exact .of_some (build_keeps _ _ _) h
  · exact target_keeps htarget h

section Session

variable {tools : Tools} {packagers : Packagers} {files : Files} {jobs : List Job}
  {st st' : State} {ok : Bool}

/-! ### What a session reports -/

/-- What comes of a job that calls its tool. -/
theorem job_outcomes {job : Job} (hjob : job.target ≠ .flashSerialAdafruit)
    (hplain : ∀ pkg ∈ job.package,
      PlainParts tools packagers pkg (job.target.source files) files.targetHex st)
    (h : runActions (job.actions tools packagers files) st = some (ok, st')) :
    Outcomes (job.calls tools files (st.vars.get? "PYTHONEXE")) st ok st' := by
  rw [Job.actions] at h
  rw [Job.calls]
  cases hpkg : job.package with
  | none =>
      rw [hpkg] at h
      exact .one (actions_outcome hjob h)
  | some pkg =>
      rw [hpkg] at h
      have hbuild := @build_outcome tools packagers (job.target.source files) files.targetHex st
        pkg (hplain pkg hpkg)
      -- the builder assigns nothing, so the target meets the same interpreter
      have hpython := (@build_keeps [] (job.target.source files) files.targetHex st tools packagers
        pkg).vars "PYTHONEXE" List.not_mem_nil
      rw [runActions_append_iff] at h
      simp only [Option.toList_some, List.map_singleton, runActions] at h ⊢
      generalize pkg.build tools packagers (job.target.source files) files.targetHex st = built
        at hbuild hpython h
      cases hfailed : built.1.failed with
      | true =>
          rw [hfailed] at h hbuild
          obtain ⟨hst, rfl⟩ | ⟨st₁, hst, -⟩ := h
          · cases hst
            exact .append_of_false (.one hbuild) _
          · cases hst
      | false =>
          rw [hfailed] at h hbuild
          obtain ⟨hst, -⟩ | ⟨st₁, hst, h⟩ := h
          · cases hst
          · cases hst
            rw [← hpython]
            exact .append (.one (hpython ▸ hbuild)) (.one (actions_outcome hjob h))

/-- A job keeps what its actions do. -/
theorem runActions_keeps {job : Job}
    (h : runActions (job.actions tools packagers files) st = some (ok, st')) :
    Keeps job.target.assigned st st' :=
  runActions_invariant (P := Keeps job.target.assigned st)
    (fun _ ha _ _ _ hstep hst => hst.trans (job_keeps ha hstep)) h (.refl _ st)

/-- **What a session leaves alone**: what none of its targets assigns. -/
theorem session_keeps (h : session tools packagers files jobs st = some (ok, st')) :
    Keeps (jobs.flatMap fun job => job.target.assigned) st st' := by
  refine runActions_invariant (P := Keeps _ st) (fun a ha _ _ _ hstep hst => ?_) h (.refl _ st)
  obtain ⟨job, hjob, ha⟩ := List.mem_flatMap.mp ha
  have hsub : job.target.assigned ⊆ jobs.flatMap fun job => job.target.assigned :=
    fun x hx => List.mem_flatMap.mpr ⟨job, hjob, hx⟩
  exact hst.trans ((job_keeps ha hstep).mono hsub)

/-- A variable that no target assigns. -/
theorem get?_session {x : Str} (hx : ∀ job ∈ jobs, x ∉ job.target.assigned)
    (h : session tools packagers files jobs st = some (ok, st')) :
    st'.vars.get? x = st.vars.get? x := by
  refine (session_keeps h).vars x fun hmem => ?_
  obtain ⟨job, hjob, hmem⟩ := List.mem_flatMap.mp hmem
  exact hx job hjob hmem

/-- The family id is read as it was, if the build directory depends on nothing that is
assigned. -/
theorem getZephyrConfig_keeps {xs ns : List Str} (hclosed : Closed st.vars ns)
    (hdir : "BUILD_DIR".toList ∈ ns) (hkept : ∀ x ∈ ns, x ∉ xs) (h : Keeps xs st st')
    (fs : Str → Option Str) (name : Str) :
    getZephyrConfig fs st'.vars name = getZephyrConfig fs st.vars name := by
  have hpath : configPath st'.vars = configPath st.vars := by
    have hnames : names "$BUILD_DIR" = ["BUILD_DIR".toList] := by decide
    have hsubst := @subst_congr ns st.vars st'.vars hclosed (fun x hx => h.vars x (hkept x hx))
      "$BUILD_DIR" (by rw [hnames]; simpa using hdir)
    rw [configPath, configPath, hsubst]
  rw [getZephyrConfig, getZephyrConfig, hpath]

theorem session_outcomes {st₀ : State} {xs ns : List Str} (hclosed : Closed st₀.vars ns)
    (hdir : "BUILD_DIR".toList ∈ ns) (hkept : ∀ x ∈ ns, x ∉ xs) (hpython : "PYTHONEXE".toList ∉ xs)
    (hjobs : ∀ job ∈ jobs, job.target ≠ .flashSerialAdafruit ∧ job.target.assigned ⊆ xs ∧
      ∀ pkg ∈ job.package,
        PlainParts tools packagers pkg (job.target.source files) files.targetHex st₀)
    (hst : Keeps xs st₀ st) (h : session tools packagers files jobs st = some (ok, st')) :
    Outcomes (jobs.flatMap (Job.calls tools files (st₀.vars.get? "PYTHONEXE"))) st ok st' := by
  induction jobs generalizing st with
  | nil => cases h; exact .done rfl
  | cons job jobs ih =>
      obtain ⟨hne, hsub, hplain⟩ := hjobs job List.mem_cons_self
      -- the parts are plain in the state the job meets, since the family id is the same there
      have hparts : ∀ pkg ∈ job.package,
          PlainParts tools packagers pkg (job.target.source files) files.targetHex st := by
        intro pkg hpkg huf2 uf2conv hconv
        have hid := getZephyrConfig_keeps hclosed hdir hkept hst packagers.files familySymbol
        rw [hid]
        exact hplain pkg hpkg huf2 uf2conv hconv
      have hjob : ∀ {ok st'}, runActions (job.actions tools packagers files) st = some (ok, st') →
          Outcomes (job.calls tools files (st₀.vars.get? "PYTHONEXE")) st ok st' := fun h =>
        hst.vars _ hpython ▸ job_outcomes hne hparts h
      rw [List.flatMap_cons]
      rcases session_cons_iff.mp h with ⟨hfail, rfl⟩ | ⟨st₁, hdone, hrest⟩
      · exact .append_of_false (hjob hfail) _
      · have hst₁ : Keeps xs st₀ st₁ := hst.trans ((runActions_keeps hdone).mono hsub)
        exact .append (hjob hdone)
          (ih (fun job hjob => hjobs job (List.mem_cons_of_mem _ hjob)) hst₁ hrest)

/-- No target assigns the interpreter. -/
theorem python_notMem_assigned (t : Target) : "PYTHONEXE".toList ∉ t.assigned := by
  cases t <;> decide

/-- **A session is reported truly**: the tools that were run are the first of those that were meant,
in order, each on its file, and it is successful iff all were run and succeeded. -/
theorem session_truthful {ns : List Str} (hclosed : Closed st.vars ns)
    (hdir : "BUILD_DIR".toList ∈ ns) (hkept : ∀ job ∈ jobs, ∀ x ∈ job.target.assigned, x ∉ ns)
    (hjobs : ∀ job ∈ jobs, job.target ≠ .flashSerialAdafruit ∧ ∀ pkg ∈ job.package,
      PlainParts tools packagers pkg (job.target.source files) files.targetHex st)
    (h : session tools packagers files jobs st = some (ok, st')) :
    AllTruthful (jobs.flatMap (Job.calls tools files (st.vars.get? "PYTHONEXE"))) st ok st' := by
  have hxs : ∀ x ∈ ns, x ∉ jobs.flatMap fun job => job.target.assigned := by
    intro x hx hmem
    obtain ⟨job, hjob, hassigned⟩ := List.mem_flatMap.mp hmem
    exact hkept job hjob x hassigned hx
  have hpython : "PYTHONEXE".toList ∉ jobs.flatMap fun job => job.target.assigned := by
    intro hmem
    obtain ⟨job, -, hassigned⟩ := List.mem_flatMap.mp hmem
    exact python_notMem_assigned job.target hassigned
  have hall : ∀ job ∈ jobs, job.target ≠ .flashSerialAdafruit ∧
      job.target.assigned ⊆ jobs.flatMap (fun job => job.target.assigned) ∧
      ∀ pkg ∈ job.package,
        PlainParts tools packagers pkg (job.target.source files) files.targetHex st :=
    fun job hjob => ⟨(hjobs job hjob).1, fun x hx => List.mem_flatMap.mpr ⟨job, hjob, hx⟩,
      (hjobs job hjob).2⟩
  exact (session_outcomes hclosed hdir hxs hpython hall (.refl _ st) h).truthful

theorem session_truthful_desk : ∃ st',
    session working packaging merged [uf2Job, jlinkJob] (desk "/b/$PIOENV") = some (true, st') ∧
      AllTruthful ([uf2Job, jlinkJob].flatMap (Job.calls working merged (some (.str "python"))))
        (desk "/b/$PIOENV") true st' := by
  obtain ⟨st', h⟩ : ∃ st', session working packaging merged [uf2Job, jlinkJob]
    (desk "/b/$PIOENV") = some (true, st') := ⟨_, rfl⟩
  have hclosed : Closed (desk "/b/$PIOENV").vars ["BUILD_DIR", "PIOENV"] := by decide
  have hjobs : ∀ job ∈ [uf2Job, jlinkJob], job.target ≠ .flashSerialAdafruit ∧
      ∀ pkg ∈ job.package, PlainParts working packaging pkg (job.target.source merged)
        merged.targetHex (desk "/b/$PIOENV") := by
    intro job hjob
    rcases List.mem_pair.mp hjob with rfl | rfl
    · refine ⟨by decide, fun pkg _ _ uf2conv hconv => ?_⟩
      obtain rfl : uf2conv = "/sdk/uf2conv.py".toList := (Option.some.inj hconv).symm
      decide
    · exact ⟨by decide, fun pkg hpkg => by cases hpkg⟩
  exact ⟨st', h, session_truthful hclosed (by decide) (by decide) hjobs h⟩

end Session

/-! ### Sessions come to an end -/

/-- The job, with other fuel. -/
def Job.withFuel (fuel : ℕ) (job : Job) : Job := { job with fuel := fuel }

section Ends

variable (tools : Tools) (packagers : Packagers) (files : Files)

theorem job_ends {job : Job} (hexp : job.target.serial = true → job.serial.Expires) (st : State) :
    ∃ N ok st', ∀ fuel, N ≤ fuel →
      runActions ((job.withFuel fuel).actions tools packagers files) st = some (ok, st') := by
  have htarget : ∀ st, ∃ N ok st', ∀ fuel, N ≤ fuel → runActions (Nrf52.actions tools job.serial
      fuel job.target ⟨job.target.name, job.target.name⟩ (job.target.source files)) st =
        some (ok, st') := by
    intro st
    cases htarget : job.target with
    | flashPyocd | flashJlink | flashUf2 =>
        exact ⟨0, _, _, fun fuel _ => runActions_singleton rfl⟩
    | flashSerialAdafruit =>
        exact @runTarget_ends tools files _ st "flash_serial_adafruit" _ rfl
          (hexp (by rw [htarget]; rfl))
    | flashSerialNordic =>
        exact @runTarget_ends tools files _ st "flash_serial_nordic" _ rfl
          (hexp (by rw [htarget]; rfl))
  have hactions : ∀ fuel, (job.withFuel fuel).actions tools packagers files =
      (job.package.toList.map fun pkg st => some (pkg.build tools packagers
        (job.target.source files) files.targetHex st)) ++ Nrf52.actions tools job.serial fuel
          job.target ⟨job.target.name, job.target.name⟩ (job.target.source files) := fun _ => rfl
  simp only [hactions]
  cases job.package with
  | none => exact htarget st
  | some pkg =>
      simp only [Option.toList_some, List.map_singleton, List.singleton_append, runActions]
      generalize pkg.build tools packagers (job.target.source files) files.targetHex st = built
      cases hfailed : built.1.failed with
      | true => exact ⟨0, false, built.2, fun fuel _ => if_pos rfl⟩
      | false =>
          obtain ⟨N, ok, st', h⟩ := htarget built.2
          exact ⟨N, ok, st', fun fuel hfuel => (if_neg Bool.false_ne_true).trans (h fuel hfuel)⟩

/-- **Every session comes to an end**, on clocks that reach their deadlines: enough fuel gives its
report. -/
theorem session_ends {jobs : List Job}
    (hexp : ∀ job ∈ jobs, job.target.serial = true → job.serial.Expires) (st : State) :
    ∃ N ok st', ∀ fuel, N ≤ fuel →
      session tools packagers files (jobs.map (Job.withFuel fuel)) st = some (ok, st') := by
  induction jobs generalizing st with
  | nil => exact ⟨0, true, st, fun _ _ => rfl⟩
  | cons job jobs ih =>
      obtain ⟨N, ok, st₁, hjob⟩ :=
        job_ends tools packagers files (hexp job List.mem_cons_self) st
      cases ok with
      | false =>
          refine ⟨N, false, st₁, fun fuel hfuel => ?_⟩
          exact session_cons_iff.mpr (.inl ⟨hjob fuel hfuel, rfl⟩)
      | true =>
          obtain ⟨N', ok, st', hrest⟩ := ih (fun j hj => hexp j (List.mem_cons_of_mem _ hj)) st₁
          refine ⟨max N N', ok, st', fun fuel hfuel => ?_⟩
          exact session_cons_iff.mpr (.inr ⟨st₁, hjob fuel (le_of_max_le_left hfuel),
            hrest fuel (le_of_max_le_right hfuel)⟩)

theorem session_ends_desk : ∃ N ok st', ∀ fuel, N ≤ fuel →
    session working packaging merged ([⟨.flashSerialNordic, true, reenumerating, 0⟩,
      jlinkJob].map (Job.withFuel fuel)) (desk "/b") = some (ok, st') := by
  refine session_ends working packaging merged (fun job hjob hserial => ?_) (desk "/b")
  rcases List.mem_pair.mp hjob with rfl | rfl
  · exact ⟨19, by simp only [Watch.expired, reenumerating, resetTimeout]; norm_num⟩
  · cases hserial

end Ends

/-! ### The environment of the processes -/

/-- The targets that run `west`. -/
def Target.swd : Target → Bool
  | flashPyocd | flashJlink => true
  | flashUf2 | flashSerialAdafruit | flashSerialNordic => false

/-- The variable `ENV` is an object. -/
def HasEnviron (st : State) : Prop := ∃ r < st.heap.length, st.vars.get? "ENV" = some (.dict r)

/-- From `st` to `st'` every process was started in the environment `env`, which is the one that is
left. -/
structure InEnviron (env : Dict Str Str) (st st' : State) : Prop where
  started : ∃ runs, st'.runs = st.runs ++ runs ∧
    ∀ p source status, Run.process p source status ∈ runs → p.env = env
  environ : st'.environ = env
  hasEnviron : HasEnviron st'

namespace InEnviron

variable {env : Dict Str Str} {st st₁ st' : State}

theorem trans (h : InEnviron env st st₁) (h' : InEnviron env st₁ st') : InEnviron env st st' := by
  obtain ⟨runs, hruns, henv⟩ := h.started
  obtain ⟨runs', hruns', henv'⟩ := h'.started
  refine ⟨⟨runs ++ runs', by rw [hruns', hruns, List.append_assoc], ?_⟩, h'.environ, h'.hasEnviron⟩
  intro p source status hp
  rcases List.mem_append.mp hp with hp | hp
  · exact henv p source status hp
  · exact henv' p source status hp

/-- Actions that run nothing, and do not assign `ENV`. -/
theorem of_keeps {xs : List Str} (h : Keeps xs st st') (hx : "ENV".toList ∉ xs)
    (hst : HasEnviron st) (hruns : st'.runs = st.runs) : InEnviron st.environ st st' := by
  obtain ⟨r, hr, hget⟩ := hst
  have hget' : st'.vars.get? "ENV" = some (.dict r) := (h.vars _ hx).trans hget
  refine ⟨⟨[], by rw [hruns, List.append_nil], by simp⟩, ?_, r, ?_, hget'⟩
  · rw [State.environ, State.environ, hget, hget']
    exact h.deref hr
  · exact hr.trans_le h.heap.length_le

/-- A tool that is no process. -/
theorem log_python (hst : HasEnviron st) (function : String) (args : List Str) (returned : Bool) :
    InEnviron st.environ st (st.log (.python function args returned)) :=
  ⟨⟨_, rfl, by simp⟩, rfl, hst⟩

/-- A command starts its process in the environment it meets. -/
theorem call (h : InEnviron env st st') (spawn : Process → ℕ) (a : CommandAction)
    (target source : Node) : InEnviron env st (a.call spawn target source st').2 := by
  rw [CommandAction.call]
  split
  case h_1 => exact h
  case h_2 => exact h
  case h_3 argv _ _ =>
      refine h.trans ⟨⟨_, rfl, ?_⟩, h.environ, h.hasEnviron⟩
      intro p src status hp
      obtain ⟨rfl, -, -⟩ := by simpa using hp
      exact h.environ

end InEnviron

section Environs

variable {tools : Tools} {packagers : Packagers} {files : Files} {st st' : State} {ok : Bool}

theorem swd_environ {spawn : Process → ℕ} {pathsep : Char} {jlinkDir : Option Str} (sdk : Sdk)
    {runner : Str} {target source : Node} (st : State) :
    InEnviron (westEnv pathsep jlinkDir (st.deref sdk.env)) st
      (uploadSwd spawn pathsep jlinkDir (some sdk) runner target source st).2 := by
  have henv : (swdState pathsep jlinkDir sdk runner st).vars.get? "ENV" =
      some (.dict st.heap.length) := Dict.get?_set_self _ _ _
  have hnew : st.heap.length < (swdState pathsep jlinkDir sdk runner st).heap.length := by
    rw [heap_swdState, List.length_append, List.length_singleton]
    exact Nat.lt_succ_self _
  have hst : InEnviron (westEnv pathsep jlinkDir (st.deref sdk.env)) st
      (swdState pathsep jlinkDir sdk runner st) :=
    ⟨⟨[], by rw [runs_swdState, List.append_nil], by simp⟩, environ_swdState _ _ _ _ _,
      _, hnew, henv⟩
  exact hst.call _ _ _ _

/-- The actions of a target that does not run `west` start processes in the environment they
meet. -/
theorem action_environ {job : Job} (hjob : job.target.swd = false) {a : ActionFn} {r : Result}
    (ha : a ∈ job.actions tools packagers files) (hst : HasEnviron st)
    (h : a st = some (r, st')) : InEnviron st.environ st st' := by
  have hrefl : InEnviron st.environ st st :=
    .of_keeps (.refl [] st) (by simp) hst rfl
  have hof : ∀ {step : Result × State}, InEnviron st.environ st step.2 →
      some step = some (r, st') → InEnviron st.environ st st' := by
    intro step hstep heq
    obtain rfl := Option.some.inj heq
    exact hstep
  rw [Job.actions] at ha
  rcases List.mem_append.mp ha with ha | ha
  · obtain ⟨pkg, -, rfl⟩ := List.mem_map.mp ha
    refine hof ?_ h
    cases pkg with
    | uf2 =>
        simp only [Package.build]
        cases tools.getUf2conv with
        | none => exact hrefl
        | some uf2conv => exact hrefl.call _ _ _ _
    | dfuAdafruit => exact hrefl.call _ _ _ _
    | dfuNordic => exact .log_python hst _ _ _
  · have hreset : resetAction job.serial job.fuel st = some (r, st') →
        InEnviron st.environ st st' := by
      intro h
      have hkeeps : Keeps ["UPLOAD_PORT"] st st' := resetAction_keeps (by decide) h
      refine .of_keeps hkeeps (by decide) hst ?_
      obtain ⟨reset, -, hst'⟩ := Option.map_eq_some_iff.mp h
      cases hst'
      rfl
    cases htarget : job.target with
    | flashPyocd | flashJlink => rw [htarget] at hjob; cases hjob
    | flashUf2 =>
        rw [htarget] at ha
        obtain rfl := List.mem_singleton.mp ha
        refine hof ?_ h
        cases hconv : tools.getUf2conv with
        | none => exact hrefl
        | some uf2conv =>
            have hkeeps : Keeps Target.flashUf2.assigned st (uf2State uf2conv st) :=
              (((Keeps.refl _ st).replace (x := "UPLOADER") (by decide) _).replace
                (x := "UPLOADERFLAGS") (by decide) _).replace (x := "UPLOADCMD") (by decide) _
            exact (InEnviron.of_keeps hkeeps (by decide) hst rfl).call _ _ _ _
    | flashSerialAdafruit =>
        rw [htarget] at ha
        obtain rfl | rfl := List.mem_pair.mp ha
        · exact hreset h
        · exact hof (.of_keeps (adafruit_keeps _ _) (by decide) hst (adafruit_result _ _).2) h
    | flashSerialNordic =>
        rw [htarget] at ha
        obtain rfl | rfl := List.mem_pair.mp ha
        · exact hreset h
        · exact hof (.log_python hst _ _ _) h

/-- The environment in which a job leaves the builder: that of `west` if it runs it. -/
def Job.environ (tools : Tools) (sdk : Sdk) (job : Job) (st : State) : Dict Str Str :=
  if job.target.swd then westEnv tools.pathsep tools.jlinkDir (st.deref sdk.env) else st.environ

theorem job_environ {sdk : Sdk} (hsdk : tools.getSdk = some sdk) {job : Job}
    (hst : HasEnviron st)
    (h : runActions (job.actions tools packagers files) st = some (ok, st')) :
    InEnviron (job.environ tools sdk st) st st' := by
  rw [Job.environ]
  cases hswd : job.target.swd with
  | false =>
      refine runActions_invariant (P := InEnviron st.environ st) (fun a ha _ _ _ hstep hst₁ => ?_)
        h (.of_keeps (.refl [] st) (by simp) hst rfl)
      have hact := action_environ hswd ha hst₁.hasEnviron hstep
      rw [hst₁.environ] at hact
      exact hst₁.trans hact
  | true =>
      have hpackage : job.package = none := by
        rw [Job.package]
        cases htarget : job.target with
        | flashPyocd | flashJlink => exact ite_self none
        | flashUf2 | flashSerialAdafruit | flashSerialNordic => rw [htarget] at hswd; cases hswd
      rw [Job.actions, hpackage] at h
      cases htarget : job.target with
      | flashPyocd | flashJlink =>
          rw [htarget] at h
          obtain ⟨-, rfl⟩ := runActions_one h
          rw [hsdk]
          exact swd_environ sdk st
      | flashUf2 | flashSerialAdafruit | flashSerialNordic => rw [htarget] at hswd; cases hswd

/-- What a session has run in, as long as it goes on. -/
theorem environ_of_session {sdk : Sdk} (hsdk : tools.getSdk = some sdk)
    (hmap : sdk.env < st.heap.length) (hst : HasEnviron st) {jobs : List Job}
    (h : session tools packagers files jobs st = some (true, st')) :
    HasEnviron st' ∧ st'.environ = if ∃ job ∈ jobs, job.target.swd = true
      then westEnv tools.pathsep tools.jlinkDir (st.deref sdk.env) else st.environ := by
  induction jobs generalizing st with
  | nil => cases h; simpa using hst
  | cons job jobs ih =>
      obtain ⟨st₁, hjob, hrest⟩ := exists_of_session h
      have hin := job_environ hsdk hst hjob
      have hkeeps := runActions_keeps hjob
      obtain ⟨hst', henv⟩ := ih (hmap.trans_le hkeeps.heap.length_le) hin.hasEnviron hrest
      refine ⟨hst', ?_⟩
      rw [henv, hkeeps.deref hmap, hin.environ, Job.environ]
      simp only [List.exists_mem_cons_iff]
      by_cases hswd : job.target.swd = true
      · simp [hswd]
      · simp [hswd]

/-- **The environment of every process of a session**: that of `west` from the first target that
runs it on, for the tools of the other targets too, and the one there was before.  It is made from
the SDK's map as it was at the start, however often `west` is run. -/
theorem session_environ {sdk : Sdk} (hsdk : tools.getSdk = some sdk)
    (hmap : sdk.env < st.heap.length) (hst : HasEnviron st) {before : List Job} {job : Job}
    {st₁ : State} (hbefore : session tools packagers files before st = some (true, st₁))
    (hjob : runActions (job.actions tools packagers files) st₁ = some (ok, st')) :
    InEnviron (if ∃ j ∈ before ++ [job], j.target.swd = true
      then westEnv tools.pathsep tools.jlinkDir (st.deref sdk.env) else st.environ) st₁ st' := by
  obtain ⟨hst₁, henv⟩ := environ_of_session hsdk hmap hst hbefore
  have hin := job_environ hsdk hst₁ hjob
  rw [Job.environ, (session_keeps hbefore).deref hmap, henv] at hin
  convert hin using 1
  by_cases hswd : job.target.swd = true <;> by_cases hrest : ∃ j ∈ before,
    j.target.swd = true <;> simp [hswd, hrest]

theorem session_environ_desk : ∃ st₁ ok st',
    session working packaging merged [uf2Job] (desk "/b") = some (true, st₁) ∧
      runActions (jlinkJob.actions working packaging merged) st₁ = some (ok, st') ∧
      InEnviron (if ∃ j ∈ [uf2Job] ++ [jlinkJob], j.target.swd = true
        then westEnv ':' none ((desk "/b").deref 0) else (desk "/b").environ) st₁ st' := by
  obtain ⟨st₁, hbefore⟩ := session_desk
  have hjob : runActions (jlinkJob.actions working packaging merged) st₁ = _ :=
    runActions_singleton rfl
  have hst : HasEnviron (desk "/b") := ⟨1, by decide, rfl⟩
  have hsdk : working.getSdk = some ⟨0, "/sdk"⟩ := rfl
  exact ⟨st₁, _, _, hbefore, hjob, session_environ hsdk (by decide) hst hbefore hjob⟩

end Environs

/-! ### The flags that are left -/

/-- The flags a target assigns to `UPLOADERFLAGS`. -/
def Target.flags : Target → Option (List Str)
  | flashUf2 => some ["-D", "-d", "$UPLOAD_PORT"]
  | flashSerialAdafruit =>
      some ["dfu", "serial", "-p", "$UPLOAD_PORT", "-b", "$UPLOAD_SPEED", "--singlebank"]
  | flashPyocd | flashJlink | flashSerialNordic => none

/-- The flags a job assigns. -/
def Job.flags (job : Job) : Option (List Str) := job.target.flags

section Flags

variable {tools : Tools} {packagers : Packagers} {files : Files} {st st' : State} {ok : Bool}

theorem job_flags {job : Job}
    (h : runActions (job.actions tools packagers files) st = some (true, st')) :
    st'.vars.get? "UPLOADERFLAGS" =
      (job.flags.map .list).or (st.vars.get? "UPLOADERFLAGS") := by
  have hkeeps := runActions_keeps h
  rw [Job.flags]
  rw [Job.actions] at h
  obtain ⟨st₁, -, hactions⟩ := exists_of_append h
  cases htarget : job.target with
  | flashPyocd | flashJlink | flashSerialNordic =>
      rw [htarget] at hkeeps
      exact hkeeps.vars _ (by decide)
  | flashUf2 =>
      rw [htarget] at hactions
      obtain ⟨hok, rfl⟩ := runActions_one hactions
      cases hconv : tools.getUf2conv with
      | none => rw [hconv] at hok; cases hok
      | some uf2conv =>
          simp only [uploadUf2Adafruit, CommandAction.call_vars, uf2State, State.replace_vars]
          rw [Dict.get?_set_of_ne _ _ (by decide), Dict.get?_set_self]
          rfl
  | flashSerialAdafruit =>
      rw [htarget] at hactions
      obtain ⟨reset, -, ⟨-, -, hfalse, -⟩ | ⟨-, -, -, rfl⟩⟩ := runActions_reset hactions
      · cases hfalse
      · simp only [uploadSerialAdafruit, State.replace_vars]
        rw [Dict.get?_set_of_ne _ _ (by decide), Dict.get?_set_of_ne _ _ (by decide),
          Dict.get?_set_self]
        rfl

/-- **The flags a session leaves** are those of its last target that has flags of its own. -/
theorem session_flags {jobs : List Job}
    (h : session tools packagers files jobs st = some (true, st')) :
    st'.vars.get? "UPLOADERFLAGS" =
      ((jobs.filterMap Job.flags).getLast?.map .list).or
        (st.vars.get? "UPLOADERFLAGS") := by
  induction jobs generalizing st with
  | nil => cases h; rfl
  | cons job jobs ih =>
      obtain ⟨st₁, hjob, hrest⟩ := exists_of_session h
      rw [ih hrest, job_flags hjob, ← Option.or_assoc]
      congr 1
      cases hflags : job.flags with
      | none => rw [List.filterMap_cons_none hflags, Option.map_none, Option.or_none]
      | some raw =>
          rw [List.filterMap_cons_some hflags]
          cases hlast : jobs.filterMap Job.flags with
          | nil => rfl
          | cons flags rest =>
              obtain ⟨last, hlast⟩ : ∃ last, (flags :: rest).getLast? = some last :=
                ⟨_, List.getLast?_cons⟩
              rw [List.getLast?_cons_cons, hlast]
              rfl

/-- **The next SWD upload hands these flags to `west`**: its arguments are the flags of the last
target that has any, or else those there were before, the build directory and they being words
without quotes. -/
theorem session_swd_argvs {before : List Job} {st₁ : State}
    (hbefore : session tools packagers files before st = some (true, st₁)) {raw : List Str}
    (hraw : (((before.filterMap Job.flags).getLast?.map .list).or
      (st.vars.get? "UPLOADERFLAGS")).getD (.list []) = .list raw)
    {sdk : Sdk} {runner : Str} (hrunner : runner ∈ ["pyocd".toList, "jlink".toList])
    {target source : Node} {buildDir : Str}
    (hbuild : swdBuildDir tools.pathsep tools.jlinkDir sdk runner target source st₁ = buildDir)
    {flags : List Str}
    (hflags : swdFlags tools.pathsep tools.jlinkDir sdk runner target source st₁ raw = flags) :
    argvs st₁ (uploadSwd tools.spawn tools.pathsep tools.jlinkDir (some sdk) runner target source
        st₁).2 =
        [["west".toList, "flash".toList, "-r".toList, runner, "--build-dir".toList, buildDir,
          "--".toList] ++ flags] ↔
      ∀ w ∈ buildDir :: flags, Solid w ∧ '"' ∉ w := by
  have hline := @line_swd tools.pathsep tools.jlinkDir sdk runner st₁ target source hrunner
    "Uploading $SOURCE" (some sdk.sdkPath)
  rw [← session_flags hbefore] at hraw
  rw [hbuild, ref_swdFlags hraw, hflags] at hline
  have hargvs := @CommandAction.argvs_iff tools.spawn ⟨"$UPLOADCMD", "Uploading $SOURCE",
    some sdk.sdkPath⟩ target source _ st₁
    (runs_swdState tools.pathsep tools.jlinkDir sdk runner st₁)
    (["west".toList, "flash".toList, "-r".toList, runner, "--build-dir".toList, buildDir,
      "--".toList] ++ flags) (by simp)
  rw [hline] at hargvs
  exact hargvs.trans (shellWords_swd_iff hrunner)

theorem session_swd_argvs_desk : ∃ st₁,
    session working packaging merged [uf2Job] (desk "/b") = some (true, st₁) ∧
      argvs st₁ (uploadSwd working.spawn ':' none (some ⟨0, "/sdk"⟩) "jlink"
        ⟨"flash_jlink", "flash_jlink"⟩ merged.targetHex st₁).2 =
        [["west".toList, "flash".toList, "-r".toList, "jlink".toList, "--build-dir".toList,
          "/b".toList, "--".toList] ++ ["-D".toList, "-d".toList, "COM4".toList]] := by
  obtain ⟨st₁, hbefore⟩ := session_desk
  have hport : st₁.vars.get? "UPLOAD_PORT" = some (.str "COM4") :=
    (session_keeps hbefore).vars _ (by decide)
  have hflags : swdFlags ':' none ⟨0, "/sdk"⟩ "jlink" ⟨"flash_jlink", "flash_jlink"⟩
      merged.targetHex st₁ ["-D", "-d", "$UPLOAD_PORT"] =
        ["-D".toList, "-d".toList, "COM4".toList] := by
    have hget : ((swdVars ':' none ⟨0, "/sdk"⟩ "jlink" ⟨"flash_jlink", "flash_jlink"⟩
        merged.targetHex st₁).erase "UPLOADERFLAGS").get? "UPLOAD_PORT" = some (.str "COM4") := by
      rw [Dict.get?_erase_of_ne _ (by decide), get?_swdVars (by decide) (by decide), hport]
    have hvalue := subst_stored "UPLOAD_PORT" (by decide) hget (by decide)
    rw [swdFlags, List.map_cons, List.map_cons, List.map_singleton, subst_plain _ (by decide),
      subst_plain _ (by decide)]
    exact congrArg (fun port => [_, _, port]) hvalue
  have hdir : st₁.vars.get? "BUILD_DIR" = some (.str "/b") :=
    (session_keeps hbefore).vars _ (by decide)
  exact ⟨st₁, hbefore, (session_swd_argvs hbefore rfl (by decide) (swdBuildDir_eq hdir (by decide))
    hflags).mpr (by decide)⟩

end Flags

end Nrf52
