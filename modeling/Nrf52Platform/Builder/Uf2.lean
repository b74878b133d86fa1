import Nrf52Platform.Builder.ZephyrConfig
import Nrf52Platform.Scons.Actions

/-!
# Builder — Uf2

`build_uf2` of `builder/main.py`: the command that runs the UF2 converter, whose parts are joined
with spaces and not quoted, while the other commands of the builder quote the interpreter and the
tool.

* `argvs_buildUf2`: the converter gets the words of the parts.
* `convertsAsIntended_iff`: when it gets the intended arguments.  A blank in a path is cut at, and
  a symbol that is not set is passed on as the family id `None`.
-/

namespace Nrf52
open Py Scons Shell

/-- The symbol of the family id. -/
def familySymbol : Str := "CONFIG_BUILD_OUTPUT_UF2_FAMILY_ID"

/-- `str(family_id)`. -/
def strFamilyId (familyId : Option Str) : Str := familyId.getD "None"

/-- `build_uf2(target, source, env)`; `uf2conv` is what `get_uf2conv` gives, none when it
raises. -/
def buildUf2 (spawn : Process → ℕ) (fs : Str → Option Str) (uf2conv : Option Str)
    (target source : Node) (st : State) : Result × State :=
  let familyId := getZephyrConfig fs st.vars familySymbol
  match uf2conv with
  | none => (.raised, st)
  | some uf2conv =>
      let cmd : CommandAction := {
        cmd := join " " ["$PYTHONEXE", uf2conv, source.abspath, "-c", "-f", strFamilyId familyId,
          "-o", target.abspath]
        strfunction := "Building $TARGET"
        chdir := none }
      cmd.call spawn target source st

/-! ### The arguments of the converter -/

/-- The arguments of the converter, for a family id. -/
def uf2Args (python uf2conv : Str) (target source : Node) (id : Str) : List Str :=
  [python, uf2conv, source.abspath, "-c", "-f", id, "-o", target.abspath]

section Converter

variable {spawn : Process → ℕ} {fs : Str → Option Str} {target source : Node} {st : State}
  {python uf2conv : Str}

/-- What holds of the paths, of the family id and of the options holds of the arguments. -/
theorem forall_uf2Args {P : Str → Prop} {id : Str}
    (hpath : ∀ p ∈ [python, uf2conv, source.abspath, target.abspath], P p) (hid : P id)
    (hopt : ∀ l ∈ ["-c".toList, "-f".toList, "-o".toList], P l) :
    ∀ w ∈ uf2Args python uf2conv target source id, P w := by
  intro w hw
  have hw' : w ∈ [python, uf2conv, source.abspath, target.abspath] ∨ w = id ∨
      w ∈ ["-c".toList, "-f".toList, "-o".toList] := by
    simp only [uf2Args, List.mem_cons, List.not_mem_nil, or_false] at hw ⊢
    tauto
  rcases hw' with hw' | rfl | hw'
  · exact hpath w hw'
  · exact hid
  · exact hopt w hw'

theorem notMem_uf2Args (hpaths : ∀ p ∈ [python, uf2conv, source.abspath, target.abspath],
    CleanPath p) {id : Str} {c : Char} (hc : c ∈ ['"', '$']) (hid : c ∉ id) :
    ∀ w ∈ uf2Args python uf2conv target source id, c ∉ w := by
  refine forall_uf2Args (fun p hp => (hpaths p hp).2 c ?_) hid ?_
  · rcases List.mem_pair.mp hc with rfl | rfl <;> decide
  · rcases List.mem_pair.mp hc with rfl | rfl <;> decide

/-- **The converter gets the words of the parts.** -/
theorem argvs_buildUf2 (hpython : st.vars.get? "PYTHONEXE" = some (.str python))
    (hpaths : ∀ p ∈ [python, uf2conv, source.abspath, target.abspath], CleanPath p) {id : Str}
    (hid : strFamilyId (getZephyrConfig fs st.vars familySymbol) = id)
    (hplain : ∀ c ∈ ['"', '$'], c ∉ id) :
    argvs st (buildUf2 spawn fs (some uf2conv) target source st).2 =
      [(uf2Args python uf2conv target source id).flatMap words] := by
  have hget : (cmdVars st.vars target source).get? "PYTHONEXE" = some (.str python) := by
    rw [get?_cmdVars _ _ _ (by decide), hpython]
  have hline : CommandAction.line ⟨join " " ["$PYTHONEXE", uf2conv, source.abspath, "-c", "-f", id,
      "-o", target.abspath], "Building $TARGET", none⟩ target source st =
      join " " (uf2Args python uf2conv target source id) := by
    have hdollar := notMem_uf2Args hpaths (by simp) (hplain '$' (by simp))
    rw [uf2Args, List.forall_mem_cons] at hdollar
    have hsubst := subst_command (cmdVars st.vars target source) (x := "PYTHONEXE".toList)
      (by decide) hdollar.2
    rwa [ref_str hget hdollar.1] at hsubst
  have hquote : '"' ∉ join " " (uf2Args python uf2conv target source id) := by
    intro h
    rcases mem_join h with h | ⟨w, hw, h⟩
    · exact absurd h (by decide)
    · exact notMem_uf2Args hpaths (by simp) (hplain '"' (by simp)) w hw h
  have hne : (uf2Args python uf2conv target source id).flatMap words ≠ [] := by
    intro h
    have hc : "-c".toList ∈ (uf2Args python uf2conv target source id).flatMap words :=
      List.mem_flatMap.mpr ⟨"-c".toList, by simp [uf2Args], by decide⟩
    simp [h] at hc
  rw [buildUf2, hid, CommandAction.argvs_iff rfl hne, hline, shellWords_of_unquoted hquote,
    words_join]

end Converter

/-! ### The intended arguments -/

/-- A text of letters and digits, and not empty. -/
def Alnum (v : Str) : Prop := v ≠ [] ∧ ∀ c ∈ v, c.isAlphanum = true

theorem Alnum.plain {v : Str} (hv : Alnum v) {c : Char} (hc : c ∈ v) :
    isspace c = false ∧ c ≠ '"' ∧ c ≠ '$' ∧ isBlank c = false := by
  have hrange := toNat_of_isAlphanum (hv.2 c hc)
  have hne : ∀ d : Char, d.toNat < 48 → c ≠ d := by
    intro d hd h
    subst h
    omega
  refine ⟨?_, hne _ (by decide), hne _ (by decide), ?_⟩
  · simp only [isspace, Bool.or_eq_false_iff, Bool.and_eq_false_iff, decide_eq_false_iff_not,
      beq_eq_false_iff_ne]
    omega
  · simp [isBlank, hne ' ' (by decide), hne '\t' (by decide), hne '\n' (by decide)]

/-- The configuration assigns the family id. -/
def FamilyAssigned (fs : Str → Option Str) (vars : Vars) : Prop :=
  ∃ text, fs (configPath vars) = some text ∧ Assigns text familySymbol

/-- The configuration sets the family id to `v`. -/
def FamilySet (fs : Str → Option Str) (vars : Vars) (v : Str) : Prop :=
  ∃ text, fs (configPath vars) = some text ∧ SetTo text familySymbol v

/-- What is expected of the conversion: a family id that is set to letters and digits is passed
on, in the intended arguments; without one, no process gets a family id. -/
def ConvertsAsIntended (spawn : Process → ℕ) (fs : Str → Option Str) (python uf2conv : Str)
    (target source : Node) (st : State) : Prop :=
  (∀ v, FamilySet fs st.vars v → Alnum v →
    argvs st (buildUf2 spawn fs (some uf2conv) target source st).2 =
      [uf2Args python uf2conv target source v]) ∧
  (¬ FamilyAssigned fs st.vars →
    ∀ argv ∈ argvs st (buildUf2 spawn fs (some uf2conv) target source st).2,
      ∀ id, ¬ ["-f".toList, id] <:+: argv)

section Intended

variable {spawn : Process → ℕ} {fs : Str → Option Str} {target source : Node} {st : State}
  {python uf2conv : Str}

theorem familyId_of_set {v : Str} (h : FamilySet fs st.vars v) (hv : Alnum v) :
    strFamilyId (getZephyrConfig fs st.vars familySymbol) = v := by
  obtain ⟨text, hfs, hset⟩ := h
  rw [getZephyrConfig_of_setTo hfs (by decide) (fun c hc => ⟨(hv.plain hc).1, (hv.plain hc).2.1⟩)
    hset]
  rfl

/-- A symbol that is not set is passed on as the text `None`. -/
theorem familyId_of_not_assigned (h : ¬ FamilyAssigned fs st.vars) :
    strFamilyId (getZephyrConfig fs st.vars familySymbol) = "None".toList := by
  cases hfs : fs (configPath st.vars) with
  | none => rw [getZephyrConfig, hfs]; rfl
  | some text => rw [getZephyrConfig_of_not_assigns hfs fun ha => h ⟨text, hfs, ha⟩]; rfl

/-- The arguments come back from the command line iff none has a blank. -/
theorem flatMap_words_uf2Args {v : Str} (hv : Alnum v)
    (hpaths : ∀ p ∈ [python, uf2conv, source.abspath, target.abspath], CleanPath p) :
    (uf2Args python uf2conv target source v).flatMap words =
        uf2Args python uf2conv target source v ↔
      ∀ p ∈ [python, uf2conv, source.abspath, target.abspath], ∀ c ∈ p, isBlank c = false := by
  refine ⟨?_, ?_⟩
  · intro h p hp
    have hmem : p ∈ (uf2Args python uf2conv target source v).flatMap words := by
      rw [h]
      simp only [uf2Args, List.mem_cons, List.not_mem_nil, or_false] at hp ⊢
      tauto
    obtain ⟨w, -, hpw⟩ := List.mem_flatMap.mp hmem
    exact (solid_of_mem_words hpw).2
  · intro h
    have hpath : ∀ p ∈ [python, uf2conv, source.abspath, target.abspath], Solid p :=
      fun p hp => ⟨(hpaths p hp).1, h p hp⟩
    have hlit : ∀ l ∈ ["-c".toList, "-f".toList, "-o".toList], Solid l := by decide
    have hid : Solid v := ⟨hv.1, fun c hc => (hv.plain hc).2.2.2⟩
    exact flatMap_words_of_solid (forall_uf2Args hpath hid hlit)

/-- The text `None` arrives as a family id. -/
theorem infix_none : ["-f".toList, "None".toList] <:+:
    (uf2Args python uf2conv target source "None").flatMap words := by
  refine ⟨[python, uf2conv, source.abspath, "-c".toList].flatMap words,
    ["-o".toList, target.abspath].flatMap words, ?_⟩
  have hid : ["-f".toList, "None".toList] = ["-f".toList, "None".toList].flatMap words := by
    decide
  conv_lhs => rw [hid]
  rw [← List.flatMap_append, ← List.flatMap_append]
  rfl

/-- **When the converter gets the intended arguments**: the family id is assigned, and, when it is
set to letters and digits, none of the paths has a blank. -/
theorem convertsAsIntended_iff (hpython : st.vars.get? "PYTHONEXE" = some (.str python))
    (hpaths : ∀ p ∈ [python, uf2conv, source.abspath, target.abspath], CleanPath p) :
    ConvertsAsIntended spawn fs python uf2conv target source st ↔
      FamilyAssigned fs st.vars ∧ ((∃ v, FamilySet fs st.vars v ∧ Alnum v) →
        ∀ p ∈ [python, uf2conv, source.abspath, target.abspath], ∀ c ∈ p, isBlank c = false) := by
  have hargs : ∀ {v}, FamilySet fs st.vars v → Alnum v →
      (argvs st (buildUf2 spawn fs (some uf2conv) target source st).2 =
        [uf2Args python uf2conv target source v] ↔
        ∀ p ∈ [python, uf2conv, source.abspath, target.abspath], ∀ c ∈ p, isBlank c = false) := by
    intro v hset hv
    have hplain : ∀ c ∈ ['"', '$'], c ∉ v := by
      intro c hc hcv
      rcases List.mem_pair.mp hc with rfl | rfl
      · exact (hv.plain hcv).2.1 rfl
      · exact (hv.plain hcv).2.2.1 rfl
    rw [argvs_buildUf2 hpython hpaths (familyId_of_set hset hv) hplain, List.cons.injEq,
      flatMap_words_uf2Args hv hpaths]
    exact and_iff_left rfl
  refine ⟨?_, ?_⟩
  · rintro ⟨hset, hunset⟩
    -- without a symbol the text `None` stands behind `-f`
    refine ⟨?_, fun ⟨v, hv, halnum⟩ => (hargs hv halnum).mp (hset v hv halnum)⟩
    by_contra hno
    have hargv : argvs st (buildUf2 spawn fs (some uf2conv) target source st).2 = _ :=
      argvs_buildUf2 hpython hpaths (familyId_of_not_assigned hno) (by decide)
    exact hunset hno _ (by rw [hargv]; exact List.mem_singleton_self _) "None" infix_none
  · rintro ⟨hassigned, hblank⟩
    exact ⟨fun v hset hv => (hargs hset hv).mpr (hblank ⟨v, hset, hv⟩),
      fun hno => absurd hassigned hno⟩

end Intended

/-- An environment with the given interpreter. -/
def withPython (python : Str) : State := ⟨.ofList [("PYTHONEXE", .str python)], [], []⟩

/-- A configuration that sets the family id. -/
def feather : Str := "CONFIG_SOC=\"nrf52840\"\nCONFIG_BUILD_OUTPUT_UF2_FAMILY_ID=\"0xADA52840\"\n"

theorem convertsAsIntended_iff_feather :
    ConvertsAsIntended (fun _ => 0) (fun _ => some feather) "/usr/bin/python3" "/sdk/uf2conv.py"
      ⟨"merged.uf2", "/b/merged.uf2"⟩ ⟨"merged.hex", "/b/merged.hex"⟩
      (withPython "/usr/bin/python3") := by
  refine (convertsAsIntended_iff rfl (by decide)).mpr ⟨⟨feather, rfl, ?_⟩, fun _ => by decide⟩
  exact ⟨"CONFIG_BUILD_OUTPUT_UF2_FAMILY_ID=\"0xADA52840\"\n", by decide, by decide⟩

theorem not_convertsAsIntended :
    ¬ ConvertsAsIntended (fun _ => 0) (fun _ => some feather) "/my env/python3" "/sdk/uf2conv.py"
        ⟨"merged.uf2", "/b/merged.uf2"⟩ ⟨"merged.hex", "/b/merged.hex"⟩
        (withPython "/my env/python3") ∧
      ¬ ConvertsAsIntended (fun _ => 0) (fun _ => none) "/usr/bin/python3" "/sdk/uf2conv.py"
        ⟨"merged.uf2", "/b/merged.uf2"⟩ ⟨"merged.hex", "/b/merged.hex"⟩
        (withPython "/usr/bin/python3") := by
  refine ⟨?_, ?_⟩
  · intro h
    have hset : FamilySet (fun _ => some feather) (withPython "/my env/python3").vars
        "0xADA52840" :=
      ⟨feather, rfl, ["CONFIG_SOC=\"nrf52840\"\n"],
        "CONFIG_BUILD_OUTPUT_UF2_FAMILY_ID=\"0xADA52840\"\n", [], by decide, by decide,
        "\"0xADA52840\"", by decide, [], "\n", by decide, by decide, by decide⟩
    exact absurd (h.1 _ hset ⟨by decide, by decide⟩) (by decide)
  · intro h
    have hno : ¬ FamilyAssigned (fun _ => none) (withPython "/usr/bin/python3").vars := by
      rintro ⟨_, hfs, -⟩
      cases hfs
    exact h.2 hno ["/usr/bin/python3", "/sdk/uf2conv.py", "/b/merged.hex", "-c", "-f", "None", "-o",
      "/b/merged.uf2"] (by decide) "None" (by decide)

end Nrf52
