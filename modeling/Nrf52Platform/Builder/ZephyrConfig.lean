import Nrf52Platform.Scons.Subst

/-!
# Builder — ZephyrConfig

`get_zephyr_config` of `builder/main.py`, against the `.config` files that Kconfig writes.

* `getZephyrConfig_text`: on such a file the scan by lines is a scan through the entries.
* `getZephyrConfig_reads`: a symbol's value is read back, whatever the other entries are; a symbol
  that is not assigned reads as none.
* `getZephyrConfig_of_setTo`: in any file, what is read is what the first line that assigns the
  symbol sets.
-/

namespace Nrf52
open Py Scons

/-- The path of the configuration. -/
def configPath (vars : Vars) : Str :=
  pathJoin (subst vars "$BUILD_DIR") ["zephyr", "zephyr", ".config"]

/-- What a line gives for `name`: nothing, when it does not start with `name=`. -/
def readLine (name line : Str) : Option Str :=
  if (name ++ ['=']).isPrefixOf line then
    -- the line has an `=`, so the split has a second part
    (split1 '=' line)[1]?.map fun value => stripChar '"' (strip value)
  else none

/-- `get_zephyr_config(env, name)`; `fs` gives the text of each file there is. -/
def getZephyrConfig (fs : Str → Option Str) (vars : Vars) (name : Str) : Option Str :=
  match fs (configPath vars) with
  | none => none
  | some text => (lines (universalNewlines text)).findSome? (readLine name)

/-! ### Lines -/

/-- Only a line that starts with `name=` gives something. -/
theorem readLine_eq_none {name line : Str} (h : ¬ name ++ ['='] <+: line) :
    readLine name line = none := by
  rw [readLine, if_neg (by rwa [List.isPrefixOf_iff_prefix])]

/-- A line that assigns `name` gives the text right of the `=`, both strips applied. -/
theorem readLine_assign {name : Str} (hname : '=' ∉ name) (value : Str) :
    readLine name (name ++ '=' :: value) = some (stripChar '"' (strip value)) := by
  rw [readLine, if_pos (by rw [List.isPrefixOf_iff_prefix]; exact ⟨value, by simp⟩),
    split1_first hname]
  rfl

/-- A line's newline is not seen. -/
theorem readLine_newline {name : Str} (hname : '=' ∉ name) (line : Str) :
    readLine name (line ++ ['\n']) = readLine name line := by
  by_cases h : name ++ ['='] <+: line
  · obtain ⟨value, rfl⟩ := h
    have hnl : ∀ c ∈ ['\n'], isspace c = true := by decide
    have hline : ∀ t, name ++ ['='] ++ t = name ++ '=' :: t := fun t => by simp
    rw [List.append_assoc, hline, hline, readLine_assign hname, readLine_assign hname, strip,
      strip, strip_append value hnl]
  · rw [readLine_eq_none h, readLine_eq_none]
    rw [List.prefix_concat_iff, not_or]
    refine ⟨fun heq => ?_, h⟩
    have hlast := congrArg List.getLast? heq
    simp at hlast

/-! ### The files Kconfig writes -/

/-- What a symbol's name is made of. -/
def isSymbolChar (c : Char) : Bool := c.isAlphanum || c == '_'

/-- A symbol: its name. -/
structure Symbol where
  name : Str
  chars : ∀ c ∈ name, isSymbolChar c = true

/-- A text on one line. -/
structure Line where
  text : Str
  no_lf : '\n' ∉ text
  no_cr : '\r' ∉ text

/-- An entry: a bool, int or hex symbol, a string, a symbol that is not set, a comment, or a blank
line. -/
inductive Entry where
  | value (sym : Symbol) (v : Line)
  | string (sym : Symbol) (s : Line)
  | notSet (sym : Symbol)
  | comment (s : Line)
  | blank

/-- Quotes and backslashes with a backslash in front. -/
def escape (s : Str) : Str := s.flatMap fun c => if c = '"' ∨ c = '\\' then ['\\', c] else [c]

namespace Entry

/-- The symbol an entry is about. -/
def symbol : Entry → Option Str
  | value sym _ | string sym _ | notSet sym => some sym.name
  | comment _ | blank => none

/-- The symbol an entry assigns, with the text right of the `=`. -/
def assigned : Entry → Option (Str × Str)
  | value sym v => some (sym.name, v.text)
  | string sym s => some (sym.name, '"' :: (escape s.text ++ ['"']))
  | notSet _ | comment _ | blank => none

/-- An entry's line. -/
def render : Entry → Str
  | value sym v => sym.name ++ '=' :: v.text
  | string sym s => sym.name ++ '=' :: '"' :: (escape s.text ++ ['"'])
  | notSet sym => "# ".toList ++ sym.name ++ " is not set".toList
  | comment s => '#' :: s.text
  | blank => []

end Entry

/-- A configuration: entries, at most one about each symbol. -/
structure Config where
  entries : List Entry
  distinct : (entries.filterMap Entry.symbol).Nodup

/-- The text of a configuration, with or without a final newline. -/
def Config.text (cfg : Config) (final : Bool) : Str := unlines final (cfg.entries.map Entry.render)

theorem Symbol.notMem (sym : Symbol) {c : Char} (hc : isSymbolChar c = false) : c ∉ sym.name :=
  fun h => by rw [sym.chars c h] at hc; cases hc

theorem escape_notMem {s : Str} {c : Char} (hc : c ≠ '\\') (hs : c ∉ s) : c ∉ escape s := by
  intro h
  obtain ⟨d, hd, hcd⟩ := List.mem_flatMap.mp h
  split at hcd
  case isTrue =>
      rcases List.mem_cons.mp hcd with rfl | hcd
      · exact hc rfl
      · exact hs (List.mem_singleton.mp hcd ▸ hd)
  case isFalse => exact hs (List.mem_singleton.mp hcd ▸ hd)

/-- A text without quotes and backslashes is not escaped. -/
theorem escape_eq {s : Str} (hq : '"' ∉ s) (hb : '\\' ∉ s) : escape s = s := by
  induction s with
  | nil => rfl
  | cons c s ih =>
      have hc : ¬ (c = '"' ∨ c = '\\') := by
        rintro (rfl | rfl)
        · exact hq List.mem_cons_self
        · exact hb List.mem_cons_self
      rw [escape, List.flatMap_cons, if_neg hc, List.singleton_append, ← escape,
        ih (fun h => hq (List.mem_cons_of_mem _ h)) (fun h => hb (List.mem_cons_of_mem _ h))]

/-- A line break, which no entry's line has. -/
theorem Entry.notMem_render (e : Entry) {c : Char} (hc : c = '\n' ∨ c = '\r') : c ∉ e.render := by
  have hsym : isSymbolChar c = false := by rcases hc with rfl | rfl <;> decide
  have hbreak : ∀ l : Line, c ∉ l.text := by
    intro l
    rcases hc with rfl | rfl
    · exact l.no_lf
    · exact l.no_cr
  have hlit : c ≠ '=' ∧ c ≠ '"' ∧ c ≠ '\\' ∧ c ≠ '#' ∧ c ∉ "# ".toList ∧
      c ∉ " is not set".toList := by rcases hc with rfl | rfl <;> decide
  obtain ⟨heq, hquote, hback, hhash, hnot, hset⟩ := hlit
  cases e with
  | value sym v => simp [render, sym.notMem hsym, heq, hbreak v]
  | string sym s =>
      simp [render, sym.notMem hsym, heq, hquote, escape_notMem hback (hbreak s)]
  | notSet sym => simp only [render, List.mem_append, sym.notMem hsym, hnot, hset, or_self,
      not_false_eq_true]
  | comment s => simp [render, hhash, hbreak s]
  | blank => simp [render]

/-! ### Reading them back -/

/-- What an entry gives for `name`. -/
def Entry.read (name : Str) (e : Entry) : Option Str :=
  match e.assigned with
  | none => none
  | some (n, raw) => if n = name then some (stripChar '"' (strip raw)) else none

/-- The only entry that gives something for a symbol is the one about it. -/
theorem Entry.symbol_of_read {name v : Str} {e : Entry} (h : e.read name = some v) :
    e.symbol = some name := by
  cases e with
  | value sym _ | string sym _ =>
      simp only [read, assigned, Option.ite_none_right_eq_some] at h
      rw [symbol, h.1]
  | notSet _ | comment _ | blank => cases h

/-- An entry that gives something for a symbol assigns it. -/
theorem Entry.assigns_of_read {sym : Symbol} {v : Str} {e : Entry} (h : e.read sym.name = some v) :
    ∃ l, e = .value sym l ∨ e = .string sym l := by
  have hsym : ∀ s : Symbol, s.name = sym.name → s = sym := fun ⟨n, _⟩ hn => by subst hn; rfl
  cases e with
  | value s l | string s l =>
      simp only [read, assigned, Option.ite_none_right_eq_some] at h
      obtain rfl := hsym s h.1
      exact ⟨l, by simp⟩
  | notSet _ | comment _ | blank => cases h

/-- A line assigns one name. -/
theorem name_eq_of_assign {name n value : Str} (hname : '=' ∉ name) (hn : '=' ∉ n)
    (h : name ++ ['='] <+: n ++ '=' :: value) : n = name := by
  obtain ⟨t, ht⟩ := h
  have hsplit := congrArg (split1 '=') ht
  rw [List.append_assoc, List.singleton_append, split1_first hname, split1_first hn] at hsplit
  exact (List.cons.inj hsplit).1.symm

theorem readLine_assignment {name n : Str} (hname : '=' ∉ name) (hn : '=' ∉ n) (value : Str) :
    readLine name (n ++ '=' :: value) =
      if n = name then some (stripChar '"' (strip value)) else none := by
  split
  case isTrue h => rw [h, readLine_assign hname]
  case isFalse h => exact readLine_eq_none fun hp => h (name_eq_of_assign hname hn hp)

/-- **A line is read as its entry.** -/
theorem readLine_render (sym : Symbol) (e : Entry) :
    readLine sym.name e.render = e.read sym.name := by
  have heq : ∀ s : Symbol, '=' ∉ s.name := fun s => s.notMem (by decide)
  have hhash : ∀ t : Str, ¬ sym.name ++ ['='] <+: '#' :: t := by
    rintro t ⟨u, hu⟩
    cases hs : sym.name with
    | nil => simp [hs] at hu
    | cons c cs =>
        have hc : c = '#' := by rw [hs] at hu; exact (List.cons.inj hu).1
        exact sym.notMem (c := '#') (by decide) (by simp [hs, hc])
  cases e with
  | value s v => exact readLine_assignment (heq sym) (heq s) v.text
  | string s t => exact readLine_assignment (heq sym) (heq s) _
  | notSet s => exact readLine_eq_none (hhash _)
  | comment t => exact readLine_eq_none (hhash _)
  | blank => exact readLine_eq_none fun h => by simpa using List.prefix_nil.mp h

/-- **A scan by lines is a scan through the entries.** -/
theorem getZephyrConfig_text {cfg : Config} {final : Bool} {fs : Str → Option Str} {vars : Vars}
    (hfs : fs (configPath vars) = some (cfg.text final)) (sym : Symbol) :
    getZephyrConfig fs vars sym.name = cfg.entries.findSome? (Entry.read sym.name) := by
  have hbreak : ∀ l ∈ cfg.entries.map Entry.render, ∀ c, c = '\n' ∨ c = '\r' → c ∉ l := by
    intro l hl c hc
    obtain ⟨e, -, rfl⟩ := List.mem_map.mp hl
    exact e.notMem_render hc
  have hcr : '\r' ∉ cfg.text final := by
    intro h
    rcases mem_unlines h with h | ⟨l, hl, hc⟩
    · cases h
    · exact hbreak l hl _ (.inr rfl) hc
  have hblank : readLine sym.name [] = none := readLine_render sym .blank
  rw [getZephyrConfig, hfs]
  simp only [universalNewlines_id hcr]
  rw [Config.text, findSome_lines_unlines
    (fun l _ => readLine_newline (sym.notMem (by decide)) l) hblank final
    (fun l hl => hbreak l hl _ (.inl rfl)), List.findSome?_map]
  exact congrFun (congrArg _ (funext (readLine_render sym))) _

/-- The entry about a symbol decides. -/
theorem findSome_read {entries : List Entry} (h : (entries.filterMap Entry.symbol).Nodup)
    {name v : Str} {e : Entry} (he : e ∈ entries) (hread : e.read name = some v) :
    entries.findSome? (Entry.read name) = some v := by
  induction entries with
  | nil => cases he
  | cons e' es ih =>
      rw [List.findSome?_cons]
      rcases List.mem_cons.mp he with rfl | hes
      · rw [hread]
      · have hname : name ∈ es.filterMap Entry.symbol :=
          List.mem_filterMap.mpr ⟨e, hes, Entry.symbol_of_read hread⟩
        cases hread' : e'.read name with
        | none => exact ih (h.sublist ((List.sublist_cons_self e' es).filterMap _)) hes
        | some v' =>
            rw [List.filterMap_cons_some (Entry.symbol_of_read hread')] at h
            exact absurd hname (List.nodup_cons.mp h).1

/-- What a scan finds, some entry gives. -/
theorem findSome_read_eq_some_iff (cfg : Config) {name v : Str} :
    cfg.entries.findSome? (Entry.read name) = some v ↔
      ∃ e ∈ cfg.entries, e.read name = some v :=
  ⟨List.exists_of_findSome?_eq_some, fun ⟨_, he, hread⟩ => findSome_read cfg.distinct he hread⟩

/-- **A symbol's value is read back** from any configuration Kconfig writes: an unquoted value
without white space and quotes, and a string without quotes and backslashes, exactly; a symbol
that is not assigned, and an absent file, as none.  The entries about other symbols do not
matter. -/
theorem getZephyrConfig_reads {cfg : Config} {final : Bool} {fs : Str → Option Str} {vars : Vars}
    (hfs : fs (configPath vars) = some (cfg.text final)) (sym : Symbol) :
    (∀ v : Line, .value sym v ∈ cfg.entries → (∀ c ∈ v.text, isspace c = false ∧ c ≠ '"') →
      getZephyrConfig fs vars sym.name = some v.text) ∧
    (∀ s : Line, .string sym s ∈ cfg.entries → '"' ∉ s.text → '\\' ∉ s.text →
      getZephyrConfig fs vars sym.name = some s.text) ∧
    ((∀ v, .value sym v ∉ cfg.entries ∧ .string sym v ∉ cfg.entries) →
      getZephyrConfig fs vars sym.name = none) ∧
    (∀ fs', fs' (configPath vars) = none → getZephyrConfig fs' vars sym.name = none) ∧
    ∀ (cfg' : Config) (final' : Bool) (fs' : Str → Option Str),
      fs' (configPath vars) = some (cfg'.text final') →
      (∀ e : Entry, e.symbol = some sym.name → (e ∈ cfg'.entries ↔ e ∈ cfg.entries)) →
      getZephyrConfig fs' vars sym.name = getZephyrConfig fs vars sym.name := by
  rw [getZephyrConfig_text hfs]
  refine ⟨fun v hv hplain => ?_, fun s hs hq hb => ?_, fun hno => ?_, fun fs' hfs' => ?_,
    fun cfg' final' fs' hfs' hsame => ?_⟩
  · refine findSome_read cfg.distinct hv ?_
    have hspace : Bare isspace v.text := .of_forall fun c hc => (hplain c hc).1
    have hquote : Bare (· == '"') v.text := .of_forall fun c hc => by simpa using (hplain c hc).2
    rw [Entry.read, Entry.assigned]
    simp [strip, stripChar, strip_bare hspace, strip_bare hquote]
  · -- the first strip stops at the quotes, so the blanks inside them stay
    refine findSome_read cfg.distinct hs ?_
    have hspace : Bare isspace ('"' :: (s.text ++ ['"'])) := .quoted (by decide) s.text
    have hquote : Bare (· == '"') s.text := .of_forall fun c hc => by
      simpa using fun h : c = '"' => hq (h ▸ hc)
    have hstrip : stripBy (· == '"') (['"'] ++ s.text ++ ['"']) = s.text :=
      strip_pad (by simp) (by simp) hquote
    rw [Entry.read, Entry.assigned, escape_eq hq hb]
    simpa [strip, stripChar, strip_bare hspace] using hstrip
  · refine List.findSome?_eq_none_iff.mpr fun e he => Option.eq_none_iff_forall_not_mem.mpr ?_
    intro v hread
    rcases Entry.assigns_of_read hread with ⟨l, rfl | rfl⟩
    · exact (hno l).1 he
    · exact (hno l).2 he
  · rw [getZephyrConfig, hfs']
  · rw [getZephyrConfig_text hfs']
    refine Option.ext fun v => ?_
    rw [findSome_read_eq_some_iff, findSome_read_eq_some_iff]
    exact ⟨fun ⟨e, he, h⟩ => ⟨e, (hsame e (Entry.symbol_of_read h)).mp he, h⟩,
      fun ⟨e, he, h⟩ => ⟨e, (hsame e (Entry.symbol_of_read h)).mpr he, h⟩⟩

/-- A string whose text looks like other entries, next to a symbol whose name it mentions. -/
def soc : Config where
  entries := [.string ⟨"SOC_SERIES", by decide⟩ ⟨" #SOC=1 ", by decide, by decide⟩,
    .comment ⟨" SOC is set below", by decide, by decide⟩, .notSet ⟨"SO", by decide⟩, .blank,
    .value ⟨"SOC", by decide⟩ ⟨"0x52840", by decide, by decide⟩]
  distinct := by decide

/-- The file system of a project that has been built in `/b`. -/
def built (path : Str) : Option Str :=
  if path = "/b/zephyr/zephyr/.config".toList then some (soc.text false) else none

theorem getZephyrConfig_reads_soc :
    getZephyrConfig built (.ofList [("BUILD_DIR", .str "/b")]) "SOC" = some "0x52840".toList ∧
      getZephyrConfig built (.ofList [("BUILD_DIR", .str "/b")]) "SOC_SERIES" =
        some " #SOC=1 ".toList := by
  have hfs : built (configPath (.ofList [("BUILD_DIR", .str "/b")])) = some (soc.text false) := by
    decide
  exact ⟨(getZephyrConfig_reads hfs ⟨"SOC", by decide⟩).1 ⟨"0x52840", by decide, by decide⟩
      (by simp [soc]) (by decide),
    (getZephyrConfig_reads hfs ⟨"SOC_SERIES", by decide⟩).2.1 ⟨" #SOC=1 ", by decide, by decide⟩
      (by simp [soc]) (by decide) (by decide)⟩

/-! ### Any other file -/

/-- Some line of the text assigns `name`. -/
def Assigns (text name : Str) : Prop :=
  ∃ line ∈ lines (universalNewlines text), name ++ ['='] <+: line

/-- The first line of the text that assigns `name` sets it to `v`, in quotes or not, with any white
space around it. -/
def SetTo (text name v : Str) : Prop :=
  ∃ before line after, lines (universalNewlines text) = before ++ line :: after ∧
    (∀ l ∈ before, ¬ name ++ ['='] <+: l) ∧
    ∃ raw ∈ [v, '"' :: (v ++ ['"'])], ∃ pad pad', (∀ c ∈ pad, isspace c = true) ∧
      (∀ c ∈ pad', isspace c = true) ∧ line = name ++ '=' :: (pad ++ raw ++ pad')

section Files

variable {fs : Str → Option Str} {vars : Vars} {text name : Str}
  (hfs : fs (configPath vars) = some text)
include hfs

theorem getZephyrConfig_file :
    getZephyrConfig fs vars name = (lines (universalNewlines text)).findSome? (readLine name) := by
  rw [getZephyrConfig, hfs]

/-- A symbol that no line assigns is not read. -/
theorem getZephyrConfig_of_not_assigns (h : ¬ Assigns text name) :
    getZephyrConfig fs vars name = none := by
  rw [getZephyrConfig_file hfs]
  exact List.findSome?_eq_none_iff.mpr fun l hl => readLine_eq_none fun hp => h ⟨l, hl, hp⟩

/-- **What is read is what the first line that assigns the symbol sets.** -/
theorem getZephyrConfig_of_setTo (hname : '=' ∉ name) {v : Str}
    (hv : ∀ c ∈ v, isspace c = false ∧ c ≠ '"') (h : SetTo text name v) :
    getZephyrConfig fs vars name = some v := by
  obtain ⟨before, line, after, hl, hbefore, raw, hraw, pad, pad', hpad, hpad', rfl⟩ := h
  have hnone : before.findSome? (readLine name) = none :=
    List.findSome?_eq_none_iff.mpr fun l hl => readLine_eq_none (hbefore l hl)
  have hquote : Bare (· == '"') v := .of_forall fun c hc => by simpa using (hv c hc).2
  have hstrip : stripChar '"' (strip (pad ++ raw ++ pad')) = v := by
    rcases List.mem_pair.mp hraw with rfl | rfl
    · rw [strip, strip_pad hpad hpad' (.of_forall fun c hc => (hv c hc).1), stripChar,
        strip_bare hquote]
    · rw [strip, strip_pad hpad hpad' (.quoted (by decide) v), stripChar]
      exact strip_pad (a := ['"']) (b := ['"']) (by simp) (by simp) hquote
  rw [getZephyrConfig_file hfs, hl, List.findSome?_append, hnone, Option.none_or,
    List.findSome?_cons, readLine_assign hname, hstrip]

end Files

end Nrf52
