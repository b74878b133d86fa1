import Nrf52Platform.Scripts.VidDump

/-!
# Scripts — Headers

`scripts/vid_dump.py` on any header whatever: guards, comments, includes, defines without a
hexadecimal value, and defines with any blanks in them.

* `run_of_no_define`, `finditer_define`: the pattern matches at a `#` iff a define stands there
  (`Define`).
* `reads_iff`: so the defines that are found in a text are those of its directives, the parts
  between two `#`, each read by itself.
* `main_reads`: the table that is printed has the pairs that the headers give, in whatever order the
  headers and the sets are visited.
* `main_directives`: any headers give defines, and the table that is printed has their pairs.
-/

namespace Nrf52
open Py

section Headers

variable {isalnum : Char → Bool}

/-! ### A define -/

/-- A define of a hexadecimal value, behind its `#`: `define`, blanks, a name, blanks, `0x`, digits,
and what follows them. -/
structure Define (isalnum : Char → Bool) where
  gap : Str
  name : Str
  gap' : Str
  digits : Str
  rest : Str
  gap_ne_nil : gap ≠ []
  gap_blank : ∀ c ∈ gap, isspace c = true
  name_ne_nil : name ≠ []
  name_word : ∀ c ∈ name, (isalnum c || c == '_') = true
  gap'_ne_nil : gap' ≠ []
  gap'_blank : ∀ c ∈ gap', isspace c = true
  digits_ne_nil : digits ≠ []
  digits_hex : ∀ c ∈ digits, isHexDigit c = true
  rest_head : ∀ c ∈ rest.head?, isHexDigit c = false

namespace Define

/-- The text of a define, up to the end of its digits. -/
def front (d : Define isalnum) : Str :=
  "define".toList ++ (d.gap ++ (d.name ++ (d.gap' ++ ("0x".toList ++ d.digits))))

/-- The text of a define. -/
def text (d : Define isalnum) : Str := d.front ++ d.rest

theorem front_eq (d : Define isalnum) : d.front =
    "define".toList ++ (d.gap ++ (d.name ++ (d.gap' ++ ("0x".toList ++ d.digits)))) := rfl

theorem text_eq (d : Define isalnum) : d.text = d.front ++ d.rest := rfl

/-- What a define says. -/
def read (d : Define isalnum) : Str × ℕ := (d.name, int16 d.digits)

end Define

/-- The defines of directives, which are read one by one: a directive is a define, or nothing. -/
inductive Reads (isalnum : Char → Bool) : List Str → List (Str × ℕ) → Prop where
  | nil : Reads isalnum [] []
  | define {ts : List Str} {defs : List (Str × ℕ)} (d : Define isalnum)
      (h : Reads isalnum ts defs) : Reads isalnum (d.text :: ts) (d.read :: defs)
  | skip {t : Str} {ts : List Str} {defs : List (Str × ℕ)} (ht : ∀ d : Define isalnum, d.text ≠ t)
      (h : Reads isalnum ts defs) : Reads isalnum (t :: ts) defs

/-- The directives of a text: what stands behind each `#`, up to the next. -/
def directives (content : Str) : List Str := (content.splitOn '#').tail

/-- Headers give these defines: those of their directives, for each of them. -/
def Gives (isalnum : Char → Bool) (headers : List (Str × Str))
    (defs : List (List (Str × ℕ))) : Prop :=
  List.Forall₂ (fun h ds => Reads isalnum (directives (universalNewlines h.2)) ds) headers defs

/-- A text, cut at its `#`. -/
theorem exists_directives (content : Str) : ∃ w ts, content.splitOn '#' = w :: ts ∧ '#' ∉ w ∧
    (∀ t ∈ ts, '#' ∉ t) ∧ content = w ++ ts.flatMap ('#' :: ·) := by
  induction content with
  | nil => exact ⟨[], [], by simp, by simp, by simp, rfl⟩
  | cons c content ih =>
      obtain ⟨w, ts, hsplit, hw, hts, hcontent⟩ := ih
      rw [List.splitOn_cons_eq_if_modifyHead, hsplit]
      by_cases hc : c = '#'
      · refine ⟨[], w :: ts, if_pos (beq_iff_eq.mpr hc), by simp, ?_, ?_⟩
        · exact List.forall_mem_cons.mpr ⟨hw, hts⟩
        · rw [List.nil_append, List.flatMap_cons, List.cons_append, ← hcontent, hc]
      · refine ⟨c :: w, ts, if_neg (by simpa using hc), ?_, hts, ?_⟩
        · exact fun h => (List.mem_cons.mp h).elim (fun h => hc h.symm) hw
        · rw [List.cons_append, ← hcontent]

/-! ### The pattern at a directive -/

/-- Text without a `#` has no match. -/
theorem finditer_plain {w : Str} (hw : '#' ∉ w) (s : Str) :
    (definePattern isalnum).finditer 0 (w ++ s) = (definePattern isalnum).finditer 0 s := by
  induction w with
  | nil => rfl
  | cons c w ih =>
      have hc : c ≠ '#' := fun h => hw (h ▸ List.mem_cons_self)
      have hrun : (definePattern isalnum).run ⟨[], c :: (w ++ s)⟩ = [] := by
        have hlit : Regex.run (.lit "#define") ⟨[], c :: (w ++ s)⟩ = [] := by
          rw [Regex.run, if_neg]
          intro h
          exact hc (List.cons_prefix_cons.mp (List.isPrefixOf_iff_prefix.mp h)).1.symm
        rw [definePattern, Regex.run, hlit, List.flatMap_nil]
      rw [List.cons_append, Regex.finditer_step hrun]
      exact ih fun h => hw (List.mem_cons_of_mem c h)

/-- A match of the pattern, taken apart. -/
theorem parses_definePattern {s : Str} {y : Cursor}
    (h : (definePattern isalnum).Parses ⟨[], s⟩ y) : ∃ gap name gap' digits rest,
      s = "#define".toList ++ (gap ++ (name ++ (gap' ++ ("0x".toList ++ (digits ++ rest))))) ∧
      (gap ≠ [] ∧ ∀ c ∈ gap, isspace c = true) ∧
      (name ≠ [] ∧ ∀ c ∈ name, (isalnum c || c == '_') = true) ∧
      (gap' ≠ [] ∧ ∀ c ∈ gap', isspace c = true) ∧
      (digits ≠ [] ∧ ∀ c ∈ digits, isHexDigit c = true) := by
  cases h with | seq h₁ h =>
  cases h₁ with | lit _ _ s =>
  cases h with | seq h₁ h =>
  cases h₁ with | many _ _ hgap hgap₁ _ =>
  cases h with | seq h₁ h =>
  cases h₁ with | group _ hx h₁ =>
  cases h₁ with | many _ _ hname hname₁ _ =>
  cases h with | seq h₁ h =>
  cases h₁ with | many _ _ hgap' hgap'₁ _ =>
  cases h with | seq h₁ h =>
  cases h₁ with | lit _ _ s =>
  cases h with | group _ hx' h =>
  cases h with | many _ _ hdigits hdigits₁ _ =>
  exact ⟨_, _, _, _, _, rfl, ⟨List.length_pos_iff.mp hgap₁, hgap⟩,
    ⟨List.length_pos_iff.mp hname₁, hname⟩, ⟨List.length_pos_iff.mp hgap'₁, hgap'⟩,
    ⟨List.length_pos_iff.mp hdigits₁, hdigits⟩⟩

/-- What has no `#` ends before one. -/
theorem exists_append_of_stop {c : Char} {m r t s : Str} (h : t ++ s = m ++ r) (hm : c ∉ m)
    (hs : ∀ d ∈ s.head?, d = c) : ∃ a, t = m ++ a := by
  rcases List.append_eq_append_iff.mp h with ⟨a, rfl, hs'⟩ | ⟨a, rfl, -⟩
  · cases a with
    | nil => exact ⟨[], by simp⟩
    | cons d a =>
        obtain rfl := hs d (by rw [hs']; rfl)
        exact absurd (by simp) hm
  · exact ⟨a, rfl⟩

/-- Where no define stands there is no match. -/
theorem run_of_no_define (hhash : isalnum '#' = false) {t s : Str} (hs : ∀ c ∈ s.head?, c = '#')
    (ht : ∀ d : Define isalnum, d.text ≠ t) :
    (definePattern isalnum).run ⟨[], '#' :: (t ++ s)⟩ = [] := by
  refine List.eq_nil_iff_forall_not_mem.mpr fun y hy => ?_
  obtain ⟨gap, name, gap', digits, rest, htext, ⟨hgap, hblank⟩, ⟨hne, hname⟩, ⟨hgap', hblank'⟩,
    hdigits, hhex⟩ := parses_definePattern (Regex.mem_run_iff.mp hy)
  -- the match has no `#` behind its first character, so it stays within the directive
  have hstop : '#' ∉ "define".toList ++ (gap ++ (name ++ (gap' ++ ("0x".toList ++ digits)))) := by
    have hdef : '#' ∉ "define".toList ∧ '#' ∉ "0x".toList := by decide
    simp only [List.mem_append, not_or]
    refine ⟨hdef.1, fun h => ?_, fun h => ?_, fun h => ?_, hdef.2, fun h => ?_⟩
    · exact absurd (hblank _ h) (by decide)
    · exact absurd (hname _ h) (by simp [hhash])
    · exact absurd (hblank' _ h) (by decide)
    · exact absurd (hhex _ h) (by decide)
  have hsplit : t ++ s =
      "define".toList ++ (gap ++ (name ++ (gap' ++ ("0x".toList ++ digits)))) ++ rest := by
    simpa using htext
  obtain ⟨a, rfl⟩ := exists_append_of_stop hsplit hstop hs
  refine ht ⟨gap, name, gap', digits ++ a.takeWhile isHexDigit, a.dropWhile isHexDigit, hgap,
    hblank, hne, hname, hgap', hblank', List.append_ne_nil_of_left_ne_nil hdigits _,
    fun c hc => ?_, fun c hc => ?_⟩ ?_
  · rcases List.mem_append.mp hc with hc | hc
    · exact hhex c hc
    · exact List.mem_takeWhile_imp hc
  · have hnot := List.head?_dropWhile_not isHexDigit a
    rw [Option.mem_def.mp hc] at hnot
    simpa using hnot
  · simp [Define.text_eq, Define.front_eq]

section Match

variable (hspace : ∀ c, isspace c = true → isalnum c = false)
include hspace

/-- The match at a define, and where the iteration goes on. -/
theorem finditer_define (d : Define isalnum) {s : Str} (hs : ∀ c ∈ s.head?, c = '#') :
    (definePattern isalnum).finditer 0 ('#' :: (d.text ++ s)) =
      ⟨[("value", d.digits), ("name", d.name)], d.rest ++ s⟩ ::
        (definePattern isalnum).finditer 0 (d.rest ++ s) := by
  have hrest : ∀ c ∈ (d.rest ++ s).head?, isHexDigit c = false := by
    intro c hc
    cases hd : d.rest with
    | nil =>
        rw [hd] at hc
        rw [hs c hc]
        decide
    | cons e rest =>
        rw [hd] at hc
        exact d.rest_head c (by rw [hd]; exact hc)
  have hmatch := prefers_define hspace d.gap_ne_nil d.gap_blank d.name_ne_nil d.name_word
    d.gap'_ne_nil d.gap'_blank d.digits_ne_nil d.digits_hex hrest
  have htext : '#' :: (d.text ++ s) = '#' :: d.front ++ (d.rest ++ s) := by
    simp [d.text_eq]
  have hfront : "#define".toList ++ (d.gap ++ (d.name ++ (d.gap' ++ ("0x".toList ++ (d.digits ++
      (d.rest ++ s)))))) = '#' :: d.front ++ (d.rest ++ s) := by
    simp [d.front_eq]
  rw [hfront] at hmatch
  rw [htext]
  exact Regex.finditer_of_prefers (by simp) hmatch

/-! ### All directives -/

/-- A directive says one thing. -/
theorem Reads.unique {ts : List Str} {defs defs' : List (Str × ℕ)} (h : Reads isalnum ts defs)
    (h' : Reads isalnum ts defs') : defs = defs' := by
  induction h generalizing defs' with
  | nil => cases h'; rfl
  | skip ht _ ih =>
      cases h' with
      | define d => exact absurd rfl (ht d)
      | skip _ h' => exact ih h'
  | @define ts defs d h ih =>
      generalize htext : d.text = t at h'
      cases h' with
      | skip ht => exact absurd htext (ht d)
      | define d' h' =>
          rw [ih h']
          -- the pattern finds both at the same place
          have hfind := finditer_define hspace d (s := []) (by simp)
          rw [htext, finditer_define hspace d' (s := []) (by simp)] at hfind
          have hgroups := (Cursor.mk.inj (List.cons.inj hfind).1).1
          simp only [List.cons.injEq, Prod.mk.injEq, true_and, and_true] at hgroups
          rw [Define.read, Define.read, hgroups.1, hgroups.2]

variable (hhash : isalnum '#' = false)
include hhash

/-- A text of directives. -/
theorem reads_flatMap {ts : List Str} (hts : ∀ t ∈ ts, '#' ∉ t) :
    Reads isalnum ts (defines isalnum (ts.flatMap ('#' :: ·))) := by
  induction ts with
  | nil => exact .nil
  | cons t ts ih =>
      have ih := ih fun t' ht' => hts t' (List.mem_cons_of_mem t ht')
      have ht : '#' ∉ t := hts t List.mem_cons_self
      have hs : ∀ c ∈ (ts.flatMap ('#' :: ·)).head?, c = '#' := by
        intro c hc
        cases ts with
        | nil => cases hc
        | cons t' ts => exact (Option.some.inj hc).symm
      rw [List.flatMap_cons, List.cons_append, defines]
      by_cases hdef : ∃ d : Define isalnum, d.text = t
      · obtain ⟨d, rfl⟩ := hdef
        have hrest : '#' ∉ d.rest := fun h => ht (List.mem_append_right _ h)
        rw [finditer_define hspace d hs, finditer_plain hrest, List.map_cons]
        exact .define d ih
      · have hno : ∀ d : Define isalnum, d.text ≠ t := fun d hd => hdef ⟨d, hd⟩
        rw [Regex.finditer_step (run_of_no_define hhash hs hno), finditer_plain ht]
        exact .skip hno ih

/-- **The defines of a text are those of its directives**, each read by itself. -/
theorem reads_iff {content : Str} {defs : List (Str × ℕ)} :
    Reads isalnum (directives content) defs ↔ defines isalnum content = defs := by
  have hreads : Reads isalnum (directives content) (defines isalnum content) := by
    obtain ⟨w, ts, hsplit, hw, hts, rfl⟩ := exists_directives content
    rw [directives, hsplit, List.tail_cons, defines, finditer_plain hw, ← defines]
    exact reads_flatMap hspace hhash hts
  refine ⟨fun h => hreads.unique hspace h, ?_⟩
  rintro rfl
  exact hreads

/-- Headers give what the script finds in them, and nothing else. -/
theorem gives_iff {headers : List (Str × Str)} {defs : List (List (Str × ℕ))} :
    Gives isalnum headers defs ↔
      (headers.map fun h => defines isalnum (universalNewlines h.2)) = defs := by
  simp only [Gives, reads_iff hspace hhash]
  refine List.forall₂_map_left_iff.symm.trans ?_
  rw [List.forall₂_eq_eq_eq]

omit hhash in
/-- A header of defines whose names are words is read as it is, and has them. -/
theorem defines_renderHeader {ds : List (Str × ℕ)} (hds : ∀ d ∈ ds, d.1 ≠ [] ∧
    ∀ c ∈ d.1, (isalnum c || c == '_') = true) :
    defines isalnum (universalNewlines (renderHeader ds)) = ds := by
  have hcr : '\r' ∉ renderHeader ds := by
    intro h
    obtain ⟨d, hd, hc⟩ := List.mem_flatMap.mp h
    have hlit : '\r' ∉ "#define".toList ∧ '\r' ∉ " ".toList ∧ '\r' ∉ "0x".toList ∧
      '\r' ∉ ['\n'] := by decide
    have hword : '\r' ∉ d.1 := fun hc =>
      absurd ((hds d hd).2 _ hc) (by rw [hspace '\r' (by decide)]; decide)
    have hdigits : '\r' ∉ hexDigits d.2 := fun hc =>
      absurd (isHexDigit_hexDigits hc) (by decide)
    rw [renderDefine_append] at hc
    exact List.not_mem_append hlit.1 (List.not_mem_append hlit.2.1 (List.not_mem_append hword
      (List.not_mem_append hlit.2.1 (List.not_mem_append hlit.2.2.1
        (List.not_mem_append hdigits hlit.2.2.2))))) hc
  rw [universalNewlines_id hcr, defines_render hspace hds]

/-- Any defines whose names are words are given by headers. -/
theorem gives_render (path : Str) {defs : List (List (Str × ℕ))} (hdefs : ∀ ds ∈ defs, ∀ d ∈ ds,
    d.1 ≠ [] ∧ ∀ c ∈ d.1, (isalnum c || c == '_') = true) :
    Gives isalnum (defs.map fun ds => (path, renderHeader ds)) defs :=
  List.forall₂_map_left_iff.mpr (List.forall₂_same.mpr fun ds hds =>
    (reads_iff hspace hhash).mpr (defines_renderHeader hspace (hdefs ds hds)))

/-- **The dump prints exactly the pairs that the headers define**: the table it prints is that of
the defines they give, and whatever the order in which it visits them and the sets, it prints the
same table. -/
theorem main_reads (order : SetOrder) {headers : List (Str × Str)} {defs : List (List (Str × ℕ))}
    (hgives : Gives isalnum headers defs) :
    ∃ table, Prints (main isalnum order headers) table ∧ TableOf defs table ∧
      ∀ order' headers', headers.Perm headers' → ∃ table',
        Prints (main isalnum order' headers') table' ∧ SameTable table table' := by
  obtain rfl := (gives_iff hspace hhash).mp hgives
  exact ⟨_, prints_main isalnum order headers, tableOf_entries order _,
    fun order' headers' hperm => ⟨_, prints_main isalnum order' headers',
      (tableOf_entries order _).same (tableOf_entries order' _) (hperm.map _)⟩⟩

/-- **The table that is printed** has the pairs that the directives of the headers define, for any
headers, in whatever order they and the sets are visited. -/
theorem main_directives (order : SetOrder) (headers : List (Str × Str)) : ∃ defs table,
    (∀ defs', List.Forall₂ (fun h ds => Reads isalnum (directives (universalNewlines h.2)) ds)
      headers defs' ↔ defs' = defs) ∧
      Prints (main isalnum order headers) table ∧ TableOf defs table :=
  ⟨headers.map fun h => defines isalnum (universalNewlines h.2), _,
    fun _ => (gives_iff hspace hhash).trans eq_comm, prints_main isalnum order headers,
    tableOf_entries order _⟩

end Match

end Headers

/-- No blank is a letter or a digit of ASCII. -/
theorem isAlphanum_of_isspace (c : Char) (h : isspace c = true) : c.isAlphanum = false := by
  rw [Bool.eq_false_iff]
  intro halnum
  have hrange := toNat_of_isAlphanum halnum
  simp only [isspace, Bool.or_eq_true, Bool.and_eq_true, decide_eq_true_eq, beq_iff_eq] at h
  omega

/-- The defines of three boards, two of one vendor, and one without a vendor. -/
def threeBoards : List (List (Str × ℕ)) :=
  [[("USB_PID".toList, 0x29), ("USB_VID".toList, 0x239A)], [("USB_PID".toList, 0x45)],
    [("USB_VID".toList, 0x239A), ("USB_PID".toList, 0x2A)]]

theorem main_reads_threeBoards : ∃ table,
    Prints (main Char.isAlphanum ascending (threeBoards.map fun ds => ("board.h", renderHeader ds)))
        table ∧ TableOf threeBoards table ∧
      ∀ order' headers', (threeBoards.map fun ds => ("board.h".toList, renderHeader ds)).Perm
        headers' → ∃ table', Prints (main Char.isAlphanum order' headers') table' ∧
          SameTable table table' :=
  main_reads isAlphanum_of_isspace (by decide) ascending
    (gives_render isAlphanum_of_isspace (by decide) "board.h" (by decide))

/-- A header with a guard and a comment. -/
def guarded : List (Str × Str) :=
  [("a/board.h",
    "#ifndef A_H\n#define A_H\n#define USB_VID\t0x239A // vendor\n#define USB_PID  0x29")]

theorem main_directives_guarded : ∃ defs table,
    (∀ defs', List.Forall₂ (fun h ds => Reads Char.isAlphanum (directives (universalNewlines h.2))
      ds) guarded defs' ↔ defs' = defs) ∧
      Prints (main Char.isAlphanum ascending guarded) table ∧ TableOf defs table :=
  main_directives isAlphanum_of_isspace (by decide) ascending guarded

example : main Char.isAlphanum ascending guarded = ["Processing file: a/board.h".toList,
    "UF2_VIDS_PIDS = \x7b0x239a: [0x29], \x7d".toList] := by decide +kernel

end Nrf52
