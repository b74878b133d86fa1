import Mathlib.Data.Finset.Lattice.Fold
import Mathlib.Order.Lattice.Nat
import Nrf52Platform.Support.Dict
import Nrf52Platform.Support.Literal
import Nrf52Platform.Support.Regex

/-!
# Scripts — VidDump

`scripts/vid_dump.py`, which prints the table of bootloader ids from the board headers of the UF2
bootloader: the printed table, read back, is that of the defines that the script finds.

* `defines_render`: the script finds the defines a header was written from.
* `get?_addHeader`, `collect_spec`: what one header adds to the table, and what all of them add.
* `readDict_showTable`: the printed text reads back as the table.
* `prints_main`, `tableOf_entries`: the printed table has the pairs that are found, each once.
-/

namespace Nrf52
open Py

/-! ### The script -/

section Script

variable (isalnum : Char → Bool)

/-- `pattern`; the class `\w` is that of `str.isalnum` and the underscore. -/
def definePattern : Regex :=
  .seq (.lit "#define") <| .seq (.many isspace 1 none) <|
    .seq (.group "name" (.many (fun c => isalnum c || c == '_') 1 none)) <|
      .seq (.many isspace 1 none) <| .seq (.lit "0x") <| .group "value" (.many isHexDigit 1 none)

/-- The defines of a header that the pattern finds: names and values, in order. -/
def defines (content : Str) : List (Str × ℕ) :=
  ((definePattern isalnum).finditer 0 content).map
    fun m => (m.group "name", int16 (m.group "value"))

/-- The inner loop: `vid` and `pids` after the defines of a header. -/
def readHeader (defs : List (Str × ℕ)) : Option ℕ × Finset ℕ :=
  defs.foldl (fun (vid, pids) (name, value) =>
    if "_VID".toList.isSuffixOf name then (some value, pids)
    else if "_PID".toList.isSuffixOf name then (vid, insert value pids)
    else (vid, pids)) (none, ∅)

/-- `vids_pids` after a header: its PIDs are added under its VID, if it has one. -/
def addHeader (vidsPids : Dict ℕ (Finset ℕ)) (defs : List (Str × ℕ)) : Dict ℕ (Finset ℕ) :=
  match readHeader defs with
  | (none, _) => vidsPids
  | (some vid, pids) =>
      -- `vids_pids[vid] = set()` for a new key, then `update`
      let vidsPids := if vidsPids.get? vid = none then vidsPids.set vid ∅ else vidsPids
      vidsPids.set vid ((vidsPids.get? vid).getD ∅ ∪ pids)

/-- The order in which the elements of a set come: any order, for the set of each key. -/
structure SetOrder where
  enum : ℕ → Finset ℕ → List ℕ
  nodup : ∀ v s, (enum v s).Nodup
  mem_iff : ∀ {v s p}, p ∈ enum v s ↔ p ∈ s

/-- `f'{hex(vid)}: [{", ".join(hex(pid) for pid in pids)}], '`. -/
def showEntry (vid : ℕ) (pids : List ℕ) : Str :=
  hex vid ++ ": [".toList ++ join ", " (pids.map hex) ++ "], ".toList

/-- The text of the table, `out` without `UF2_VIDS_PIDS = `. -/
def showTable (order : SetOrder) (vidsPids : Dict ℕ (Finset ℕ)) : Str :=
  '{' :: (vidsPids.items.flatMap (fun (vid, pids) => showEntry vid (order.enum vid pids)) ++ ['}'])

/-- The outer loop on one header, a path and a text: the lines printed so far, and `vids_pids`. -/
def visitHeader (st : List Str × Dict ℕ (Finset ℕ)) (header : Str × Str) :
    List Str × Dict ℕ (Finset ℕ) :=
  let defs := defines isalnum (universalNewlines header.2)
  let warning := if (readHeader defs).1 = none then
    ["Warning! No VID found in ".toList ++ header.1] else []
  (st.1 ++ ["Processing file: ".toList ++ header.1] ++ warning, addHeader st.2 defs)

/-- `main`: the lines it prints when it visits the headers in this order. -/
def main (order : SetOrder) (headers : List (Str × Str)) : List Str :=
  let (out, vidsPids) := headers.foldl (visitHeader isalnum) ([], .empty)
  out ++ ["UF2_VIDS_PIDS = ".toList ++ showTable order vidsPids]

end Script

/-! ### The defines of a header -/

/-- A define. -/
def renderDefine (d : Str × ℕ) : Str :=
  "#define".toList ++ (" ".toList ++ (d.1 ++ (" ".toList ++ ("0x".toList ++ hexDigits d.2))))

/-- A header of defines, one on each line. -/
def renderHeader (defs : List (Str × ℕ)) : Str := defs.flatMap fun d => renderDefine d ++ ['\n']

theorem renderDefine_append (d : Str × ℕ) (s : Str) : renderDefine d ++ s = "#define".toList ++
    (" ".toList ++ (d.1 ++ (" ".toList ++ ("0x".toList ++ (hexDigits d.2 ++ s))))) := by
  have hassoc : ∀ a b c name digits : Str, a ++ (b ++ (name ++ (b ++ (c ++ digits)))) ++ s =
      a ++ (b ++ (name ++ (b ++ (c ++ (digits ++ s))))) := by simp
  exact hassoc _ _ _ _ _

section Defines

variable {isalnum : Char → Bool} (hspace : ∀ c, isspace c = true → isalnum c = false)
include hspace

/-- The pattern matches a define, up to the end of its digits. -/
theorem prefers_define {gap name gap' digits rest : Str} (hgap : gap ≠ [])
    (hblank : ∀ c ∈ gap, isspace c = true) (hne : name ≠ [])
    (hname : ∀ c ∈ name, (isalnum c || c == '_') = true) (hgap' : gap' ≠ [])
    (hblank' : ∀ c ∈ gap', isspace c = true) (hdigits : digits ≠ [])
    (hhex : ∀ c ∈ digits, isHexDigit c = true) (hrest : ∀ c ∈ rest.head?, isHexDigit c = false) :
    Regex.Prefers (definePattern isalnum) ⟨[], "#define".toList ++ (gap ++ (name ++
      (gap' ++ ("0x".toList ++ (digits ++ rest)))))⟩
      ⟨[("value", digits), ("name", name)], rest⟩ := by
  have hstop : ∀ c, isspace c = true → (isalnum c || c == '_') = false := by
    intro c hc
    have hc' : c ≠ '_' := by
      rintro rfl
      exact absurd hc (by decide)
    simp [hspace c hc, hc']
  have hhead : ∀ t : Str, ∀ c ∈ (name ++ t).head?, isspace c = false := by
    intro t c hc
    rw [List.head?_append_of_ne_nil _ hne] at hc
    by_contra hsp
    have hword := hname c (List.mem_of_mem_head? hc)
    rw [hstop c (by simpa using hsp)] at hword
    cases hword
  have hrun : ∀ {w : Str} (g : List (String × Str)) (t : Str), w ≠ [] →
      (∀ c ∈ w, isspace c = true) → (∀ c ∈ t.head?, isspace c = false) →
        (Regex.many isspace 1 none).Prefers ⟨g, w ++ t⟩ ⟨g, t⟩ :=
    fun g t hw hsp ht => .many g hsp (List.length_pos_iff.mpr hw) (by simp) (.inr ht)
  have hzero : ∀ t : Str, ∀ c ∈ ("0x".toList ++ t).head?, isspace c = false := by
    rintro t c ⟨⟩
    decide
  refine .seq (.lit _ _ _) (.seq (hrun _ _ hgap hblank (hhead _)) (.seq (.group _ rfl
    (.many _ hname ?_ (by simp) (.inr fun c hc => ?_))) (.seq (hrun _ _ hgap' hblank' (hzero _))
      (.seq (.lit _ _ _) (.group _ rfl (.many _ hhex ?_ (by simp) (.inr hrest)))))))
  · exact List.length_pos_iff.mpr hne
  · rw [List.head?_append_of_ne_nil _ hgap'] at hc
    exact hstop c (hblank' c (List.mem_of_mem_head? hc))
  · exact List.length_pos_iff.mpr hdigits

/-- **The pattern finds the defines a header was written from.** -/
theorem defines_render {defs : List (Str × ℕ)} (hdefs : ∀ d ∈ defs, d.1 ≠ [] ∧
    ∀ c ∈ d.1, (isalnum c || c == '_') = true) :
    defines isalnum (renderHeader defs) = defs := by
  induction defs with
  | nil => rfl
  | cons d defs ih =>
      obtain ⟨name, value⟩ := d
      have ih := ih fun e he => hdefs e (List.mem_cons_of_mem _ he)
      obtain ⟨hne, hname⟩ := hdefs _ List.mem_cons_self
      have hnl : ∀ s : Str, (definePattern isalnum).finditer 0 ('\n' :: s) =
          (definePattern isalnum).finditer 0 s := fun s => Regex.finditer_step rfl
      have hmatch := @prefers_define _ hspace " " name " " (hexDigits value)
        ('\n' :: renderHeader defs) (by decide) (by decide) hne hname
        (by decide) (by decide) (hexDigits_ne_nil value) (fun c hc => isHexDigit_hexDigits hc)
        (by rintro c ⟨⟩; decide)
      have hgroups : ∀ rest : Str, ((⟨[("value", hexDigits value), ("name", name)],
          rest⟩ : Cursor).group "name", int16 (Cursor.group ⟨[("value", hexDigits value),
            ("name", name)], rest⟩ "value")) = (name, value) :=
        fun rest => congrArg (Prod.mk name) (int16_hexDigits value)
      have hne' : renderDefine (name, value) ≠ [] := List.append_ne_nil_of_left_ne_nil (by decide) _
      rw [← renderDefine_append (name, value)] at hmatch
      rw [defines] at ih ⊢
      rw [renderHeader, List.flatMap_cons, ← renderHeader, List.append_assoc,
        List.singleton_append, Regex.finditer_of_prefers hne' hmatch, hnl, List.map_cons, ih,
        hgroups]

end Defines

/-! ### One header -/

/-- The VID of a header: the value of its last define with a name ending in `_VID`. -/
def lastVid (defs : List (Str × ℕ)) : Option ℕ :=
  (defs.filter fun d => "_VID".toList.isSuffixOf d.1).getLast?.map Prod.snd

/-- The header has a define with a name ending in `_PID` and value `p`. -/
def DefinesPid (defs : List (Str × ℕ)) (p : ℕ) : Prop :=
  ∃ name, (name, p) ∈ defs ∧ "_PID".toList <:+ name

theorem readHeader_concat (defs : List (Str × ℕ)) (name : Str) (value : ℕ) :
    readHeader (defs ++ [(name, value)]) =
      if "_VID".toList.isSuffixOf name then (some value, (readHeader defs).2)
      else if "_PID".toList.isSuffixOf name then
        ((readHeader defs).1, insert value (readHeader defs).2)
      else readHeader defs := by
  rw [readHeader, List.foldl_append, ← readHeader]
  rfl

/-- No name has both endings. -/
theorem not_pid_of_vid {name : Str} (h : "_VID".toList <:+ name) : ¬ "_PID".toList <:+ name :=
  fun h' => absurd (List.suffix_of_suffix_length_le h h' (by decide)) (by decide)

theorem lastVid_concat (defs : List (Str × ℕ)) (name : Str) (value : ℕ) :
    lastVid (defs ++ [(name, value)]) =
      if "_VID".toList.isSuffixOf name then some value else lastVid defs := by
  rw [lastVid, List.filter_append]
  split
  case isTrue h =>
      rw [List.filter_cons, if_pos h, List.filter_nil, List.getLast?_concat]
      rfl
  case isFalse h => rw [List.filter_cons, if_neg h, List.filter_nil, List.append_nil, lastVid]

theorem definesPid_concat {defs : List (Str × ℕ)} {name : Str} {value p : ℕ} :
    DefinesPid (defs ++ [(name, value)]) p ↔
      DefinesPid defs p ∨ p = value ∧ "_PID".toList <:+ name := by
  refine ⟨?_, ?_⟩
  · rintro ⟨n, hmem, hn⟩
    rcases List.mem_append.mp hmem with hmem | hmem
    · exact .inl ⟨n, hmem, hn⟩
    · cases List.mem_singleton.mp hmem
      exact .inr ⟨rfl, hn⟩
  · rintro (⟨n, hmem, hn⟩ | ⟨rfl, hn⟩)
    · exact ⟨n, List.mem_append_left _ hmem, hn⟩
    · exact ⟨name, by simp, hn⟩

/-- **What the inner loop reads**: the last VID, and the set of the PIDs. -/
theorem readHeader_spec (defs : List (Str × ℕ)) :
    (readHeader defs).1 = lastVid defs ∧ ∀ p, p ∈ (readHeader defs).2 ↔ DefinesPid defs p := by
  induction defs using List.reverseRecOn with
  | nil => exact ⟨rfl, fun p => by simp [readHeader, DefinesPid]⟩
  | append_singleton defs d ih =>
      obtain ⟨name, value⟩ := d
      obtain ⟨ihvid, ihpid⟩ := ih
      rw [readHeader_concat, lastVid_concat]
      by_cases hvid : "_VID".toList.isSuffixOf name = true
      · rw [if_pos hvid, if_pos hvid]
        have hpid := not_pid_of_vid (List.isSuffixOf_iff_suffix.mp hvid)
        exact ⟨rfl, fun p => by simp only [definesPid_concat, hpid, and_false, or_false, ihpid]⟩
      · rw [if_neg hvid, if_neg hvid]
        by_cases hpid : "_PID".toList.isSuffixOf name = true
        · rw [if_pos hpid]
          have hpid' := List.isSuffixOf_iff_suffix.mp hpid
          exact ⟨ihvid, fun p => by
            simp only [definesPid_concat, hpid', and_true, Finset.mem_insert, ihpid, or_comm]⟩
        · rw [if_neg hpid]
          have hpid' : ¬ "_PID".toList <:+ name := fun h =>
            hpid (List.isSuffixOf_iff_suffix.mpr h)
          exact ⟨ihvid, fun p => by
            simp only [definesPid_concat, hpid', and_false, or_false, ihpid]⟩

/-! ### All headers -/

/-- What one header adds to the set of a key. -/
theorem get?_addHeader (vidsPids : Dict ℕ (Finset ℕ)) (defs : List (Str × ℕ)) (v : ℕ) :
    (addHeader vidsPids defs).get? v = if lastVid defs = some v
      then some ((vidsPids.get? v).getD ∅ ∪ (readHeader defs).2) else vidsPids.get? v := by
  have hvid := (readHeader_spec defs).1
  rw [addHeader]
  cases hread : readHeader defs with
  | mk vid pids =>
      rw [hread] at hvid
      cases vid with
      | none => rw [← hvid]; rfl
      | some vid =>
          rw [← hvid]
          simp only [Dict.get?_set, Option.some_inj, eq_comm (a := v)]
          by_cases hv : vid = v
          · subst hv
            rw [if_pos rfl, if_pos rfl]
            cases h : vidsPids.get? vid <;> simp [h]
          · rw [if_neg hv, if_neg hv]
            split
            case isTrue => exact Dict.get?_set_of_ne _ _ (Ne.symm hv)
            case isFalse => rfl

/-- The table of a sequence of headers. -/
def collect (headers : List (List (Str × ℕ))) : Dict ℕ (Finset ℕ) := headers.foldl addHeader .empty

/-- `p` is a PID that some header defines under the VID `v`. -/
def Filed (headers : List (List (Str × ℕ))) (v p : ℕ) : Prop :=
  ∃ defs ∈ headers, lastVid defs = some v ∧ DefinesPid defs p

/-- **What all headers add**: a key for every VID, with the PIDs filed under it. -/
theorem collect_spec (headers : List (List (Str × ℕ))) (v : ℕ) :
    ((collect headers).get? v = none ↔ ∀ defs ∈ headers, lastVid defs ≠ some v) ∧
      ∀ p, p ∈ ((collect headers).get? v).getD ∅ ↔ Filed headers v p := by
  induction headers using List.reverseRecOn with
  | nil => exact ⟨by simp [collect], fun p => by simp [collect, Filed]⟩
  | append_singleton headers defs ih =>
      obtain ⟨ihkey, ihpid⟩ := ih
      have hcollect : collect (headers ++ [defs]) = addHeader (collect headers) defs := by
        rw [collect, List.foldl_append, ← collect]
        rfl
      have hfiled : ∀ p, Filed (headers ++ [defs]) v p ↔
          Filed headers v p ∨ lastVid defs = some v ∧ DefinesPid defs p := by
        intro p
        simp [Filed, or_and_right, exists_or]
      rw [hcollect, get?_addHeader]
      by_cases hv : lastVid defs = some v
      · rw [if_pos hv]
        refine ⟨by simp [hv], fun p => ?_⟩
        rw [Option.getD_some, Finset.mem_union, ihpid, (readHeader_spec defs).2, hfiled]
        simp [hv]
      · rw [if_neg hv]
        refine ⟨?_, fun p => ?_⟩
        · simp [ihkey, or_imp, forall_and, hv]
        · rw [ihpid, hfiled]
          simp [hv]

theorem main_eq (isalnum : Char → Bool) (order : SetOrder) (headers : List (Str × Str)) :
    ∃ out, main isalnum order headers = out ++ ["UF2_VIDS_PIDS = ".toList ++ showTable order
      (collect (headers.map fun h => defines isalnum (universalNewlines h.2)))] := by
  have hfold : ∀ st, (headers.foldl (visitHeader isalnum) st).2 =
      (headers.map fun h => defines isalnum (universalNewlines h.2)).foldl addHeader st.2 := by
    induction headers with
    | nil => exact fun st => rfl
    | cons h headers ih => exact fun st => ih (visitHeader isalnum st h)
  refine ⟨(headers.foldl (visitHeader isalnum) ([], .empty)).1, ?_⟩
  rw [main, collect, ← hfold ([], .empty)]

/-! ### The printed table -/

/-- The entries of a table, its sets in order. -/
def entries (order : SetOrder) (vidsPids : Dict ℕ (Finset ℕ)) : List (ℕ × List ℕ) :=
  vidsPids.items.map fun (v, s) => (v, order.enum v s)

/-- The tokens of an entry. -/
def entryTokens (e : ℕ × List ℕ) : List Token :=
  .num e.1 :: .colon :: .lbrack :: (listTokens e.2 ++ [.rbrack, .comma])

theorem lex_showEntry (v : ℕ) (pids : List ℕ) (s : Str) :
    lex (showEntry v pids ++ s) = (lex s).map (entryTokens (v, pids) ++ ·) := by
  have htext : showEntry v pids ++ s = hex v ++ ':' :: ' ' :: '[' ::
      (join ", ".toList (pids.map hex) ++ ']' :: ',' :: ' ' :: s) := by
    simp [showEntry]
  rw [htext, lex_hex v (by rintro c ⟨⟩; decide), lex_punct rfl, lex_space, lex_punct rfl, lex_hexes,
    lex_punct rfl, lex_space]
  simp only [Option.map_map]
  refine congrFun (congrArg _ (funext fun ts => ?_)) _
  simp [entryTokens]

theorem lex_showEntries (l : List (ℕ × List ℕ)) :
    lex (l.flatMap (fun e => showEntry e.1 e.2) ++ ['}']) =
      some (l.flatMap entryTokens ++ [.rbrace]) := by
  induction l with
  | nil => rfl
  | cons e l ih =>
      rw [List.flatMap_cons, List.append_assoc, lex_showEntry, ih, List.flatMap_cons,
        List.append_assoc]
      rfl

theorem parse_entries (l : List (ℕ × List ℕ)) :
    parse .key (l.flatMap entryTokens ++ [.rbrace]) = some l := by
  induction l with
  | nil => rfl
  | cons e l ih =>
      obtain ⟨v, pids⟩ := e
      have hlist := parse_hexes v (.comma :: (l.flatMap entryTokens ++ [.rbrace])) pids []
      have hentry : parse .entry (.comma :: (l.flatMap entryTokens ++ [.rbrace])) = some l := ih
      rw [hentry, Option.map_some, List.nil_append] at hlist
      rw [← hlist, List.flatMap_cons, List.append_assoc, entryTokens]
      simp only [List.cons_append, List.append_assoc, List.nil_append]
      rfl

/-- **The printed text reads back as the table.** -/
theorem readDict_showTable (order : SetOrder) (vidsPids : Dict ℕ (Finset ℕ)) :
    readDict (showTable order vidsPids) = some (entries order vidsPids) := by
  have htext : showTable order vidsPids =
      '{' :: ((entries order vidsPids).flatMap (fun e => showEntry e.1 e.2) ++ ['}']) := by
    rw [entries, List.flatMap_map]
    rfl
  rw [readDict, htext, lex_punct rfl, lex_showEntries]
  exact parse_entries _

/-! ### The table of the headers -/

/-- The text that a dump ends with reads back as `table`. -/
def Prints (out : List Str) (table : List (ℕ × List ℕ)) : Prop :=
  ∃ before text, out = before ++ ["UF2_VIDS_PIDS = ".toList ++ text] ∧ readDict text = some table

/-- Two tables are the same up to the order of the keys and of the lists. -/
def SameTable (t t' : List (ℕ × List ℕ)) : Prop :=
  (t.map Prod.fst).Perm (t'.map Prod.fst) ∧
    ∀ v l l', (v, l) ∈ t → (v, l') ∈ t' → l.Perm l'

/-- The table has the pairs that the headers define, each once. -/
structure TableOf (headers : List (List (Str × ℕ))) (table : List (ℕ × List ℕ)) : Prop where
  keys_nodup : (table.map Prod.fst).Nodup
  mem_keys : ∀ v, v ∈ table.map Prod.fst ↔ ∃ defs ∈ headers, lastVid defs = some v
  list_nodup : ∀ v l, (v, l) ∈ table → l.Nodup
  mem_list : ∀ v l, (v, l) ∈ table → ∀ p, p ∈ l ↔ Filed headers v p

theorem mem_entries {order : SetOrder} {vidsPids : Dict ℕ (Finset ℕ)} {v : ℕ} {l : List ℕ} :
    (v, l) ∈ entries order vidsPids ↔ ∃ s, vidsPids.get? v = some s ∧ order.enum v s = l := by
  simp only [entries, List.mem_map, Prod.exists, Prod.mk.injEq, Dict.mem_items_iff]
  refine ⟨?_, ?_⟩
  · rintro ⟨v', s, hs, rfl, hl⟩
    exact ⟨s, hs, hl⟩
  · rintro ⟨s, hs, hl⟩
    exact ⟨v, s, hs, rfl, hl⟩

theorem tableOf_entries (order : SetOrder) (headers : List (List (Str × ℕ))) :
    TableOf headers (entries order (collect headers)) := by
  have hkeys : (entries order (collect headers)).map Prod.fst = (collect headers).keys := by
    rw [entries, List.map_map]
    rfl
  refine ⟨hkeys ▸ (collect headers).nodup, fun v => ?_, fun v l h => ?_, fun v l h p => ?_⟩
  · have hnone := (collect_spec headers v).1
    rw [hkeys, Dict.mem_keys_iff, ← Option.isSome_iff_exists, Option.isSome_iff_ne_none, Ne, hnone]
    simp only [ne_eq, not_forall, not_not, exists_prop]
  · obtain ⟨s, -, rfl⟩ := mem_entries.mp h
    exact order.nodup v s
  · obtain ⟨s, hs, rfl⟩ := mem_entries.mp h
    rw [order.mem_iff, ← (collect_spec headers v).2, hs, Option.getD_some]

/-- The headers determine the table, up to order. -/
theorem TableOf.same {headers headers' : List (List (Str × ℕ))} {t t' : List (ℕ × List ℕ)}
    (h : TableOf headers t) (h' : TableOf headers' t') (hperm : headers.Perm headers') :
    SameTable t t' := by
  refine ⟨(List.perm_ext_iff_of_nodup h.keys_nodup h'.keys_nodup).mpr fun v => ?_,
    fun v l l' hl hl' => (List.perm_ext_iff_of_nodup (h.list_nodup v l hl)
      (h'.list_nodup v l' hl')).mpr fun p => ?_⟩
  · rw [h.mem_keys, h'.mem_keys]
    simp only [hperm.mem_iff]
  · rw [h.mem_list v l hl, h'.mem_list v l' hl', Filed, Filed]
    simp only [hperm.mem_iff]

/-- What a dump prints. -/
theorem prints_main (isalnum : Char → Bool) (order : SetOrder) (headers : List (Str × Str)) :
    Prints (main isalnum order headers) (entries order
      (collect (headers.map fun h => defines isalnum (universalNewlines h.2)))) := by
  obtain ⟨out, hout⟩ := main_eq isalnum order headers
  exact ⟨out, _, hout, readDict_showTable _ _⟩

/-- The ascending order. -/
def ascending : SetOrder where
  enum _ s := (List.range (s.sup id + 1)).filter (· ∈ s)
  nodup _ _ := List.nodup_range.filter _
  mem_iff {v s p} := by
    have hle : p ∈ s → p < s.sup id + 1 :=
      fun hp => Nat.lt_succ_of_le (Finset.le_sup (f := id) hp)
    simpa using hle

example : main Char.isAlphanum ascending
    [("a/board.h", "#define USB_PID 0x0029\n#define USB_VID 0x239A\n"),
      ("b/board.h", "#define USB_PID 0x45\n"),
      ("c/board.h", "#define USB_VID 0x239A\n#define USB_PID 0x002A\n")] =
    ["Processing file: a/board.h".toList, "Processing file: b/board.h".toList,
      "Warning! No VID found in b/board.h".toList, "Processing file: c/board.h".toList,
      "UF2_VIDS_PIDS = \x7b0x239a: [0x29, 0x2a], \x7d".toList] := by decide +kernel

end Nrf52
