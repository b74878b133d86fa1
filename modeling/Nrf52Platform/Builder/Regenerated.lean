import Nrf52Platform.Builder.ResetRuns
import Nrf52Platform.Scripts.Headers

/-!
# Builder — Regenerated

The builder with a regenerated table: what `scripts/vid_dump.py` prints for a set of board headers
takes the place of `UF2_VIDS_PIDS`.

* `regenerated_lists_iff`: the table lists exactly the pairs that the dump finds in the headers.
* `replaced_regenerated`: so an upload is sent only to a port with ids that the headers define, or
  with those of Nordic's bootloader.
* `reset_regenerated`: the order in which the dump visits the headers, and the sets, is never seen
  in a run of the reset step.
-/

namespace Nrf52
open Py Scons

/-- A dump ends with one text. -/
theorem Prints.unique {out : List Str} {table table' : List (ℕ × List ℕ)} (h : Prints out table)
    (h' : Prints out table') : table = table' := by
  obtain ⟨before, text, hout, hread⟩ := h
  obtain ⟨before', text', hout', hread'⟩ := h'
  have hlast := List.append_inj_right' (hout.symm.trans hout') rfl
  have htext : text = text' := List.append_cancel_left (List.singleton_inj.mp hlast)
  rw [htext, hread', Option.some_inj] at hread
  exact hread.symm

/-- The defines that the dump finds in each header. -/
def found (isalnum : Char → Bool) (headers : List (Str × Str)) : List (List (Str × ℕ)) :=
  headers.map fun h => defines isalnum (universalNewlines h.2)

/-- A header of a board with a bootloader. -/
def adafruit : Str × Str := ("a/board.h", "#define USB_VID 0x239A\n#define USB_PID 0x0029\n")

/-- A header of another board. -/
def electronut : Str × Str := ("b/board.h", "#define USB_VID 0x1209\n#define USB_PID 0x7380\n")

theorem prints_adafruit :
    Prints (main Char.isAlphanum ascending [adafruit]) [(0x239A, [0x29])] := by
  have htable : entries ascending (collect ([adafruit].map fun h =>
      defines Char.isAlphanum (universalNewlines h.2))) = [(0x239A, [0x29])] := by decide +kernel
  exact htable ▸ prints_main Char.isAlphanum ascending [adafruit]

section Regenerated

variable {isalnum : Char → Bool} {order order' : SetOrder} {headers headers' : List (Str × Str)}
  {table table' : List (ℕ × List ℕ)}

/-- Whatever is read back from a dump is the table of the headers. -/
theorem tableOf_prints (h : Prints (main isalnum order headers) table) :
    TableOf (found isalnum headers) table := by
  rw [h.unique (prints_main isalnum order headers)]
  exact tableOf_entries order _

/-- **A regenerated table lists exactly the pairs that are found in the headers.** -/
theorem regenerated_lists_iff (h : Prints (main isalnum order headers) table) {v p : ℕ} :
    (Dict.ofList table).Lists v p ↔ Filed (found isalnum headers) v p := by
  have htable := tableOf_prints h
  have hmem : ∀ l, (Dict.ofList table).get? v = some l ↔ (v, l) ∈ table := by
    intro l
    rw [Dict.get?_ofList htable.keys_nodup]
    refine ⟨fun hl => ?_, Dict.lookup_of_mem htable.keys_nodup⟩
    obtain ⟨l₁, l₂, hl', -⟩ := List.lookup_eq_some_iff.mp hl
    rw [hl']
    simp
  refine ⟨?_, ?_⟩
  · rintro ⟨l, hl, hp⟩
    exact (htable.mem_list v l ((hmem l).mp hl) p).mp hp
  · intro hfiled
    -- some header has the VID, so the table has an entry for it
    have hkey : v ∈ table.map Prod.fst := by
      obtain ⟨defs, hdefs, hvid, -⟩ := hfiled
      exact (htable.mem_keys v).mpr ⟨defs, hdefs, hvid⟩
    obtain ⟨⟨v', l⟩, hl, rfl⟩ := List.mem_map.mp hkey
    exact ⟨l, (hmem l).mpr hl, (htable.mem_list v' l hl p).mpr hfiled⟩

/-- The ids of a bootloader: those of Nordic's, and those that the headers define under another
vendor. -/
def Recognised (defs : List (List (Str × ℕ))) (v p : ℕ) : Prop :=
  v = 0x1915 ∧ p = 0x521F ∨ v ≠ 0x1915 ∧ Filed defs v p

theorem vidsPidsOf_regenerated_iff (h : Prints (main isalnum order headers) table) {v p : ℕ} :
    (vidsPidsOf (.ofList table)).Lists v p ↔ Recognised (found isalnum headers) v p := by
  rw [vidsPidsOf_lists_iff, nordic_lists_iff, regenerated_lists_iff h]
  rfl

/-- **An upload is sent only to a bootloader that the headers define**, or to Nordic's: each port
that a run puts in place of `UPLOAD_PORT` was listed with such ids. -/
theorem replaced_regenerated (hspace : ∀ c, isspace c = true → isalnum c = false)
    (hhash : isalnum '#' = false) {defs : List (List (Str × ℕ))}
    (hgives : Gives isalnum headers defs) (h : Prints (main isalnum order headers) table)
    {w : Serial} {fuel : ℕ} {vars : Vars} {run : ResetRun}
    (hrun : resetToBootloader (vidsPidsOf (.ofList table)) w fuel vars = some run) :
    ∀ name ∈ run.replaced, ∃ k, ∃ port ∈ w.listing k, port.port = name ∧ ∃ v p,
      (getSerialPortInfo port.hwid).vid = some v ∧ (getSerialPortInfo port.hwid).pid = some p ∧
        Recognised defs v p := by
  obtain rfl := (gives_iff hspace hhash).mp hgives
  rw [← found]
  intro name hname
  simp only [← vidsPidsOf_regenerated_iff h]
  cases resets_of_run hrun with
  | absent | flushRaised | touchRaised =>
      simp [ResetRun.replaced, readEvents, List.filterMap_cons, Event.replaced] at hname
  | @already cur hcur hin =>
      obtain ⟨hmem, hport⟩ := mem_of_currentPort hcur
      obtain rfl : name = cur.port := by
        simpa [ResetRun.replaced, readEvents, List.filterMap_cons, Event.replaced] using hname
      exact ⟨0, cur, hmem, rfl, inVidsPids_iff.mp hin⟩
  | @polled cur e hsel hf ht he =>
      rw [replaced_polledRun _ w he] at hname
      cases e with
      | timeout n => cases hname
      | hit n port =>
          obtain rfl := List.mem_singleton.mp hname
          have hhit := he.2.2.2
          rw [Serial.hit] at hhit
          have htest := List.find?_some hhit
          obtain ⟨v, p, s, hinfo, -, -, -, hlists⟩ := isResetDevice_iff.mp htest
          exact ⟨n + 1, port, List.mem_of_find?_eq_some hhit, rfl, v, p, by rw [hinfo],
            by rw [hinfo], hlists⟩

theorem replaced_regenerated_adafruit : ∃ run,
    resetToBootloader (vidsPidsOf (.ofList [(0x239A, [0x29])])) reenumerating 3
      (.ofList [("UPLOAD_PORT", .str "COM3")]) = some run ∧
    ∀ name ∈ run.replaced, ∃ k, ∃ port ∈ reenumerating.listing k, port.port = name ∧ ∃ v p,
      (getSerialPortInfo port.hwid).vid = some v ∧ (getSerialPortInfo port.hwid).pid = some p ∧
        Recognised [[("USB_VID".toList, 0x239A), ("USB_PID".toList, 0x29)]] v p := by
  have hrun : resetToBootloader (vidsPidsOf (.ofList [(0x239A, [0x29])])) reenumerating 3
      (.ofList [("UPLOAD_PORT", .str "COM3")]) = some reenumerated := by decide +kernel
  have hgives : Gives Char.isAlphanum [adafruit] [[("USB_VID", 0x239A), ("USB_PID", 0x29)]] :=
    (gives_iff isAlphanum_of_isspace (by decide)).mpr (by decide +kernel)
  exact ⟨_, hrun, replaced_regenerated isAlphanum_of_isspace (by decide) hgives prints_adafruit
    hrun⟩

/-- **The order of a dump is never seen**: regenerated from the same headers in any other order,
the table drives the reset step alike. -/
theorem reset_regenerated (hperm : headers.Perm headers')
    (h : Prints (main isalnum order headers) table)
    (h' : Prints (main isalnum order' headers') table') :
    resetToBootloader (vidsPidsOf (.ofList table)) =
      resetToBootloader (vidsPidsOf (.ofList table')) := by
  have hfiled : ∀ v p, Filed (found isalnum headers) v p ↔
      Filed (found isalnum headers') v p := by
    intro v p
    simp only [Filed, found, (hperm.map _).mem_iff]
  refine resetToBootloader_congr fun v p => ?_
  rw [vidsPidsOf_lists_iff, vidsPidsOf_lists_iff, regenerated_lists_iff h,
    regenerated_lists_iff h', hfiled]

theorem reset_regenerated_swap : ∃ table table',
    Prints (main Char.isAlphanum ascending [adafruit, electronut]) table ∧
      Prints (main Char.isAlphanum ascending [electronut, adafruit]) table' ∧
      resetToBootloader (vidsPidsOf (.ofList table)) =
        resetToBootloader (vidsPidsOf (.ofList table')) := by
  have h := prints_main Char.isAlphanum ascending [adafruit, electronut]
  have h' := prints_main Char.isAlphanum ascending [electronut, adafruit]
  exact ⟨_, _, h, h', reset_regenerated (.swap _ _ _) h h'⟩

end Regenerated

end Nrf52
