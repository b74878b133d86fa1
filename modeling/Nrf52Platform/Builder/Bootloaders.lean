import Nrf52Platform.Support.Dict
import Nrf52Platform.Builder.PortInfo

/-!
# Builder — Bootloaders

The tables of bootloader ids of `builder/main.py` and the two tests `reset_to_bootloader` makes
against them: one on the selected port, one on every port of a later listing.

* `inVidsPids_iff`, `isResetDevice_iff`: what each test accepts.
* `vidsPids_pos`: the tables as they stand list no zero id, so that the second test's guard
  against missing ids costs nothing (`isResetDevice_vidsPids_iff`).
* `checks_agree_iff`: for any UF2 table in their place, when the tests accept what the tables
  list.
-/

namespace Nrf52
open Py

/-- A table of ids: vendor ids to product ids. -/
abbrev Table := Dict ℕ (List ℕ)

/-- `UF2_VIDS_PIDS`. -/
def uf2VidsPids : Table := .ofList [
  (0x239A, [0x40, 0x45, 0x87, 0x88, 0x10B, 0x10D, 0x10E, 0x51, 0x52, 0x93, 0xD8, 0xDA, 0x9F, 0x63,
    0x64, 0x29, 0x2A, 0x7B, 0xBB, 0x71, 0xB3, 0x79, 0x3B, 0x7F, 0x3F]),
  (0x1209, [0x7380, 0x7381, 0x7A01, 0x5284, 0x805A, 0xCECE]),
  (0x1D50, [0x6160, 0x6157, 0x616F]),
  (0x2886, [0x44, 0x45, 0x57, 0xF00E, 0xF00F]),
  (0x16D0, [0x10ED]),
  (0x1B4F, [0x22, 0x23])]

/-- `NORDIC_VIDS_PIDS`. -/
def nordicVidsPids : Table := .ofList [(0x1915, [0x521F])]

/-- `{**uf2, **NORDIC_VIDS_PIDS}`. -/
def vidsPidsOf (uf2 : Table) : Table := uf2.merge nordicVidsPids

/-- `VIDS_PIDS`. -/
def vidsPids : Table := vidsPidsOf uf2VidsPids

/-- `vid in VIDS_PIDS and pid in VIDS_PIDS[vid]`, on the table `t`. -/
def inVidsPids (t : Table) (vid pid : Option ℕ) : Bool :=
  match vid, pid with
  | some v, some p => t.lists v p
  | _, _ => false

/-- `not x`, for an id. -/
def falsyId : Option ℕ → Bool
  | none => true
  | some n => n == 0

/-- `not x`, for a serial. -/
def falsySer : Option Str → Bool
  | none => true
  | some s => s == []

/-- Whether the polling loop takes the port with this `hwid` for the device of serial `ser`. -/
def isResetDevice (t : Table) (ser : Option Str) (hwid : Str) : Bool :=
  if hwid = "n/a".toList then false
  else
    let new := getSerialPortInfo hwid
    if falsyId new.vid || falsyId new.pid || falsySer new.ser then false
    else decide (ser = new.ser) && inVidsPids t new.vid new.pid

/-! ### What the tests accept -/

@[simp] theorem inVidsPids_some {t : Table} {v p : ℕ} :
    inVidsPids t (some v) (some p) = true ↔ t.Lists v p := Dict.lists_iff

theorem inVidsPids_iff {t : Table} {vid pid : Option ℕ} :
    inVidsPids t vid pid = true ↔ ∃ v p, vid = some v ∧ pid = some p ∧ t.Lists v p := by
  cases vid <;> cases pid <;> simp [inVidsPids]

theorem ne_na_of_ser {hwid s : Str} (h : (getSerialPortInfo hwid).ser = some s) :
    hwid ≠ "n/a".toList := by
  rintro rfl
  rw [show getSerialPortInfo "n/a".toList = ⟨none, none, none⟩ by decide] at h
  cases h

/-- **The test of the polling loop** accepts a port iff a serial is read from it, the one looked
for, with ids that are listed and not zero. -/
theorem isResetDevice_iff {t : Table} {ser : Option Str} {hwid : Str} :
    isResetDevice t ser hwid = true ↔ ∃ v p s, getSerialPortInfo hwid = ⟨some v, some p, some s⟩ ∧
      ser = some s ∧ v ≠ 0 ∧ p ≠ 0 ∧ t.Lists v p := by
  rcases getSerialPortInfo_cases hwid with h | ⟨v, p, s, h, hne, -⟩
  · simp [isResetDevice, h, falsyId]
  · have hna : hwid ≠ "n/a".toList := ne_na_of_ser (by rw [h])
    rw [isResetDevice, if_neg hna, h]
    simp [falsyId, falsySer, hne, and_assoc, and_left_comm]

/-- The tests see of a table only what it lists. -/
theorem inVidsPids_congr {t t' : Table} (h : ∀ v p, t.Lists v p ↔ t'.Lists v p) :
    inVidsPids t = inVidsPids t' := by
  funext vid pid
  rw [Bool.eq_iff_iff, inVidsPids_iff, inVidsPids_iff]
  simp only [h]

theorem isResetDevice_congr {t t' : Table} (h : ∀ v p, t.Lists v p ↔ t'.Lists v p) :
    isResetDevice t = isResetDevice t' := by
  funext ser hwid
  rw [isResetDevice, isResetDevice, inVidsPids_congr h]

/-! ### The tables as they stand -/

theorem vidsPids_pos {v p : ℕ} (h : vidsPids.Lists v p) : v ≠ 0 ∧ p ≠ 0 := by
  have hall : ∀ e ∈ vidsPids.items, e.1 ≠ 0 ∧ ∀ p ∈ e.2, p ≠ 0 := by decide
  obtain ⟨l, hl, hp⟩ := h
  have he := hall (v, l) ((Dict.mem_items_iff _).mpr hl)
  exact ⟨he.1, he.2 p hp⟩

/-- With the tables as they stand the polling loop accepts a port iff its serial is the one looked
for and its ids are listed. -/
theorem isResetDevice_vidsPids_iff {ser : Option Str} {hwid : Str} :
    isResetDevice vidsPids ser hwid = true ↔ ∃ v p s,
      getSerialPortInfo hwid = ⟨some v, some p, some s⟩ ∧ ser = some s ∧ vidsPids.Lists v p := by
  rw [isResetDevice_iff]
  refine ⟨?_, ?_⟩
  · rintro ⟨v, p, s, h, hs, -, -, hl⟩
    exact ⟨v, p, s, h, hs, hl⟩
  · rintro ⟨v, p, s, h, hs, hl⟩
    exact ⟨v, p, s, h, hs, (vidsPids_pos hl).1, (vidsPids_pos hl).2, hl⟩

/-! ### Any UF2 table -/

theorem nordic_lists_iff {v p : ℕ} : nordicVidsPids.Lists v p ↔ v = 0x1915 ∧ p = 0x521F := by
  rw [Dict.Lists, nordicVidsPids, Dict.get?_ofList (by decide)]
  by_cases h : v = 0x1915
  · subst h
    simp
  · rw [Dict.lookup_cons_ne h]
    simp [h]

/-- The Nordic vendor id is the only one whose UF2 entry is lost in the merge. -/
theorem vidsPidsOf_lists_iff {uf2 : Table} {v p : ℕ} :
    (vidsPidsOf uf2).Lists v p ↔ nordicVidsPids.Lists v p ∨ (v ≠ 0x1915 ∧ uf2.Lists v p) := by
  have hget : nordicVidsPids.get? v = none ↔ v ≠ 0x1915 := by
    rw [nordicVidsPids, Dict.get?_ofList (by decide), List.lookup_eq_none_iff]
    simp
  rw [vidsPidsOf, Dict.lists_merge_iff, hget]

/-- What is expected of the two tests for a port that gives `(vid, pid, ser)`: each accepts it iff
one of the tables lists the pair. -/
def ChecksAgree (uf2 : Table) (hwid : Str) (vid pid : ℕ) (ser : Str) : Prop :=
  (inVidsPids (vidsPidsOf uf2) (getSerialPortInfo hwid).vid (getSerialPortInfo hwid).pid = true ↔
    uf2.Lists vid pid ∨ nordicVidsPids.Lists vid pid) ∧
  (isResetDevice (vidsPidsOf uf2) (some ser) hwid = true ↔
    uf2.Lists vid pid ∨ nordicVidsPids.Lists vid pid)

/-- **When the tests accept what the tables list.**  Of the pairs the UF2 table lists, one under
the Nordic vendor id is forgotten unless the Nordic table has it too, and one with a zero id is
accepted by the first test only; every other port is judged alike by both. -/
theorem checks_agree_iff (uf2 : Table) {hwid : Str} {vid pid : ℕ} {ser : Str}
    (h : getSerialPortInfo hwid = ⟨some vid, some pid, some ser⟩) :
    ChecksAgree uf2 hwid vid pid ser ↔
      (uf2.Lists vid pid → (vid = 0x1915 → pid = 0x521F) ∧ vid ≠ 0 ∧ pid ≠ 0) := by
  have hfirst : inVidsPids (vidsPidsOf uf2) (getSerialPortInfo hwid).vid
      (getSerialPortInfo hwid).pid = true ↔ (vidsPidsOf uf2).Lists vid pid := by
    rw [h, inVidsPids_some]
  have hpoll : isResetDevice (vidsPidsOf uf2) (some ser) hwid = true ↔
      vid ≠ 0 ∧ pid ≠ 0 ∧ (vidsPidsOf uf2).Lists vid pid := by
    rw [isResetDevice_iff, h]
    refine ⟨?_, ?_⟩
    · rintro ⟨v, p, s, heq, -, hv, hp, hl⟩
      cases heq
      exact ⟨hv, hp, hl⟩
    · rintro ⟨hv, hp, hl⟩
      exact ⟨vid, pid, ser, rfl, rfl, hv, hp, hl⟩
  rw [ChecksAgree, hfirst, hpoll, vidsPidsOf_lists_iff, nordic_lists_iff]
  by_cases hv : vid = 0x1915
  · subst hv
    by_cases hp : pid = 0x521F <;> simp [hp]
  · by_cases hl : uf2.Lists vid pid
    · simp [hv, hl]
    · simp [hv, hl]

theorem checks_agree_iff_239A : uf2VidsPids.Lists 0x239A 0x29 ∧
    ChecksAgree uf2VidsPids (usbHwid 0x239A 0x29 "S".toList none) 0x239A 0x29 "S".toList :=
  ⟨by decide, (checks_agree_iff uf2VidsPids (by decide)).mpr fun _ => by decide⟩

/-- A UF2 table with an entry of its own under the Nordic vendor id, and one with a zero id. -/
def regenerated : Table := .ofList [(0x1915, [0x1]), (0x239A, [0x0])]

theorem checks_disagree :
    getSerialPortInfo (usbHwid 0x1915 0x1 "S".toList none) =
      ⟨some 0x1915, some 0x1, some "S".toList⟩ ∧
    ¬ ChecksAgree regenerated (usbHwid 0x1915 0x1 "S".toList none) 0x1915 0x1 "S".toList ∧
    ¬ ChecksAgree regenerated (usbHwid 0x239A 0x0 "S".toList none) 0x239A 0x0 "S".toList := by
  simp only [ChecksAgree]
  decide

end Nrf52
