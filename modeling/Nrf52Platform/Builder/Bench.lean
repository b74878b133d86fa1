import Nrf52Platform.Builder.Targets

/-!
# Builder — Bench

What the reset step is for, in terms of devices.  Several boards are plugged in, each with a serial
number of its own, under port names that change as they are reset, unplugged and plugged in again;
the port lister shows them as texts.

* `isResetDevice_shown`: the test of the polling loop is the question whether the device is in
  bootloader mode at the port.
* `hit_shown`: so the loop watches for the device (`Bench.boot`).
* `goes_of_run`: where the step leaves the upload.
* `flashed_follows`: the Nordic target hands its tool a port of the selected device in bootloader
  mode, never that of another, or the port it was given.
* `flashed_reaches`: it does so for a device that shows up in time.
* `resets_touch_once`: while the device stays there, further resets leave it alone.
-/

namespace Nrf52
open Py Scons Shell

/-! ### Devices and ports -/

/-- Devices with serial numbers of their own. -/
structure Devices (D : Type) where
  serial : D → Str
  injective : Function.Injective serial
  ne_nil : ∀ d, serial d ≠ []
  solid : ∀ d, ' ' ∉ serial d

/-- A port: that of a device, which is in the mode its ids say, or one without ids and a serial. -/
inductive Socket (D : Type) where
  | device (port : Str) (d : D) (vid pid : Fin (2 ^ 16)) (location : Option Str)
  | other (port hwid : Str) (hother : getSerialPortInfo hwid = ⟨none, none, none⟩)

namespace Socket

variable {D : Type}

/-- The name of a port. -/
def port : Socket D → Str
  | device port _ _ _ _ => port
  | other port _ _ => port

/-- The port, as the lister shows it. -/
def shown (devices : Devices D) : Socket D → Port
  | device port d vid pid location => ⟨port, usbHwid vid pid (devices.serial d) location⟩
  | other port hwid _ => ⟨port, hwid⟩

/-- The device `d` is there. -/
def Holds (d : D) : Socket D → Prop
  | device _ d' _ _ _ => d' = d
  | other _ _ _ => False

/-- The device `d` is there, in bootloader mode. -/
def Boots (d : D) : Socket D → Prop
  | device _ d' vid pid _ => d' = d ∧ vidsPids.Lists vid pid
  | other _ _ _ => False

instance instDecidableBoots [DecidableEq D] (d : D) : (s : Socket D) → Decidable (s.Boots d)
  | device _ _ _ _ _ => inferInstanceAs (Decidable (_ ∧ _))
  | other _ _ _ => inferInstanceAs (Decidable False)

theorem port_shown (devices : Devices D) (s : Socket D) : (s.shown devices).port = s.port := by
  cases s <;> rfl

theorem Boots.holds {d : D} {s : Socket D} (h : s.Boots d) : s.Holds d := by
  cases s with
  | device => exact h.1
  | other => exact h

end Socket

/-- The text of a device is read back. -/
theorem getSerialPortInfo_device {D : Type} (devices : Devices D) (d : D) (vid pid : Fin (2 ^ 16))
    (location : Option Str) :
    getSerialPortInfo (usbHwid vid pid (devices.serial d) location) =
      ⟨some vid, some pid, some (devices.serial d)⟩ :=
  getSerialPortInfo_solid vid pid location (devices.ne_nil d) (devices.solid d)

section Shown

variable {D : Type} {devices : Devices D} {d : D} {s : Socket D}

/-- **The test of the polling loop, on devices.** -/
theorem isResetDevice_shown :
    isResetDevice vidsPids (some (devices.serial d)) (s.shown devices).hwid = true ↔
      s.Boots d := by
  rw [isResetDevice_vidsPids_iff]
  cases s with
  | device port d' vid pid location =>
      simp only [Socket.shown, getSerialPortInfo_device, Socket.Boots]
      refine ⟨?_, ?_⟩
      · rintro ⟨v, p, ser, hinfo, hser, hlists⟩
        cases hinfo
        exact ⟨(devices.injective (Option.some.inj hser)).symm, hlists⟩
      · rintro ⟨rfl, hlists⟩
        exact ⟨_, _, _, rfl, rfl, hlists⟩
  | other port hwid hother => simp [Socket.shown, hother, Socket.Boots]

/-- The test on the selected port, for a port that holds the device. -/
theorem inVidsPids_shown (devices : Devices D) (hd : s.Holds d) :
    inVidsPids vidsPids (getSerialPortInfo (s.shown devices).hwid).vid
        (getSerialPortInfo (s.shown devices).hwid).pid = true ↔ s.Boots d := by
  cases s with
  | device port d' vid pid location =>
      obtain rfl : d' = d := hd
      simp [Socket.shown, getSerialPortInfo_device, Socket.Boots]
  | other => exact hd.elim

/-- The serial the step watches for. -/
theorem ser_shown (devices : Devices D) (hd : s.Holds d) :
    (getSerialPortInfo (s.shown devices).hwid).ser = some (devices.serial d) := by
  cases s with
  | device port d' vid pid location =>
      obtain rfl : d' = d := hd
      rw [Socket.shown, getSerialPortInfo_device]
  | other => exact hd.elim

end Shown

/-! ### A run on the bench -/

/-- What the step meets: the ports there are when each listing is taken, under names that are
distinct and without dollar signs; the clock; and which ports do not open. -/
structure Bench (D : Type) where
  sockets : ℕ → List (Socket D)
  names : ∀ k, ((sockets k).map Socket.port).Nodup
  plain : ∀ k, ∀ s ∈ sockets k, '$' ∉ s.port
  clock : ℕ → ℚ
  flushRaises : Str → Bool
  touchRaises : Str → Bool

namespace Bench

variable {D : Type}

/-- The bench, as the step sees it. -/
def shown (devices : Devices D) (b : Bench D) : Serial where
  listing k := (b.sockets k).map (Socket.shown devices)
  clock := b.clock
  flushRaises := b.flushRaises
  touchRaises := b.touchRaises

/-- The port at which pass `k` of the polling loop sees the device in bootloader mode. -/
def boot [DecidableEq D] (b : Bench D) (d : D) (k : ℕ) : Option Str :=
  ((b.sockets (k + 1)).find? fun s => decide (s.Boots d)).map Socket.port

/-- The device is plugged in under the name. -/
def At (b : Bench D) (d : D) (name : Str) : Prop := ∃ s ∈ b.sockets 0, s.port = name ∧ s.Holds d

/-- The passes up to `n` are in time. -/
def InTime (b : Bench D) (n : ℕ) : Prop := ∀ j ≤ n, b.clock (j + 1) - b.clock 0 < resetTimeout

/-- Where the upload to the device `d`, selected under a name, goes: to the port itself when the
device is in bootloader mode there; else to the first port at which it is seen in that mode, in
time; and to the port itself if it is not seen. -/
inductive Goes [DecidableEq D] (b : Bench D) (d : D) (name : Str) : Str → Prop where
  | boots {s : Socket D} (hs : s ∈ b.sockets 0) (hname : s.port = name) (hboots : s.Boots d) :
      Goes b d name name
  | seen {n : ℕ} {port : Str} (happ : ∀ s ∈ b.sockets 0, s.port = name → ¬ s.Boots d)
      (htime : b.InTime n) (hbefore : ∀ j < n, b.boot d j = none)
      (hboot : b.boot d n = some port) : Goes b d name port
  | lost (happ : ∀ s ∈ b.sockets 0, s.port = name → ¬ s.Boots d)
      (hnever : ∀ n, b.InTime n → b.boot d n = none) : Goes b d name name

section Runs

variable {devices : Devices D} {b : Bench D} {d : D}

/-- The port the step selects by a name. -/
theorem currentPort_of_mem (devices : Devices D) {s : Socket D} (hs : s ∈ b.sockets 0) :
    currentPort s.port ((b.shown devices).listing 0) = some (s.shown devices) := by
  have hports : ((b.shown devices).listing 0).map Port.port = (b.sockets 0).map Socket.port := by
    rw [shown, List.map_map]
    exact List.map_congr_left fun s _ => s.port_shown devices
  exact (currentPort_eq_some_iff (hports ▸ b.names 0)).mpr
    ⟨List.mem_map_of_mem hs, s.port_shown devices⟩

theorem currentPort_shown {name : Str} {cur : Port}
    (h : currentPort name ((b.shown devices).listing 0) = some cur) (hat : b.At d name) :
    ∃ s ∈ b.sockets 0, s.port = name ∧ s.Holds d ∧ cur = s.shown devices := by
  obtain ⟨s, hs, rfl, hd⟩ := hat
  exact ⟨s, hs, rfl, hd, Option.some.inj (h.symm.trans (currentPort_of_mem devices hs))⟩

/-- A port without dollar signs is what `UPLOAD_PORT` stands for. -/
theorem uploadPort_of_get? {vars : Vars} {port : Str}
    (h : vars.get? "UPLOAD_PORT" = some (.str port)) (hport : '$' ∉ port) :
    uploadPort vars = port := subst_stored "UPLOAD_PORT" (by decide) h hport

theorem uploadPort_set (vars : Vars) {port : Str} (hport : '$' ∉ port) :
    uploadPort (vars.set "UPLOAD_PORT" (.str port)) = port :=
  uploadPort_of_get? (Dict.get?_set_self _ _ _) hport

/-- There is one port of a name at a time. -/
theorem eq_of_port_eq {k : ℕ} {s s' : Socket D} (hs : s ∈ b.sockets k) (hs' : s' ∈ b.sockets k)
    (h : s.port = s'.port) : s = s' :=
  List.inj_on_of_nodup_map (b.names k) hs hs' h

variable [DecidableEq D]

/-- **The loop watches for the device.** -/
theorem hit_shown (k : ℕ) : (b.shown devices).hit vidsPids (some (devices.serial d)) k =
    ((b.sockets (k + 1)).find? fun s => decide (s.Boots d)).map (Socket.shown devices) := by
  have htest : (fun port : Port => isResetDevice vidsPids (some (devices.serial d)) port.hwid) ∘
      Socket.shown devices = fun s => decide (s.Boots d) := by
    funext s
    rw [Function.comp_apply, Bool.eq_iff_iff, decide_eq_true_iff]
    exact isResetDevice_shown
  rw [Serial.hit, shown, List.find?_map, htest]

/-- The port a pass stops at is that of the device. -/
theorem boot_eq (devices : Devices D) (k : ℕ) : b.boot d k =
    ((b.shown devices).hit vidsPids (some (devices.serial d)) k).map Port.port := by
  rw [hit_shown, Option.map_map]
  refine congrArg (Option.map · _) (funext fun s => ?_)
  exact (s.port_shown devices).symm

/-- A port at which the device is seen. -/
theorem mem_of_boot {k : ℕ} {port : Str} (h : b.boot d k = some port) :
    ∃ s ∈ b.sockets (k + 1), s.port = port ∧ s.Boots d := by
  obtain ⟨s, hs, rfl⟩ := Option.map_eq_some_iff.mp h
  exact ⟨s, List.mem_of_find?_eq_some hs, rfl, by simpa using List.find?_some hs⟩

/-- **Where the step leaves the upload** to a device that is plugged in under the name given. -/
theorem goes_of_run {vars : Vars} {fuel : ℕ} {run : ResetRun} (hat : b.At d (uploadPort vars))
    (h : resetToBootloader vidsPids (b.shown devices) fuel vars = some run)
    (hret : run.result = .none) : b.Goes d (uploadPort vars) (uploadPort run.vars) := by
  cases resets_of_run h with
  | absent hcur =>
      obtain ⟨s, hs, hname, -⟩ := hat
      exact absurd ((s.port_shown devices).trans hname)
        (currentPort_eq_none_iff.mp hcur _ (List.mem_map_of_mem hs))
  | already hcur hin =>
      obtain ⟨s, hs, hname, hd, rfl⟩ := currentPort_shown hcur hat
      rw [uploadPort_set _ (by rw [s.port_shown]; exact b.plain 0 s hs), s.port_shown, hname]
      exact .boots hs hname ((inVidsPids_shown devices hd).mp hin)
  | flushRaised | touchRaised => cases hret
  | @polled cur e hsel hf ht he =>
      obtain ⟨s, hs, hname, hd, rfl⟩ := currentPort_shown hsel.1 hat
      have happ : ∀ s' ∈ b.sockets 0, s'.port = uploadPort vars → ¬ s'.Boots d := by
        intro s' hs' hname' hboots
        obtain rfl := eq_of_port_eq hs' hs (hname'.trans hname.symm)
        rw [← inVidsPids_shown devices hd, hsel.2] at hboots
        cases hboots
      rw [ser_shown devices hd] at he
      cases e with
      | hit n port =>
          obtain ⟨-, hpast, hn, hport⟩ := he
          have hboot : b.boot d n = some port.port := by
            rw [boot_eq devices, hport]
            rfl
          obtain ⟨s', hs', hname', -⟩ := mem_of_boot hboot
          have hplain : '$' ∉ port.port := hname' ▸ b.plain _ s' hs'
          have hset : uploadPort (vars.set "UPLOAD_PORT" (.str port.port)) = port.port :=
            uploadPort_set vars hplain
          rw [Serial.polledRun, Watch.Ending.found, retarget, hset]
          refine .seen happ (fun j hj => ?_) (fun j hj => ?_) hboot
          · rcases Nat.eq_or_lt_of_le hj with rfl | hj
            · exact Watch.expired_eq_false.mp hn
            · exact Watch.expired_eq_false.mp (hpast j (Nat.zero_le j) hj).1
          · rw [boot_eq devices, (hpast j (Nat.zero_le j) hj).2, Option.map_none]
      | timeout n =>
          obtain ⟨-, hpast, hn⟩ := he
          refine .lost happ fun j hj => ?_
          have hlt : j < n := by
            by_contra hle
            exact absurd (hj n (not_lt.mp hle)) (not_lt.mpr (Watch.expired_eq_true.mp hn))
          rw [boot_eq devices, (hpast j (Nat.zero_le j) hlt).2, Option.map_none]

end Runs

end Bench

/-! ### A bench of two boards -/

/-- Two boards. -/
def boards : Devices Bool where
  serial d := if d then "B2" else "A1"
  injective := by
    intro d d'
    revert d d'
    decide
  ne_nil := by decide
  solid := by decide

/-- A board that is reset comes back at another port, when a second one is there. -/
def twoBoards : Bench Bool where
  sockets k := match k with
    | 0 => [.device "COM3" false 0x239A 0x8029 none]
    | 1 => [.other "COM1" "n/a" (by decide)]
    | _ => [.device "COM2" true 0x239A 0x0029 none, .device "COM4" false 0x239A 0x0029 none]
  names k := by
    rcases k with _ | _ | k
    · decide
    · decide
    · show ["COM2".toList, "COM4".toList].Nodup
      decide
  plain k := by
    rcases k with _ | _ | k <;> simp [Socket.port]
  clock k := k / 2
  flushRaises _ := false
  touchRaises _ := false

/-- The board in bootloader mode. -/
def docked : Bench Bool where
  sockets _ := [.device "COM4" false 0x239A 0x0029 none]
  names _ := List.nodup_singleton _
  plain _ := by simp [Socket.port]
  clock _ := 0
  flushRaises _ := false
  touchRaises _ := false

/-- An environment that uploads through `COM3`. -/
def com3 : State := ⟨.ofList [("UPLOAD_PORT", .str "COM3")], [], []⟩

theorem reset_twoBoards : resetToBootloader vidsPids (twoBoards.shown boards) 3 com3.vars =
    some reenumerated := by
  decide +kernel

namespace Bench

section Flashing

variable {D : Type} [DecidableEq D] {devices : Devices D} {b : Bench D} {d : D}

/-! ### Flashing a device -/

/-- Only the device `d` is at the port when listing `k` is taken, and it is in bootloader mode. -/
def BootsAt (b : Bench D) (d : D) (k : ℕ) (port : Str) : Prop :=
  (∃ s ∈ b.sockets k, s.port = port ∧ s.Boots d) ∧
    ∀ s ∈ b.sockets k, s.port = port → ∀ d', s.Holds d' → d' = d

omit [DecidableEq D] in
theorem bootsAt_of_mem {k : ℕ} {s : Socket D} (hs : s ∈ b.sockets k) (hboots : s.Boots d) :
    b.BootsAt d k s.port := by
  refine ⟨⟨s, hs, rfl, hboots⟩, fun s' hs' hport d' hd' => ?_⟩
  obtain rfl := eq_of_port_eq hs' hs hport
  cases s' with
  | device port d₀ vid pid location => exact hd'.symm.trans hboots.1
  | other => exact hboots.elim

/-- An upload goes to a port where the device was seen in bootloader mode, and no other device, or
where it was sent. -/
theorem Goes.port_eq_or {name port : Str} (h : b.Goes d name port) :
    port = name ∨ ∃ k, b.BootsAt d k port := by
  cases h with
  | boots | lost => exact .inl rfl
  | seen happ htime hbefore hboot =>
      obtain ⟨s, hs, rfl, hboots⟩ := mem_of_boot hboot
      exact .inr ⟨_, bootsAt_of_mem hs hboots⟩

variable {tools : Tools} {files : Files} {st st' : State} {ok : Bool} {fuel : ℕ}

omit [DecidableEq D] in
/-- The call of the Nordic tool, and what it came to. -/
theorem nordic_call (flash : List Str → Result) (source : Node) (st : State) :
    (uploadNordic flash source st).2.vars = st.vars ∧
    (uploadNordic flash source st).2.runs = st.runs ++ [.python "flash_dfu_package"
      [uploadPort st.vars, strOr (st.subst "$UPLOAD_SPEED") "115200", source.str]
      (!(uploadNordic flash source st).1.failed)] := by
  refine ⟨rfl, ?_⟩
  rw [uploadNordic]
  cases flash [st.subst "$UPLOAD_PORT", strOr (st.subst "$UPLOAD_SPEED") "115200", source.str]
  all_goals rfl

/-- **The Nordic target follows the selected device**: the tool is called once, with the port where
the upload to the device goes, and its success is what is reported; unless the port does not
open. -/
theorem flashed_follows (hat : b.At d (uploadPort st.vars))
    (h : runTarget tools files (b.shown devices) fuel "flash_serial_nordic" st = some (ok, st')) :
    (ok = false ∧ st'.runs = st.runs ∧ (b.shown devices).Raises st.vars) ∨
      st'.runs = st.runs ++ [.python "flash_dfu_package" [uploadPort st'.vars,
        strOr (st'.subst "$UPLOAD_SPEED") "115200", files.targetDfuNordic.str] ok] ∧
      b.Goes d (uploadPort st.vars) (uploadPort st'.vars) ∧
      (uploadPort st'.vars = uploadPort st.vars ∨ ∃ k, b.BootsAt d k (uploadPort st'.vars)) := by
  have hactions : runActions [resetAction (b.shown devices) fuel, fun st =>
      some (uploadNordic tools.flashDfuPackage files.targetDfuNordic st)] st = some (ok, st') := h
  obtain ⟨reset, hreset, ⟨-, hw, rfl, hruns⟩ | ⟨hret, -, rfl, rfl⟩⟩ := runActions_reset hactions
  · exact .inl ⟨rfl, hruns, hw⟩
  · have hgoes := goes_of_run hat hreset hret
    obtain ⟨hvars, hruns⟩ := nordic_call tools.flashDfuPackage files.targetDfuNordic
      { st with vars := reset.vars }
    exact .inr ⟨hruns, hgoes, hgoes.port_eq_or⟩

theorem flashed_follows_twoBoards : ∃ ok st', runTarget working merged (twoBoards.shown boards) 3
      "flash_serial_nordic" com3 = some (ok, st') ∧
    ((ok = false ∧ st'.runs = [] ∧ (twoBoards.shown boards).Raises com3.vars) ∨
      st'.runs = [] ++ [.python "flash_dfu_package" [uploadPort st'.vars,
        strOr (st'.subst "$UPLOAD_SPEED") "115200", "merged_nordic.zip"] ok] ∧
      twoBoards.Goes false (uploadPort com3.vars) (uploadPort st'.vars) ∧
      (uploadPort st'.vars = uploadPort com3.vars ∨
        ∃ k, twoBoards.BootsAt false k (uploadPort st'.vars))) := by
  have hat : twoBoards.At false (uploadPort com3.vars) :=
    ⟨_, List.mem_cons_self, by decide, rfl⟩
  have hrun : runTarget working merged (twoBoards.shown boards) 3 "flash_serial_nordic" com3 = _ :=
    runActions_of_reset reset_twoBoards
  exact ⟨_, _, hrun, flashed_follows hat hrun⟩

/-- Pass `k` is in time and has not seen the device, so that it sleeps and another follows. -/
def Waits (b : Bench D) (d : D) (k : ℕ) : Prop := b.InTime k ∧ ∀ j ≤ k, b.boot d j = none

theorem waits_iff_made {k : ℕ} : b.Waits d k ↔ Watch.Made (b.shown devices).expired
    ((b.shown devices).hit vidsPids (some (devices.serial d))) k := by
  have hboot : ∀ j, b.boot d j = none ↔
      (b.shown devices).hit vidsPids (some (devices.serial d)) j = none := by
    intro j
    rw [boot_eq devices, Option.map_eq_none_iff]
  simp only [Waits, InTime, Watch.Made, hboot, Watch.expired_eq_false]
  exact ⟨fun h j hj => ⟨h.1 j hj, h.2 j hj⟩,
    fun h => ⟨fun j hj => (h j hj).1, fun j hj => (h j hj).2⟩⟩

/-- **The Nordic target reaches a device that shows up in time.**  Let each pass that sleeps last
from half a second to half a second and `D`, the first reading come within `D`, and listing `k` be
taken at `taken k`, after the reading that heads its pass.  If for a time `T` that a pass and `D`
separate from the deadline every listing taken at `T` or later has the device in bootloader mode,
the reset polls twenty times at most, and the tool is handed a port where the device is. -/
theorem flashed_reaches {D' : ℚ} {taken : ℕ → ℚ} {T : ℚ} (hat : b.At d (uploadPort st.vars))
    (happ : ∀ s ∈ b.sockets 0, s.port = uploadPort st.vars → ¬ s.Boots d)
    (hf : b.flushRaises (uploadPort st.vars) = false)
    (ht : b.touchRaises (uploadPort st.vars) = false)
    (hpace : Watch.Paced (b.clock 0) (1 / 2) D' (fun k => b.clock (k + 1)) (b.Waits d))
    (htaken : ∀ k, b.clock (k + 1) ≤ taken k) (hT : 0 ≤ T) (hwindow : T + 1 / 2 + D' < resetTimeout)
    (hshows : ∀ k, T ≤ taken k - b.clock 0 → ∃ s ∈ b.sockets (k + 1), s.Boots d) :
    ∃ k ≤ 20, ∃ ok st', (∀ fuel, 21 ≤ fuel →
        runTarget tools files (b.shown devices) fuel "flash_serial_nordic" st = some (ok, st') ∧
        ∃ reset, resetToBootloader vidsPids (b.shown devices) fuel st.vars = some reset ∧
          reset.listings ≤ 1 + 20) ∧
      st'.runs = st.runs ++ [.python "flash_dfu_package" [uploadPort st'.vars,
        strOr (st'.subst "$UPLOAD_SPEED") "115200", files.targetDfuNordic.str] ok] ∧
      b.BootsAt d k (uploadPort st'.vars) := by
  obtain ⟨s, hs, hname, hd⟩ := hat
  have hsel : (b.shown devices).Selects vidsPids st.vars (s.shown devices) := by
    refine ⟨hname ▸ currentPort_of_mem devices hs, ?_⟩
    rw [← Bool.not_eq_true, inVidsPids_shown devices hd]
    exact happ s hs hname
  have hmade : b.Waits d = Watch.Made (b.shown devices).expired
      ((b.shown devices).hit vidsPids (some (devices.serial d))) :=
    funext fun k => propext waits_iff_made
  rw [hmade] at hpace
  have hlimit : resetTimeout ≤ (20 : ℕ) * (1 / 2) := by norm_num [resetTimeout]
  obtain ⟨e, he, hindex⟩ := hpace.exists_ends hlimit
  -- a listing is taken after the reading that heads its pass, so from `T` on it has the device
  have hthere : ∀ k, (b.shown devices).expired k = false → (∀ j < k, Watch.Made
      (b.shown devices).expired ((b.shown devices).hit vidsPids (some (devices.serial d))) j) →
      T ≤ b.clock (k + 1) - b.clock 0 →
        ((b.shown devices).hit vidsPids (some (devices.serial d)) k).isSome := by
    intro k _ _ hk
    obtain ⟨s', hs', hboots⟩ := hshows k (by linarith [htaken k])
    rw [hit_shown, Option.isSome_map, List.find?_isSome]
    exact ⟨s', hs', decide_eq_true hboots⟩
  obtain ⟨n, port, rfl⟩ := hpace.hit_of_window (by norm_num) hT hwindow hthere he
  obtain ⟨s', hs', hboots, rfl⟩ :
      ∃ s' ∈ b.sockets (n + 1), s'.Boots d ∧ s'.shown devices = port := by
    have hhit := he.2.2.2
    rw [hit_shown] at hhit
    obtain ⟨s', hfind, hport⟩ := Option.map_eq_some_iff.mp hhit
    exact ⟨s', List.mem_of_find?_eq_some hfind, by simpa using List.find?_some hfind, hport⟩
  have hpolls := hpace.polls_le hlimit he
  rw [← ser_shown devices hd] at he
  have hlistings := @listings_polledRun vidsPids (b.shown devices) st.vars _ _ he
  have hreset : ∀ fuel, 21 ≤ fuel → resetToBootloader vidsPids (b.shown devices) fuel st.vars =
      some ((b.shown devices).polledRun vidsPids st.vars (s.shown devices)
        (.hit n (s'.shown devices))) :=
    fun fuel hfuel => run_of_ends hsel hf ht he (by omega)
  have hport : uploadPort (st.vars.set "UPLOAD_PORT" (.str (s'.shown devices).port)) = s'.port := by
    rw [s'.port_shown, uploadPort_set _ (b.plain _ s' hs')]
  obtain ⟨hvars, hruns⟩ := nordic_call tools.flashDfuPackage files.targetDfuNordic
    { st with vars := st.vars.set "UPLOAD_PORT" (.str (s'.shown devices).port) }
  refine ⟨n + 1, hpolls, _, _, fun fuel hfuel => ⟨?_, _, hreset fuel hfuel, ?_⟩, hruns, ?_⟩
  · exact @runActions_of_reset _ _ _ (uploadNordic tools.flashDfuPackage files.targetDfuNordic) _
      (hreset fuel hfuel)
  · rw [hlistings]
    exact Nat.add_le_add_left hpolls 1
  · rw [hvars, hport]
    exact bootsAt_of_mem hs' hboots

theorem flashed_reaches_twoBoards : ∃ k ≤ 20, ∃ ok st', (∀ fuel, 21 ≤ fuel →
      runTarget working merged (twoBoards.shown boards) fuel "flash_serial_nordic" com3 =
        some (ok, st') ∧
      ∃ reset, resetToBootloader vidsPids (twoBoards.shown boards) fuel com3.vars = some reset ∧
        reset.listings ≤ 1 + 20) ∧
    st'.runs = [] ++ [.python "flash_dfu_package" [uploadPort st'.vars,
      strOr (st'.subst "$UPLOAD_SPEED") "115200", "merged_nordic.zip"] ok] ∧
    twoBoards.BootsAt false k (uploadPort st'.vars) := by
  have hpass : ∀ k : ℕ, twoBoards.clock (k + 1 + 1) - twoBoards.clock (k + 1) = 1 / 2 :=
    fun k => by simp only [twoBoards]; push_cast; ring
  have hat : twoBoards.At false (uploadPort com3.vars) :=
    ⟨_, List.mem_cons_self, by decide, rfl⟩
  have happ : ∀ s ∈ twoBoards.sockets 0, s.port = uploadPort com3.vars → ¬ s.Boots false := by
    intro s hs _
    obtain rfl := List.mem_singleton.mp hs
    decide
  have hshows : ∀ k, (1 : ℚ) ≤ twoBoards.clock (k + 1) - twoBoards.clock 0 →
      ∃ s ∈ twoBoards.sockets (k + 1), s.Boots false := by
    intro k hk
    rcases k with _ | k
    · norm_num [twoBoards] at hk
    · exact ⟨_, List.mem_cons_of_mem _ List.mem_cons_self, by decide⟩
  have hpace : Watch.Paced (twoBoards.clock 0) (1 / 2) (1 / 2) (fun k => twoBoards.clock (k + 1))
      (twoBoards.Waits false) :=
    ⟨by norm_num [twoBoards], by norm_num [twoBoards], fun k _ => (hpass k).ge,
      fun k _ => (hpass k).le.trans (by norm_num)⟩
  exact flashed_reaches hat happ rfl rfl hpace (fun _ => le_rfl) zero_le_one
    (by norm_num [resetTimeout]) hshows

/-! ### Further resets -/

omit [DecidableEq D] in
/-- A reset of a device that is in bootloader mode leaves it alone. -/
theorem run_of_boots (devices : Devices D) (fuel : ℕ) {vars : Vars} {s : Socket D}
    (hs : s ∈ b.sockets 0) (hboots : s.Boots d) (hname : s.port = uploadPort vars) : ∃ run,
      resetToBootloader vidsPids (b.shown devices) fuel vars = some run ∧ run.result = .none ∧
        run.serial = [] ∧ uploadPort run.vars = uploadPort vars := by
  have hcur := currentPort_of_mem devices hs
  have hin := (inVidsPids_shown devices hboots.holds).mpr hboots
  rw [hname] at hcur
  refine ⟨⟨readEvents (s.shown devices) [.print "Device is already in bootloader mode.",
    .replace (s.shown devices).port], .none,
    vars.set "UPLOAD_PORT" (.str (s.shown devices).port)⟩, ?_, rfl, ?_, ?_⟩
  · simp [resetToBootloader, hcur, hin, readEvents]
  · simp [ResetRun.serial, readEvents, Event.isSerial]
  · rw [s.port_shown, uploadPort_set _ (b.plain 0 s hs), hname]

/-- Resets that follow one another, each on the variables the one before has left. -/
def resets (t : Table) (fuel : ℕ) : List Serial → Vars → Option (List ResetRun)
  | [], _ => some []
  | w :: ws, vars =>
      match resetToBootloader t w fuel vars with
      | none => none
      | some run => (resets t fuel ws run.vars).map (run :: ·)

omit [DecidableEq D] in
theorem resets_cons {t : Table} {w : Serial} {ws : List Serial} {vars : Vars} {run : ResetRun}
    {runs : List ResetRun} (h : resetToBootloader t w fuel vars = some run)
    (hruns : resets t fuel ws run.vars = some runs) :
    resets t fuel (w :: ws) vars = some (run :: runs) := by
  rw [resets, h]
  exact congrArg (Option.map (run :: ·)) hruns

omit [DecidableEq D] in
/-- **A device in bootloader mode is left alone**, however often it is reset while it stays at its
port. -/
theorem resets_settle (devices : Devices D) (fuel : ℕ) {benches : List (Bench D)} {vars : Vars}
    (hthere : ∀ b ∈ benches, ∃ s ∈ b.sockets 0, s.port = uploadPort vars ∧ s.Boots d) :
    ∃ runs, resets vidsPids fuel (benches.map (shown devices)) vars = some runs ∧
      runs.length = benches.length ∧ ∀ run ∈ runs, run.result = .none ∧ run.serial = [] ∧
        uploadPort run.vars = uploadPort vars := by
  induction benches generalizing vars with
  | nil => exact ⟨[], rfl, rfl, by simp⟩
  | cons b benches ih =>
      obtain ⟨s, hs, hname, hboots⟩ := hthere b List.mem_cons_self
      obtain ⟨run, hrun, hret, hserial, hport⟩ :=
        run_of_boots devices fuel hs hboots hname
      have hrest : ∀ b' ∈ benches, ∃ s ∈ b'.sockets 0, s.port = uploadPort run.vars ∧ s.Boots d :=
        fun b' hb' => hport ▸ hthere b' (List.mem_cons_of_mem b hb')
      obtain ⟨runs, hruns, hlength, hall⟩ := ih hrest
      refine ⟨run :: runs, resets_cons hrun hruns, congrArg Nat.succ hlength, ?_⟩
      rintro run' (_ | ⟨_, hrun'⟩)
      · exact ⟨hret, hserial, hport⟩
      · rw [← hport]
        exact hall run' hrun'

omit [DecidableEq D] in
/-- **A device is touched at most once**: resets that follow one another, while the device stays in
bootloader mode where the first has left the upload, flush and touch no port beyond what the first
does. -/
theorem resets_touch_once {benches : List (Bench D)} {vars : Vars} {run : ResetRun}
    (h : resetToBootloader vidsPids (b.shown devices) fuel vars = some run)
    (hstays : ∀ b' ∈ benches, ∃ s ∈ b'.sockets 0, s.port = uploadPort run.vars ∧ s.Boots d) :
    ∃ runs, resets vidsPids fuel ((b :: benches).map (shown devices)) vars = some runs ∧
      runs.flatMap ResetRun.serial = run.serial ∧
      ∀ run' ∈ runs, uploadPort run'.vars = uploadPort run.vars := by
  obtain ⟨runs, hruns, -, hall⟩ := resets_settle devices fuel hstays
  have hnil : runs.flatMap ResetRun.serial = [] :=
    List.flatMap_eq_nil_iff.mpr fun run' hrun' => (hall run' hrun').2.1
  refine ⟨run :: runs, resets_cons h hruns, by rw [List.flatMap_cons, hnil, List.append_nil], ?_⟩
  rintro run' (_ | ⟨_, hrun'⟩)
  · rfl
  · exact (hall run' hrun').2.2

theorem resets_touch_once_twoBoards : ∃ runs,
    resets vidsPids 3 ([twoBoards, docked, docked].map (shown boards)) com3.vars = some runs ∧
      runs.flatMap ResetRun.serial = [.flush "COM3", .touch "COM3" 1200] ∧
      ∀ run ∈ runs, uploadPort run.vars = "COM4".toList := by
  have hport : uploadPort reenumerated.vars = "COM4".toList := by decide
  have hserial : reenumerated.serial = [.flush "COM3", .touch "COM3" 1200] := rfl
  rw [← hport, ← hserial]
  refine resets_touch_once (d := false) reset_twoBoards fun b' hb' =>
    ⟨.device "COM4" false 0x239A 0x0029 none, ?_, hport.symm, by decide⟩
  obtain rfl | rfl := List.mem_pair.mp hb' <;> exact List.mem_cons_self

end Flashing

end Bench

end Nrf52
