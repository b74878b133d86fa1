import Mathlib.Data.NNRat.Defs
import Nrf52Platform.Builder.Reset

/-!
# Builder — ResetRuns

What holds of every run of `reset_to_bootloader`.

* `reset_retargets`: the step retargets the upload to the first port, of the first listing polled
  in time, at which the selected device shows up in bootloader mode, and to nothing else; it
  touches only the selected port, once, before it polls, and not at all when there is no need.
* `reset_bounded`: against a paced clock the loop takes at most twenty listings, and a device that
  is there a pass before the deadline is found.
-/

namespace Nrf52
open Py Scons

/-! ### The selected port -/

theorem foldl_currentPort (name : Str) (ports : List Port) (cur : Option Port) :
    ports.foldl (fun cur port => if port.port = name then some port else cur) cur =
      ((ports.filter fun port => port.port = name).getLast?).or cur := by
  induction ports generalizing cur with
  | nil => rfl
  | cons port ports ih =>
      rw [List.foldl_cons, ih]
      by_cases h : port.port = name
      · rw [if_pos h, List.filter_cons_of_pos (by simpa using h), List.getLast?_cons]
        cases (ports.filter fun port => port.port = name).getLast? <;> rfl
      · rw [if_neg h, List.filter_cons_of_neg (by simpa using h)]

theorem currentPort_eq (name : Str) (ports : List Port) :
    currentPort name ports = (ports.filter fun port => port.port = name).getLast? := by
  rw [currentPort, foldl_currentPort, Option.or_none]

theorem currentPort_eq_none_iff {name : Str} {ports : List Port} :
    currentPort name ports = none ↔ ∀ port ∈ ports, port.port ≠ name := by
  simp [currentPort_eq]

theorem mem_of_currentPort {name : Str} {ports : List Port} {cur : Port}
    (h : currentPort name ports = some cur) : cur ∈ ports ∧ cur.port = name := by
  rw [currentPort_eq] at h
  simpa using List.mem_of_mem_getLast? h

/-- Among ports with distinct names the selected one is the one with the name. -/
theorem currentPort_eq_some_iff {name : Str} {ports : List Port}
    (hnames : (ports.map Port.port).Nodup) {cur : Port} :
    currentPort name ports = some cur ↔ cur ∈ ports ∧ cur.port = name := by
  refine ⟨mem_of_currentPort, fun ⟨hmem, hname⟩ => ?_⟩
  cases h : currentPort name ports with
  | none => exact absurd hname (currentPort_eq_none_iff.mp h cur hmem)
  | some cur' =>
      obtain ⟨hmem', hname'⟩ := mem_of_currentPort h
      rw [List.inj_on_of_nodup_map hnames hmem' hmem (hname'.trans hname.symm)]

/-! ### The events of a run -/

/-- A flush or a touch of a port. -/
def Event.isSerial : Event → Bool
  | .flush _ | .touch _ _ => true
  | _ => false

/-- The port `UPLOAD_PORT` is replaced with. -/
def Event.replaced : Event → Option Str
  | .replace port => some port
  | _ => none

/-- The flushes and touches of a run, in order. -/
def ResetRun.serial (run : ResetRun) : List Event := run.events.filter Event.isSerial

/-- The ports `UPLOAD_PORT` is replaced with in a run, in order. -/
def ResetRun.replaced (run : ResetRun) : List Str := run.events.filterMap Event.replaced

/-- How many listings a run takes. -/
def ResetRun.listings (run : ResetRun) : ℕ := run.events.count .listPorts

/-- The port names a run puts in place of `UPLOAD_PORT` when it has found `found`. -/
def portNames (found : Option Port) : List Str := (found.map Port.port).toList

theorem mem_parseEvents {hwid : Str} {e : Event} (h : e ∈ parseEvents hwid) :
    ∃ msg, e = .print msg := by
  obtain ⟨msg, -, rfl⟩ := List.mem_map.mp h
  exact ⟨msg, rfl⟩

@[simp] theorem serial_parseEvents (hwid : Str) :
    (parseEvents hwid).filter Event.isSerial = [] := by
  refine List.filter_eq_nil_iff.mpr fun e he => ?_
  obtain ⟨msg, rfl⟩ := mem_parseEvents he
  simp [Event.isSerial]

@[simp] theorem replaced_parseEvents (hwid : Str) :
    (parseEvents hwid).filterMap Event.replaced = [] := by
  refine List.filterMap_eq_nil_iff.mpr fun e he => ?_
  obtain ⟨msg, rfl⟩ := mem_parseEvents he
  rfl

@[simp] theorem count_parseEvents (hwid : Str) : (parseEvents hwid).count .listPorts = 0 := by
  refine List.count_eq_zero.mpr fun he => ?_
  obtain ⟨msg, h⟩ := mem_parseEvents he
  cases h

/-- A scan touches nothing, takes no listing, and replaces `UPLOAD_PORT` with what it found. -/
theorem events_scan (t : Table) (ser : Option Str) (ports : List Port) :
    (scan t ser ports).1.filter Event.isSerial = [] ∧
    (scan t ser ports).1.filterMap Event.replaced = portNames (scan t ser ports).2 ∧
    (scan t ser ports).1.count .listPorts = 0 := by
  induction ports with
  | nil => exact ⟨rfl, rfl, rfl⟩
  | cons port ports ih =>
      rw [scan]
      split
      case isTrue => exact ih
      case isFalse =>
          split
          case isTrue =>
              simp [Event.isSerial, List.filterMap_cons, Event.replaced, portNames]
          case isFalse =>
              obtain ⟨h₁, h₂, h₃⟩ := ih
              simp [h₁, h₂, h₃]

section Watch

variable (t : Table) (w : Serial) (ser : Option Str)

theorem events_pass (k : ℕ) :
    (w.passEvents t ser k).filter Event.isSerial = [] ∧
    (w.passEvents t ser k).filterMap Event.replaced = portNames (w.hit t ser k) ∧
    (w.passEvents t ser k).count .listPorts = 1 := by
  obtain ⟨h₁, h₂, h₃⟩ := events_scan t ser (w.listing (k + 1))
  rw [scan_found] at h₂
  simp [Serial.passEvents, Event.isSerial, List.filterMap_cons, Event.replaced, h₁, h₂, h₃,
    Serial.hit]

/-- The passes that sleep touch nothing, replace nothing, and take one listing each. -/
theorem events_sleep {k n : ℕ} (hkn : k ≤ n) (hnone : ∀ j, k ≤ j → j < n → w.hit t ser j = none) :
    (w.sleepEvents t ser k n).filter Event.isSerial = [] ∧
    (w.sleepEvents t ser k n).filterMap Event.replaced = [] ∧
    (w.sleepEvents t ser k n).count .listPorts = n - k := by
  induction hd : n - k generalizing k with
  | zero =>
      obtain rfl : k = n := by omega
      simp [Serial.sleepEvents_self]
  | succ d ih =>
      have hlt : k < n := by omega
      obtain ⟨h₁, h₂, h₃⟩ := events_pass t w ser k
      obtain ⟨i₁, i₂, i₃⟩ := ih (k := k + 1) hlt (fun j hj => hnone j (by omega)) (by omega)
      rw [hnone k le_rfl hlt] at h₂
      rw [w.sleepEvents_of_lt t ser hlt]
      refine ⟨?_, ?_, ?_⟩
      · rw [List.filter_append, h₁, List.filter_cons_of_neg (by simp [Event.isSerial]), i₁]
        rfl
      · rw [List.filterMap_append, h₂, List.filterMap_cons_none rfl, i₂]
        rfl
      · rw [List.count_append, h₃, List.count_cons_of_ne (by simp), i₃, Nat.add_comm]

/-- **The events of a watch**: nothing is touched, `UPLOAD_PORT` is replaced with what is found,
and every poll takes one listing. -/
theorem events_watch {e : Watch.Ending Port} (he : Watch.Ends w.expired (w.hit t ser) 0 e) :
    (w.watchEvents t ser 0 e).filter Event.isSerial = [] ∧
    (w.watchEvents t ser 0 e).filterMap Event.replaced = portNames e.found ∧
    (w.watchEvents t ser 0 e).count .listPorts = e.polls := by
  cases e with
  | hit n port =>
      obtain ⟨hk, hpast, -, hn⟩ := he
      obtain ⟨h₁, h₂, h₃⟩ := events_sleep t w ser hk fun j hj hj' => (hpast j hj hj').2
      obtain ⟨i₁, i₂, i₃⟩ := events_pass t w ser n
      rw [hn] at i₂
      simp [Serial.watchEvents, h₁, h₂, h₃, i₁, i₂, i₃, Watch.Ending.found, Watch.Ending.polls]
  | timeout n =>
      obtain ⟨hk, hpast, -⟩ := he
      obtain ⟨h₁, h₂, h₃⟩ := events_sleep t w ser hk fun j hj hj' => (hpast j hj hj').2
      simp [Serial.watchEvents, h₁, h₂, h₃, Event.isSerial, Event.replaced, Watch.Ending.found,
        Watch.Ending.polls, portNames]

/-- A run that polls replaces `UPLOAD_PORT` with what the watch finds. -/
theorem replaced_polledRun {vars : Vars} {cur : Port} {e : Watch.Ending Port}
    (he : Watch.Ends w.expired (w.hit t (getSerialPortInfo cur.hwid).ser) 0 e) :
    (w.polledRun t vars cur e).replaced = portNames e.found := by
  obtain ⟨-, hrep, -⟩ := events_watch t w _ he
  simp [Serial.polledRun, ResetRun.replaced, readEvents, List.filterMap_cons, Event.replaced, hrep]

/-- A run that polls takes a listing before it polls, and one with each poll. -/
theorem listings_polledRun {vars : Vars} {cur : Port} {e : Watch.Ending Port}
    (he : Watch.Ends w.expired (w.hit t (getSerialPortInfo cur.hwid).ser) 0 e) :
    (w.polledRun t vars cur e).listings = 1 + e.polls := by
  obtain ⟨-, -, hcount⟩ := events_watch t w _ he
  simp [Serial.polledRun, ResetRun.listings, readEvents, hcount, Nat.add_comm]

end Watch

/-! ### Retargeting -/

/-- A port whose ids are in `VIDS_PIDS`. -/
def InBootloader (port : Port) : Prop :=
  ∃ v p, (getSerialPortInfo port.hwid).vid = some v ∧ (getSerialPortInfo port.hwid).pid = some p ∧
    vidsPids.Lists v p

/-- A port at which the device of serial `ser` shows up in bootloader mode; none, when there is no
serial. -/
def BootloaderOf (ser : Option Str) (port : Port) : Prop :=
  ∃ v p s, getSerialPortInfo port.hwid = ⟨some v, some p, some s⟩ ∧ ser = some s ∧
    vidsPids.Lists v p

/-- Every reading of the clock up to that of pass `n` is in time. -/
def Serial.InTime (w : Serial) (n : ℕ) : Prop :=
  ∀ j ≤ n, w.clock (j + 1) - w.clock 0 < resetTimeout

/-- Pass `n` polls: it is in time, and no earlier listing had the device. -/
def Serial.Polls (w : Serial) (ser : Option Str) (n : ℕ) : Prop :=
  w.InTime n ∧ ∀ j < n, ∀ port ∈ w.listing (j + 1), ¬ BootloaderOf ser port

section Retarget

variable {w : Serial} {ser : Option Str}

theorem hit_eq_none_iff {n : ℕ} :
    w.hit vidsPids ser n = none ↔ ∀ port ∈ w.listing (n + 1), ¬ BootloaderOf ser port := by
  simp only [Serial.hit, List.find?_eq_none, isResetDevice_vidsPids_iff]
  rfl

/-- A pass stops at the first port of its listing that is the device. -/
theorem hit_eq_some_iff {n : ℕ} {port : Port} :
    w.hit vidsPids ser n = some port ↔ BootloaderOf ser port ∧ ∃ before after,
      w.listing (n + 1) = before ++ port :: after ∧ ∀ q ∈ before, ¬ BootloaderOf ser q := by
  rw [Serial.hit, List.find?_eq_some_iff_append, isResetDevice_vidsPids_iff]
  simp only [Bool.not_eq_true', ← Bool.not_eq_true, isResetDevice_vidsPids_iff]
  rfl

/-- The passes before the end of a watch poll, and find nothing. -/
theorem polls_of_past {n : ℕ}
    (hpast : ∀ j, 0 ≤ j → j < n → w.expired j = false ∧ w.hit vidsPids ser j = none)
    (hn : w.expired n = false) : w.Polls ser n := by
  refine ⟨fun j hj => ?_, fun j hj => hit_eq_none_iff.mp (hpast j (Nat.zero_le _) hj).2⟩
  rcases Nat.eq_or_lt_of_le hj with rfl | hj
  · exact Watch.expired_eq_false.mp hn
  · exact Watch.expired_eq_false.mp (hpast j (Nat.zero_le _) hj).1

/-- **Where a watch ends**: with the first device of the first listing polled that has one. -/
theorem ends_hit_iff_polls {n : ℕ} {port : Port} :
    Watch.Ends w.expired (w.hit vidsPids ser) 0 (.hit n port) ↔
      w.Polls ser n ∧ w.hit vidsPids ser n = some port := by
  refine ⟨fun ⟨_, hpast, hn, hp⟩ => ⟨polls_of_past hpast hn, hp⟩, fun ⟨hpoll, hp⟩ => ?_⟩
  refine ⟨Nat.zero_le _, fun j _ hj => ⟨?_, ?_⟩, ?_, hp⟩
  · exact Watch.expired_eq_false.mpr (hpoll.1 j hj.le)
  · exact hit_eq_none_iff.mpr (hpoll.2 j hj)
  · exact Watch.expired_eq_false.mpr (hpoll.1 n le_rfl)

/-- A watch finds something iff some pass polls a listing that has the device. -/
theorem found_iff_polls {e : Watch.Ending Port}
    (he : Watch.Ends w.expired (w.hit vidsPids ser) 0 e) :
    portNames e.found ≠ [] ↔
      ∃ n, w.Polls ser n ∧ ∃ port ∈ w.listing (n + 1), BootloaderOf ser port := by
  refine ⟨?_, ?_⟩
  · intro h
    cases e with
    | hit n port =>
        obtain ⟨hpoll, hp⟩ := ends_hit_iff_polls.mp he
        obtain ⟨hdev, before, after, hl, -⟩ := hit_eq_some_iff.mp hp
        exact ⟨n, hpoll, port, by simp [hl], hdev⟩
    | timeout n => exact absurd rfl h
  · rintro ⟨n, hpoll, port, hmem, hdev⟩
    cases hp : w.hit vidsPids ser n with
    | none => exact absurd hdev (hit_eq_none_iff.mp hp port hmem)
    | some q =>
        rw [he.unique (ends_hit_iff_polls.mpr ⟨hpoll, hp⟩)]
        simp [Watch.Ending.found, portNames]

end Retarget

/-- **The step retargets the upload to the same device in bootloader mode, and to nothing else.**
In every run that returns: if the selected port is absent, or is in bootloader mode, no port is
touched and `UPLOAD_PORT` keeps its substituted value.  Otherwise the selected port is flushed and
touched at 1200 baud, once, before the first poll; `UPLOAD_PORT` is replaced iff some listing that
is polled has the device, with the first such port of that listing; else it is left alone. -/
theorem reset_retargets {w : Serial} {vars : Vars} {fuel : ℕ} {run : ResetRun}
    (hnames : ((w.listing 0).map Port.port).Nodup)
    (h : resetToBootloader vidsPids w fuel vars = some run) (hret : run.result = .none) :
    ((∀ port ∈ w.listing 0, port.port ≠ uploadPort vars) →
      run.serial = [] ∧ run.replaced = [] ∧ run.vars = vars) ∧
    ∀ cur ∈ w.listing 0, cur.port = uploadPort vars →
      (InBootloader cur → run.serial = [] ∧ run.replaced = [uploadPort vars] ∧
        run.vars = vars.set "UPLOAD_PORT" (.str (uploadPort vars))) ∧
      (¬ InBootloader cur →
        (∃ before after, run.events =
            before ++ [.flush (uploadPort vars), .touch (uploadPort vars) 1200] ++ after ∧
          before.filter Event.isSerial = [] ∧ before.count .listPorts = 1 ∧
          after.filter Event.isSerial = []) ∧
        (run.replaced ≠ [] ↔ ∃ n, w.Polls (getSerialPortInfo cur.hwid).ser n ∧
          ∃ port ∈ w.listing (n + 1), BootloaderOf (getSerialPortInfo cur.hwid).ser port) ∧
        (∀ n before port after, w.Polls (getSerialPortInfo cur.hwid).ser n →
          w.listing (n + 1) = before ++ port :: after →
          BootloaderOf (getSerialPortInfo cur.hwid).ser port →
          (∀ q ∈ before, ¬ BootloaderOf (getSerialPortInfo cur.hwid).ser q) →
          run.replaced = [port.port] ∧ run.vars = vars.set "UPLOAD_PORT" (.str port.port)) ∧
        (run.replaced = [] → run.vars = vars)) := by
  have hboot : ∀ {cur : Port}, InBootloader cur ↔ inVidsPids vidsPids
      (getSerialPortInfo cur.hwid).vid (getSerialPortInfo cur.hwid).pid = true :=
    inVidsPids_iff.symm
  have hsel : ∀ {cur cur' : Port}, cur ∈ w.listing 0 → cur.port = uploadPort vars →
      currentPort (uploadPort vars) (w.listing 0) = some cur' → cur' = cur :=
    fun hmem hname hcur' => by
      rw [(currentPort_eq_some_iff hnames).mpr ⟨hmem, hname⟩] at hcur'
      exact (Option.some.inj hcur').symm
  -- a run goes one of five ways, and the two that raise do not return
  cases resets_of_run h with
  | absent hcur =>
      have hno := currentPort_eq_none_iff.mp hcur
      exact ⟨fun _ => ⟨rfl, rfl, rfl⟩, fun cur hmem hname => absurd hname (hno cur hmem)⟩
  | @already cur' hcur hin =>
      obtain ⟨hmem', hname'⟩ := mem_of_currentPort hcur
      refine ⟨fun hno => absurd hname' (hno cur' hmem'), fun cur hmem hname => ?_⟩
      obtain rfl := hsel hmem hname hcur
      refine ⟨fun _ => ⟨?_, ?_, by rw [hname]⟩, fun hnb => absurd (hboot.mpr hin) hnb⟩
      · simp [ResetRun.serial, readEvents, Event.isSerial]
      · simp [ResetRun.replaced, readEvents, List.filterMap_cons, Event.replaced, hname]
  | flushRaised => cases hret
  | touchRaised => cases hret
  | @polled cur' e hs hf ht he =>
      obtain ⟨hmem', hname'⟩ := mem_of_currentPort hs.1
      refine ⟨fun hno => absurd hname' (hno cur' hmem'), fun cur hmem hname => ?_⟩
      obtain rfl := hsel hmem hname hs.1
      refine ⟨fun hb => absurd (hboot.mp hb) (by simp [hs.2]), fun _ => ?_⟩
      obtain ⟨hser, -, -⟩ := events_watch vidsPids w (getSerialPortInfo cur'.hwid).ser he
      rw [replaced_polledRun vidsPids w he]
      refine ⟨⟨readEvents cur' [.print "Resetting device into bootloader mode..."],
        .time (w.clock 0) :: w.watchEvents vidsPids (getSerialPortInfo cur'.hwid).ser 0 e,
        ?_, ?_, ?_, ?_⟩, ?_, ?_, ?_⟩
      · simp [Serial.polledRun, readEvents]
      · simp [readEvents, Event.isSerial]
      · simp [readEvents]
      · simp [Event.isSerial, hser]
      · exact found_iff_polls he
      · intro n before port after hpoll hl hdev hfirst
        have hp := hit_eq_some_iff.mpr ⟨hdev, before, after, hl, hfirst⟩
        rw [he.unique (ends_hit_iff_polls.mpr ⟨hpoll, hp⟩)]
        exact ⟨rfl, rfl⟩
      · intro hnil
        cases e with
        | hit n port => cases hnil
        | timeout n => rfl

/-- A board on `COM3` that comes back on `COM4`, next to another board, from the second poll on;
the clock reads every half second. -/
def reenumerating : Serial where
  listing k := match k with
    | 0 => [⟨"COM3", "USB VID:PID=239A:8029 SER=A1"⟩]
    | 1 => [⟨"COM1", "n/a"⟩]
    | _ => [⟨"COM2", "USB VID:PID=239A:0029 SER=B2"⟩, ⟨"COM4", "USB VID:PID=239A:0029 SER=A1"⟩]
  clock k := k / 2
  flushRaises _ := false
  touchRaises _ := false

/-- What the step does for that board. -/
def reenumerated : ResetRun where
  events := [.listPorts, .print "Resetting device into bootloader mode...", .flush "COM3",
    .touch "COM3" 1200, .time 0, .time (1 / 2), .listPorts, .sleep (1 / 2), .time 1, .listPorts,
    .print "Device reset detected on port COM4", .replace "COM4"]
  result := .none
  vars := .ofList [("UPLOAD_PORT", .str "COM4")]

theorem reset_retargets_reenumerated :
    resetToBootloader vidsPids reenumerating 3 (.ofList [("UPLOAD_PORT", .str "COM3")]) =
      some reenumerated ∧ reenumerated.replaced = ["COM4".toList] := by
  have hrun : resetToBootloader vidsPids reenumerating 3 (.ofList [("UPLOAD_PORT", .str "COM3")]) =
      some reenumerated := by decide +kernel
  have hpolls : reenumerating.Polls (some "A1".toList) 1 := by
    refine polls_of_past (fun j _ hj => ?_) (by decide +kernel)
    obtain rfl : j = 0 := by omega
    decide +kernel
  obtain ⟨-, -, hfirst, -⟩ := ((reset_retargets (by decide) hrun rfl).2
    ⟨"COM3", "USB VID:PID=239A:8029 SER=A1"⟩ (by decide) (by decide)).2
    (fun h => absurd (inVidsPids_iff.mpr h) (by decide))
  refine ⟨hrun, (hfirst 1 [⟨"COM2", "USB VID:PID=239A:0029 SER=B2"⟩]
    ⟨"COM4", "USB VID:PID=239A:0029 SER=A1"⟩ [] hpolls rfl
    (isResetDevice_vidsPids_iff.mp (by decide)) fun q hq => ?_).1⟩
  obtain rfl := List.mem_singleton.mp hq
  exact fun h => absurd (isResetDevice_vidsPids_iff.mpr h) (by decide)

/-! ### The wait -/

/-- Pass `k` finds nothing in time, so that it sleeps and another follows. -/
def Serial.Sleeps (w : Serial) (ser : Option Str) (k : ℕ) : Prop :=
  ∀ j ≤ k, w.clock (j + 1) - w.clock 0 < resetTimeout ∧
    ∀ port ∈ w.listing (j + 1), ¬ BootloaderOf ser port

theorem sleeps_iff_made {w : Serial} {ser : Option Str} {k : ℕ} :
    w.Sleeps ser k ↔ Watch.Made w.expired (w.hit vidsPids ser) k := by
  simp only [Serial.Sleeps, Watch.Made, hit_eq_none_iff, Watch.expired_eq_false]

/-- **The wait is bounded, and misses no device that shows up in time.**  Let the loop be entered,
each pass that sleeps last from half a second to half a second and `D`, the first reading come
within `D`, and listing `k` be taken at `taken k`, after the reading that heads its pass.  The loop
ends after at most twenty listings; and if for a time `T` that a pass and `D` separate from the
deadline every listing that is polled at `T` or later has the device, `UPLOAD_PORT` ends up at the
device. -/
theorem reset_bounded {w : Serial} {vars : Vars} {cur : Port} {D : ℚ} {taken : ℕ → ℚ}
    (hsel : w.Selects vidsPids vars cur) (hf : w.flushRaises (uploadPort vars) = false)
    (ht : w.touchRaises (uploadPort vars) = false)
    (hpace : Watch.Paced (w.clock 0) (1 / 2) D (fun k => w.clock (k + 1))
      (w.Sleeps (getSerialPortInfo cur.hwid).ser))
    (htaken : ∀ k, w.clock (k + 1) ≤ taken k) :
    ∃ run, (∀ fuel, 21 ≤ fuel → resetToBootloader vidsPids w fuel vars = some run) ∧
      run.result = .none ∧ run.listings ≤ 1 + 20 ∧
      ∀ (T : ℚ≥0) (s : Str), T + 1 / 2 + D < resetTimeout →
        (getSerialPortInfo cur.hwid).ser = some s →
        (∀ k, w.Polls (some s) k → T ≤ taken k - w.clock 0 →
          ∃ port ∈ w.listing (k + 1), BootloaderOf (some s) port) →
        ∃ k, ∃ port ∈ w.listing (k + 1), BootloaderOf (some s) port ∧
          run.replaced = [port.port] ∧ run.vars = vars.set "UPLOAD_PORT" (.str port.port) := by
  have hmade : w.Sleeps (getSerialPortInfo cur.hwid).ser =
      Watch.Made w.expired (w.hit vidsPids (getSerialPortInfo cur.hwid).ser) :=
    funext fun k => propext sleeps_iff_made
  rw [hmade] at hpace
  have hlimit : resetTimeout ≤ (20 : ℕ) * (1 / 2) := by norm_num [resetTimeout]
  obtain ⟨e, he, hindex⟩ := hpace.exists_ends hlimit
  have hpolls := hpace.polls_le hlimit he
  refine ⟨_, fun fuel hfuel => run_of_ends hsel hf ht he (by omega), rfl, ?_,
    fun T s hT hs hthere => ?_⟩
  · rw [listings_polledRun vidsPids w he]
    omega
  · rw [replaced_polledRun vidsPids w he]
    rw [hs] at hpace he
    -- a listing is taken after the reading that heads its pass, so from `T` on it has the device
    have hthere' : ∀ k, w.expired k = false →
        (∀ j < k, Watch.Made w.expired (w.hit vidsPids (some s)) j) →
        T ≤ w.clock (k + 1) - w.clock 0 → (w.hit vidsPids (some s) k).isSome := by
      intro k hin hbefore hk
      have hpoll : w.Polls (some s) k := polls_of_past (fun j _ hj => hbefore j hj j le_rfl) hin
      obtain ⟨port, hmem, hdev⟩ := hthere k hpoll (by linarith [htaken k])
      rw [Option.isSome_iff_ne_none]
      exact fun hnone => hit_eq_none_iff.mp hnone port hmem hdev
    obtain ⟨k, port, rfl⟩ :=
      hpace.hit_of_window (by norm_num) T.cast_nonneg (by simpa using hT) hthere' he
    obtain ⟨-, hp⟩ := ends_hit_iff_polls.mp he
    obtain ⟨hdev, before, after, hl, -⟩ := hit_eq_some_iff.mp hp
    exact ⟨k, port, by simp [hl], hdev, rfl, rfl⟩

theorem reset_bounded_reenumerating :
    ∃ run, (∀ fuel, 21 ≤ fuel →
      resetToBootloader vidsPids reenumerating fuel (.ofList [("UPLOAD_PORT", .str "COM3")]) =
        some run) ∧ run.listings ≤ 1 + 20 ∧ run.replaced ≠ [] := by
  have hpass : ∀ k : ℕ, reenumerating.clock (k + 1 + 1) - reenumerating.clock (k + 1) = 1 / 2 :=
    fun k => by simp only [reenumerating]; push_cast; ring
  obtain ⟨run, hrun, -, hle, hfind⟩ := @reset_bounded reenumerating
    (.ofList [("UPLOAD_PORT", .str "COM3")]) ⟨"COM3", "USB VID:PID=239A:8029 SER=A1"⟩ (1 / 2)
    (fun k => reenumerating.clock (k + 1)) ⟨by decide, by decide⟩ rfl rfl
    ⟨by norm_num [reenumerating], by norm_num [reenumerating], fun k _ => (hpass k).ge,
      fun k _ => (hpass k).le.trans (by norm_num)⟩ fun _ => le_rfl
  refine ⟨run, hrun, hle, ?_⟩
  have hthere : ∀ k, ((1 : ℚ≥0) : ℚ) ≤ reenumerating.clock (k + 1) - reenumerating.clock 0 →
      ∃ port ∈ reenumerating.listing (k + 1), BootloaderOf (some "A1".toList) port := by
    intro k hk
    cases k with
    | zero => norm_num [reenumerating] at hk
    | succ k =>
        exact ⟨⟨"COM4", "USB VID:PID=239A:0029 SER=A1"⟩, by simp [reenumerating],
          isResetDevice_vidsPids_iff.mp (by decide)⟩
  obtain ⟨k, port, -, -, hport, -⟩ :=
    hfind 1 "A1" (by norm_num [resetTimeout]) (by decide) fun k _ => hthere k
  simp [hport]

end Nrf52
