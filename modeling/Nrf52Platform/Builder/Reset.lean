import Mathlib.Data.List.Count
import Nrf52Platform.Builder.Bootloaders
import Nrf52Platform.Scons.Actions
import Nrf52Platform.Support.Watch

/-!
# Builder — Reset

`reset_to_bootloader` of `builder/main.py`, with everything it does to the outside recorded as
events, against what it is for: watching the serial ports for the device it has reset.

* `resetToBootloader_congr`: the step sees of the table only what it lists.
* `scan_found`: the inner loop finds the first port the test accepts.
* `poll_eq`: the polling loop is a watch (`Watch.run`), and its events are those of the passes it
  makes (`watchEvents`).
* `resets_of_run`, `run_of_resets`: a run of the step is one of five (`Resets`), and enough fuel
  gives it.
* `reset_ends`: the step ends if the clock ever reaches the deadline.
-/

namespace Nrf52
open Py Scons

/-- `RESET_TIMEOUT`, in seconds. -/
def resetTimeout : ℚ := 10

/-- The outside of `reset_to_bootloader`: the answers of `list_serial_ports()`, the first one
before the device is touched and one in each pass of the polling loop; the readings of
`time.time()`, the first one `start_time` and one at the head of each pass; and whether opening a
port to flush or to touch it raises. -/
structure Serial where
  listing : ℕ → List Port
  clock : ℕ → ℚ
  flushRaises : Str → Bool
  touchRaises : Str → Bool

/-- What the step does to the outside. -/
inductive Event where
  | print (msg : Str)
  | listPorts
  | time (t : ℚ)
  | flush (port : Str)
  | touch (port : Str) (baud : ℕ)
  | sleep (seconds : ℚ)
  | replace (port : Str)
  deriving DecidableEq

/-- A run of the step: its events, what it hands back, and the construction variables after it. -/
structure ResetRun where
  events : List Event
  result : Result
  vars : Vars
  deriving DecidableEq

/-- `env.subst("$UPLOAD_PORT")`. -/
def uploadPort (vars : Vars) : Str := subst vars "$UPLOAD_PORT"

/-- The last port of a listing that has the given name. -/
def currentPort (name : Str) (ports : List Port) : Option Port :=
  ports.foldl (fun cur port => if port.port = name then some port else cur) none

/-- What parsing a `hwid` text prints. -/
def parseEvents (hwid : Str) : List Event := (getSerialPortInfoOutput hwid).map .print

/-- One pass over a listing: its events, and the port it stops at. -/
def scan (t : Table) (ser : Option Str) : List Port → List Event × Option Port
  | [] => ([], none)
  | port :: ports =>
      if port.hwid = "n/a".toList then scan t ser ports
      -- the two tests of the source, the missing fields first
      else if isResetDevice t ser port.hwid then
        (parseEvents port.hwid ++
          [.print ("Device reset detected on port ".toList ++ port.port), .replace port.port],
          some port)
      else
        let (events, found) := scan t ser ports
        (parseEvents port.hwid ++ events, found)

/-- The polling loop from pass `k` on: its events, and the port it returns with. -/
def poll (t : Table) (w : Serial) (ser : Option Str) : ℕ → ℕ → Option (List Event × Option Port)
  | 0, _ => none
  | fuel + 1, k =>
      if w.clock (k + 1) - w.clock 0 < resetTimeout then
        match scan t ser (w.listing (k + 1)) with
        | (events, some port) =>
            some (.time (w.clock (k + 1)) :: .listPorts :: events, some port)
        | (events, none) =>
            (poll t w ser fuel (k + 1)).map fun (later, found) =>
              (.time (w.clock (k + 1)) :: .listPorts :: (events ++ .sleep (1 / 2) :: later), found)
      else some ([.time (w.clock (k + 1))], none)

/-- The construction variables when the polling loop has returned with a port, or without. -/
def retarget (vars : Vars) : Option Port → Vars
  | none => vars
  | some port => vars.set "UPLOAD_PORT" (.str port.port)

/-- `reset_to_bootloader(target, source, env)`, with `t` for `VIDS_PIDS`; `none` when the fuel
does not carry the polling loop to its end. -/
def resetToBootloader (t : Table) (w : Serial) (fuel : ℕ) (vars : Vars) : Option ResetRun :=
  match currentPort (uploadPort vars) (w.listing 0) with
  | none => some ⟨[.listPorts, .print "Warning! Invalid serial port."], .none, vars⟩
  | some cur =>
      let info := getSerialPortInfo cur.hwid
      if inVidsPids t info.vid info.pid then
        some ⟨.listPorts :: (parseEvents cur.hwid ++
          [.print "Device is already in bootloader mode.", .replace cur.port]), .none,
          vars.set "UPLOAD_PORT" (.str cur.port)⟩
      else
        -- a raise ends the step where it stands, so the variables are as they were
        let before := .listPorts :: (parseEvents cur.hwid ++
          [.print "Resetting device into bootloader mode...", .flush (uploadPort vars)])
        if w.flushRaises (uploadPort vars) then some ⟨before, .raised, vars⟩
        else
          let touched := before ++ [.touch (uploadPort vars) 1200]
          if w.touchRaises (uploadPort vars) then some ⟨touched, .raised, vars⟩
          else
            (poll t w info.ser fuel 0).map fun (events, found) =>
              ⟨touched ++ .time (w.clock 0) :: events, .none, retarget vars found⟩

/-! ### What the step sees of the table -/

theorem scan_congr {t t' : Table} (h : ∀ v p, t.Lists v p ↔ t'.Lists v p) (ser : Option Str)
    (ports : List Port) : scan t ser ports = scan t' ser ports := by
  induction ports with
  | nil => rfl
  | cons port ports ih => rw [scan, scan, ih, isResetDevice_congr h]

theorem poll_congr {t t' : Table} (h : ∀ v p, t.Lists v p ↔ t'.Lists v p) (w : Serial)
    (ser : Option Str) (fuel k : ℕ) : poll t w ser fuel k = poll t' w ser fuel k := by
  induction fuel generalizing k with
  | zero => rfl
  | succ fuel ih => rw [poll, poll, scan_congr h, ih]

/-- **The step sees of the table only what it lists.** -/
theorem resetToBootloader_congr {t t' : Table} (h : ∀ v p, t.Lists v p ↔ t'.Lists v p) :
    resetToBootloader t = resetToBootloader t' := by
  funext w fuel vars
  simp only [resetToBootloader, inVidsPids_congr h, poll_congr h]

/-! ### The polling loop is a watch -/

/-- The time is up at the head of pass `k`. -/
abbrev Serial.expired (w : Serial) : ℕ → Bool :=
  Watch.expired (w.clock 0) resetTimeout fun k => w.clock (k + 1)

/-- The port pass `k` stops at. -/
def Serial.hit (w : Serial) (t : Table) (ser : Option Str) (k : ℕ) : Option Port :=
  (w.listing (k + 1)).find? fun port => isResetDevice t ser port.hwid

/-- The inner loop finds the first port the test accepts. -/
theorem scan_found (t : Table) (ser : Option Str) (ports : List Port) :
    (scan t ser ports).2 = ports.find? fun port => isResetDevice t ser port.hwid := by
  induction ports with
  | nil => rfl
  | cons port ports ih =>
      rw [scan, List.find?_cons]
      by_cases hna : port.hwid = "n/a".toList
      · rw [if_pos hna, ih, isResetDevice, if_pos hna]
      · rw [if_neg hna]
        cases h : isResetDevice t ser port.hwid with
        | true => rfl
        | false => exact ih

/-- The events of pass `k`, up to its sleep. -/
def Serial.passEvents (w : Serial) (t : Table) (ser : Option Str) (k : ℕ) : List Event :=
  .time (w.clock (k + 1)) :: .listPorts :: (scan t ser (w.listing (k + 1))).1

/-- The events of the passes from `k` up to `n`, which all sleep. -/
def Serial.sleepEvents (w : Serial) (t : Table) (ser : Option Str) (k n : ℕ) : List Event :=
  (List.range' k (n - k)).flatMap fun j => w.passEvents t ser j ++ [.sleep (1 / 2)]

/-- The events of a watch from pass `k` on. -/
def Serial.watchEvents (w : Serial) (t : Table) (ser : Option Str) (k : ℕ) :
    Watch.Ending Port → List Event
  | .hit n _ => w.sleepEvents t ser k n ++ w.passEvents t ser n
  | .timeout n => w.sleepEvents t ser k n ++ [.time (w.clock (n + 1))]

theorem Serial.sleepEvents_self (w : Serial) (t : Table) (ser : Option Str) (k : ℕ) :
    w.sleepEvents t ser k k = [] := by
  simp [sleepEvents]

theorem Serial.sleepEvents_of_lt (w : Serial) (t : Table) (ser : Option Str) {k n : ℕ}
    (h : k < n) : w.sleepEvents t ser k n =
      w.passEvents t ser k ++ .sleep (1 / 2) :: w.sleepEvents t ser (k + 1) n := by
  rw [sleepEvents, show n - k = (n - (k + 1)) + 1 by omega, List.range'_succ, List.flatMap_cons,
    List.append_assoc]
  rfl

theorem Serial.watchEvents_of_lt (w : Serial) (t : Table) (ser : Option Str) {k : ℕ}
    {e : Watch.Ending Port} (h : k < e.index) : w.watchEvents t ser k e =
      w.passEvents t ser k ++ .sleep (1 / 2) :: w.watchEvents t ser (k + 1) e := by
  cases e with
  | hit n port =>
      rw [watchEvents, w.sleepEvents_of_lt t ser (show k < n from h), List.append_assoc]
      rfl
  | timeout n =>
      rw [watchEvents, w.sleepEvents_of_lt t ser (show k < n from h), List.append_assoc]
      rfl

/-- **The polling loop is a watch**, and its events are those of the passes it makes. -/
theorem poll_eq (t : Table) (w : Serial) (ser : Option Str) (fuel k : ℕ) :
    poll t w ser fuel k = (Watch.run w.expired (w.hit t ser) fuel k).map
      fun e => (w.watchEvents t ser k e, e.found) := by
  induction fuel generalizing k with
  | zero => rfl
  | succ fuel ih =>
      have hfound : (scan t ser (w.listing (k + 1))).2 = w.hit t ser k := scan_found t ser _
      rw [poll, Watch.run]
      by_cases hin : w.clock (k + 1) - w.clock 0 < resetTimeout
      · rw [if_pos hin, if_neg (by simpa [Watch.expired] using hin)]
        cases hs : scan t ser (w.listing (k + 1)) with
        | mk events found =>
            rw [hs] at hfound
            obtain rfl : found = w.hit t ser k := hfound
            cases hf : w.hit t ser k with
            | some port =>
                simp [Serial.watchEvents, Serial.sleepEvents_self, Serial.passEvents, hs,
                  Watch.Ending.found]
            | none =>
                simp only [ih]
                cases hr : Watch.run w.expired (w.hit t ser) fuel (k + 1) with
                | none => rfl
                | some e =>
                    have hlt : k < e.index := (Watch.run_eq_some_iff.mp hr).2.le
                    simp [w.watchEvents_of_lt t ser hlt, Serial.passEvents, hs]
      · rw [if_neg hin, if_pos (by simpa [Watch.expired] using hin)]
        simp [Serial.watchEvents, Serial.sleepEvents_self, Watch.Ending.found]

/-! ### The runs of the step -/

section Runs

variable (t : Table) (w : Serial) (vars : Vars)

/-- The events before the port is flushed. -/
def readEvents (cur : Port) (last : List Event) : List Event :=
  .listPorts :: (parseEvents cur.hwid ++ last)

/-- The selected port is `cur`, and it is not in bootloader mode. -/
def Serial.Selects (cur : Port) : Prop :=
  currentPort (uploadPort vars) (w.listing 0) = some cur ∧
    inVidsPids t (getSerialPortInfo cur.hwid).vid (getSerialPortInfo cur.hwid).pid = false

/-- The run that polls, until the watch ends at `e`. -/
def Serial.polledRun (cur : Port) (e : Watch.Ending Port) : ResetRun :=
  ⟨readEvents cur [.print "Resetting device into bootloader mode...", .flush (uploadPort vars),
      .touch (uploadPort vars) 1200, .time (w.clock 0)] ++
      w.watchEvents t (getSerialPortInfo cur.hwid).ser 0 e, .none, retarget vars e.found⟩

/-- The five ways the step can go. -/
inductive Resets : ResetRun → Prop where
  | absent (hcur : currentPort (uploadPort vars) (w.listing 0) = none) :
      Resets ⟨[.listPorts, .print "Warning! Invalid serial port."], .none, vars⟩
  | already {cur : Port} (hcur : currentPort (uploadPort vars) (w.listing 0) = some cur)
      (hin : inVidsPids t (getSerialPortInfo cur.hwid).vid (getSerialPortInfo cur.hwid).pid =
        true) :
      Resets ⟨readEvents cur
        [.print "Device is already in bootloader mode.", .replace cur.port], .none,
        vars.set "UPLOAD_PORT" (.str cur.port)⟩
  | flushRaised {cur : Port} (hsel : w.Selects t vars cur)
      (hf : w.flushRaises (uploadPort vars) = true) :
      Resets ⟨readEvents cur
        [.print "Resetting device into bootloader mode...", .flush (uploadPort vars)], .raised,
        vars⟩
  | touchRaised {cur : Port} (hsel : w.Selects t vars cur)
      (hf : w.flushRaises (uploadPort vars) = false)
      (ht : w.touchRaises (uploadPort vars) = true) :
      Resets ⟨readEvents cur
        [.print "Resetting device into bootloader mode...", .flush (uploadPort vars),
          .touch (uploadPort vars) 1200], .raised, vars⟩
  | polled {cur : Port} {e : Watch.Ending Port} (hsel : w.Selects t vars cur)
      (hf : w.flushRaises (uploadPort vars) = false)
      (ht : w.touchRaises (uploadPort vars) = false)
      (he : Watch.Ends w.expired (w.hit t (getSerialPortInfo cur.hwid).ser) 0 e) :
      Resets (w.polledRun t vars cur e)

variable {t w vars}

/-- A run of the step goes one of the five ways. -/
theorem resets_of_run {fuel : ℕ} {run : ResetRun}
    (h : resetToBootloader t w fuel vars = some run) : Resets t w vars run := by
  rw [resetToBootloader] at h
  split at h
  case h_1 hcur =>
      cases h
      exact .absent hcur
  case h_2 cur hcur =>
      simp only at h
      split at h
      case isTrue hin =>
          cases h
          exact .already hcur hin
      case isFalse hin =>
          have hsel : w.Selects t vars cur := ⟨hcur, by simpa using hin⟩
          split at h
          case isTrue hf =>
              cases h
              exact .flushRaised hsel hf
          case isFalse hf =>
              rw [Bool.not_eq_true] at hf
              split at h
              case isTrue ht =>
                  cases h
                  simpa [readEvents] using Resets.touchRaised hsel hf ht
              case isFalse ht =>
                  rw [Bool.not_eq_true] at ht
                  rw [poll_eq] at h
                  obtain ⟨⟨events, found⟩, hp, rfl⟩ := Option.map_eq_some_iff.mp h
                  obtain ⟨e, he, hpair⟩ := Option.map_eq_some_iff.mp hp
                  cases hpair
                  simpa [Serial.polledRun, readEvents] using
                    Resets.polled hsel hf ht (Watch.run_eq_some_iff.mp he).2

/-- The step polls, given more fuel than the pass its watch ends at. -/
theorem run_of_ends {cur : Port} {e : Watch.Ending Port} (hsel : w.Selects t vars cur)
    (hf : w.flushRaises (uploadPort vars) = false) (ht : w.touchRaises (uploadPort vars) = false)
    (he : Watch.Ends w.expired (w.hit t (getSerialPortInfo cur.hwid).ser) 0 e) {fuel : ℕ}
    (hfuel : e.index < fuel) :
    resetToBootloader t w fuel vars = some (w.polledRun t vars cur e) := by
  have hrun : Watch.run w.expired (w.hit t (getSerialPortInfo cur.hwid).ser) fuel 0 = some e :=
    Watch.run_of_ends he (by omega)
  simp [resetToBootloader, hsel.1, hsel.2, hf, ht, poll_eq, hrun, readEvents, Serial.polledRun]

/-- Any of the five is what the step does, given enough fuel. -/
theorem run_of_resets {run : ResetRun} (h : Resets t w vars run) :
    ∃ N, ∀ fuel, N ≤ fuel → resetToBootloader t w fuel vars = some run := by
  cases h with
  | absent hcur => exact ⟨0, fun fuel _ => by simp [resetToBootloader, hcur]⟩
  | already hcur hin =>
      exact ⟨0, fun fuel _ => by simp [resetToBootloader, hcur, hin, readEvents]⟩
  | flushRaised hsel hf =>
      exact ⟨0, fun fuel _ => by
        simp [resetToBootloader, hsel.1, hsel.2, hf, readEvents]⟩
  | touchRaised hsel hf ht =>
      exact ⟨0, fun fuel _ => by
        simp [resetToBootloader, hsel.1, hsel.2, hf, ht, readEvents]⟩
  | @polled cur e hsel hf ht he =>
      exact ⟨e.index + 1, fun fuel hfuel => run_of_ends hsel hf ht he hfuel⟩

/-- The step goes one of the five ways, unless it polls for ever. -/
theorem exists_resets (h : ∀ cur, w.Selects t vars cur → w.flushRaises (uploadPort vars) = false →
    w.touchRaises (uploadPort vars) = false →
      ∃ k, w.expired k = true ∨ (w.hit t (getSerialPortInfo cur.hwid).ser k).isSome) :
    ∃ run, Resets t w vars run := by
  cases hcur : currentPort (uploadPort vars) (w.listing 0) with
  | none => exact ⟨_, .absent hcur⟩
  | some cur =>
      cases hin : inVidsPids t (getSerialPortInfo cur.hwid).vid
        (getSerialPortInfo cur.hwid).pid with
      | true => exact ⟨_, .already hcur hin⟩
      | false =>
          have hsel : w.Selects t vars cur := ⟨hcur, hin⟩
          cases hf : w.flushRaises (uploadPort vars) with
          | true => exact ⟨_, .flushRaised hsel hf⟩
          | false =>
              cases ht : w.touchRaises (uploadPort vars) with
              | true => exact ⟨_, .touchRaised hsel hf ht⟩
              | false =>
                  obtain ⟨k, hk⟩ := h cur hsel hf ht
                  obtain ⟨e, he, -⟩ := Watch.exists_ends (Nat.zero_le k) hk
                  exact ⟨_, .polled hsel hf ht he⟩

/-- The clock reaches the deadline at some pass. -/
def Serial.Expires (w : Serial) : Prop := ∃ k, w.expired k = true

/-- **The step ends** on a clock that reaches the deadline: enough fuel gives its run. -/
theorem reset_ends (t : Table) (vars : Vars) (hexp : w.Expires) :
    ∃ N run, ∀ fuel, N ≤ fuel → resetToBootloader t w fuel vars = some run := by
  obtain ⟨run, hrun⟩ : ∃ run, Resets t w vars run := by
    obtain ⟨k, hk⟩ := hexp
    exact exists_resets fun _ _ _ _ => ⟨k, .inl hk⟩
  obtain ⟨N, hN⟩ := run_of_resets hrun
  exact ⟨N, run, hN⟩

end Runs

end Nrf52
