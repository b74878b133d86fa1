import Nrf52Platform.Builder.ResetRuns

/-!
# Builder — Protocol

The order in which `reset_to_bootloader` does what it does to the outside, as a protocol that reads
the events of a run one by one (`Phase.next`), and when a run ends.

* `run_follows`: every run follows the protocol, and where it stands at the end says what the step
  hands back and which variables it leaves.
* `reset_ends_iff`: the step ends iff it does not come to poll, or some pass is out of time or lists
  the device; so on a clock that is set back again and again it may not end.
-/

namespace Nrf52
open Py Scons

/-! ### The protocol -/

/-- Where the protocol stands: before the first listing, with it, with the port flushed, with the
port touched, between two passes that started at `start`, in a pass that is in time, in one that has
its listing, out of time, and when `UPLOAD_PORT` was replaced. -/
inductive Phase where
  | idle
  | listed
  | flushed
  | touched
  | waiting (start : ℚ)
  | due (start : ℚ)
  | polled (start : ℚ)
  | expired
  | done (port : Str)
  deriving DecidableEq

namespace Phase

/-- Where an event leads, if it is allowed; `name` is the port that is uploaded to. -/
def next (name : Str) : Phase → Event → Option Phase
  | idle, .listPorts => some listed
  | listed, .print _ => some listed
  | listed, .replace port => if port = name then some (done port) else none
  | listed, .flush port => if port = name then some flushed else none
  -- nothing comes between the flush and the touch, nor between the touch and the clock
  | flushed, .touch port baud => if port = name ∧ baud = 1200 then some touched else none
  | touched, .time start => some (waiting start)
  | waiting start, .time t => some (if t - start < resetTimeout then due start else expired)
  | due start, .listPorts => some (polled start)
  | polled start, .print _ => some (polled start)
  | polled start, .sleep seconds => if seconds = 1 / 2 then some (waiting start) else none
  | polled _, .replace port => some (done port)
  | _, _ => none

/-- Where the events of a trace lead, if they are allowed. -/
def after (name : Str) (phase : Phase) (events : List Event) : Option Phase :=
  events.foldlM (next name) phase

/-- What the step hands back and leaves when it ends in a phase. -/
def Ends (vars : Vars) (run : ResetRun) : Phase → Prop
  | listed | expired => run.result = .none ∧ run.vars = vars
  | flushed | touched => run.result = .raised ∧ run.vars = vars
  | done port => run.result = .none ∧ run.vars = vars.set "UPLOAD_PORT" (.str port)
  | idle | waiting _ | due _ | polled _ => False

variable {name : Str}

theorem next_flush : next name listed (.flush name) = some flushed := if_pos rfl

theorem next_touch : next name flushed (.touch name 1200) = some touched := if_pos ⟨rfl, rfl⟩

theorem next_replace : next name listed (.replace name) = some (done name) := if_pos rfl

theorem next_sleep (start : ℚ) : next name (polled start) (.sleep (1 / 2)) = some (waiting start) :=
  if_pos rfl

theorem after_cons {phase phase' : Phase} {event : Event} (h : next name phase event = some phase')
    (events : List Event) : after name phase (event :: events) = after name phase' events := by
  rw [after, List.foldlM_cons, h]
  rfl

theorem after_append {phase phase' : Phase} {events : List Event}
    (h : after name phase events = some phase') (events' : List Event) :
    after name phase (events ++ events') = after name phase' events' := by
  rw [after] at h
  rw [after, List.foldlM_append, h]
  rfl

/-- What parsing prints changes nothing, where printing is allowed. -/
theorem after_parse {phase : Phase} (h : ∀ msg, next name phase (.print msg) = some phase)
    (hwid : Str) : after name phase (parseEvents hwid) = some phase := by
  rw [parseEvents]
  induction getSerialPortInfoOutput hwid with
  | nil => rfl
  | cons msg msgs ih => rw [List.map_cons, after_cons (h msg), ih]

end Phase

/-! ### The polling loop -/

section Loop

variable {t : Table} {w : Serial} {ser : Option Str} {name : Str}

/-- Where a pass leads from its listing on. -/
def Phase.found (start : ℚ) : Option Port → Phase
  | none => .polled start
  | some port => .done port.port

theorem after_scan (start : ℚ) (ports : List Port) :
    Phase.after name (.polled start) (scan t ser ports).1 =
      some (.found start (scan t ser ports).2) := by
  induction ports with
  | nil => rfl
  | cons port ports ih =>
      have hparse := @Phase.after_parse name (.polled start) (fun _ => rfl) port.hwid
      rw [scan]
      split
      case isTrue => exact ih
      case isFalse =>
          split
          case isTrue => rw [Phase.after_append hparse]; rfl
          case isFalse => rw [Phase.after_append hparse]; exact ih

/-- A pass in time. -/
theorem after_pass {k : ℕ} (htime : w.expired k = false) :
    Phase.after name (.waiting (w.clock 0)) (w.passEvents t ser k) =
      some (.found (w.clock 0) (w.hit t ser k)) := by
  have hnext : Phase.next name (.waiting (w.clock 0)) (.time (w.clock (k + 1))) =
      some (.due (w.clock 0)) := congrArg some (if_pos (Watch.expired_eq_false.mp htime))
  rw [Serial.passEvents, Phase.after_cons hnext, Phase.after_cons rfl, after_scan, scan_found]
  rfl

/-- Passes that all sleep. -/
theorem after_sleep {k n : ℕ}
    (hpast : ∀ j, k ≤ j → j < n → w.expired j = false ∧ w.hit t ser j = none) :
    Phase.after name (.waiting (w.clock 0)) (w.sleepEvents t ser k n) =
      some (.waiting (w.clock 0)) := by
  induction hd : n - k generalizing k with
  | zero =>
      rw [Serial.sleepEvents, hd]
      rfl
  | succ d ih =>
      have hk : k < n := by omega
      obtain ⟨htime, hnone⟩ := hpast k le_rfl hk
      have hpass := @after_pass t w ser name k htime
      rw [hnone] at hpass
      rw [Serial.sleepEvents_of_lt w t ser hk, Phase.after_append hpass, Phase.found,
        Phase.after_cons (Phase.next_sleep _)]
      exact ih (fun j hj => hpast j (by omega)) (by omega)

/-- Where the loop leads. -/
def Phase.left : Watch.Ending Port → Phase
  | .hit _ port => .done port.port
  | .timeout _ => .expired

theorem after_watch {e : Watch.Ending Port} (he : Watch.Ends w.expired (w.hit t ser) 0 e) :
    Phase.after name (.waiting (w.clock 0)) (w.watchEvents t ser 0 e) = some (.left e) := by
  cases e with
  | hit n port =>
      obtain ⟨-, hpast, hn, hport⟩ := he
      rw [Serial.watchEvents, Phase.after_append (after_sleep hpast), after_pass hn, hport]
      rfl
  | timeout n =>
      obtain ⟨-, hpast, hn⟩ := he
      rw [Serial.watchEvents, Phase.after_append (after_sleep hpast)]
      exact congrArg some (if_neg (not_lt.mpr (Watch.expired_eq_true.mp hn)))

end Loop

/-! ### The runs -/

section Runs

variable {t : Table} {w : Serial} {vars : Vars} {fuel : ℕ} {run : ResetRun}

/-- The first listing, and what parsing the selected port prints. -/
theorem after_read (name : Str) (cur : Port) (last : List Event) :
    Phase.after name .idle (readEvents cur last) = Phase.after name .listed last := by
  rw [readEvents, Phase.after_cons rfl, Phase.after_append (Phase.after_parse (fun _ => rfl) _)]

/-- **Every run follows the protocol**, and ends in a phase that says what it hands back and
leaves. -/
theorem run_follows (h : resetToBootloader t w fuel vars = some run) :
    ∃ phase, Phase.after (uploadPort vars) .idle run.events = some phase ∧
      phase.Ends vars run := by
  cases resets_of_run h with
  | absent => exact ⟨.listed, rfl, rfl, rfl⟩
  | @already cur hcur =>
      obtain ⟨-, hname⟩ := mem_of_currentPort hcur
      refine ⟨.done cur.port, ?_, rfl, rfl⟩
      rw [after_read, Phase.after_cons rfl, hname, Phase.after_cons Phase.next_replace]
      rfl
  | flushRaised =>
      refine ⟨.flushed, ?_, rfl, rfl⟩
      rw [after_read, Phase.after_cons rfl, Phase.after_cons Phase.next_flush]
      rfl
  | touchRaised =>
      refine ⟨.touched, ?_, rfl, rfl⟩
      rw [after_read, Phase.after_cons rfl, Phase.after_cons Phase.next_flush,
        Phase.after_cons Phase.next_touch]
      rfl
  | @polled cur e hsel hf ht he =>
      refine ⟨.left e, ?_, ?_⟩
      · have hbefore : Phase.after (uploadPort vars) .idle (readEvents cur
            [.print "Resetting device into bootloader mode...", .flush (uploadPort vars),
              .touch (uploadPort vars) 1200, .time (w.clock 0)]) =
            some (.waiting (w.clock 0)) := by
          rw [after_read, Phase.after_cons rfl, Phase.after_cons Phase.next_flush,
            Phase.after_cons Phase.next_touch]
          rfl
        rw [Serial.polledRun, Phase.after_append hbefore, after_watch he]
      · cases e with
        | hit n port => exact ⟨rfl, rfl⟩
        | timeout n => exact ⟨rfl, rfl⟩

end Runs

theorem run_follows_reenumerated : ∃ phase,
    Phase.after "COM3" .idle reenumerated.events = some phase ∧
      phase.Ends (.ofList [("UPLOAD_PORT", .str "COM3")]) reenumerated := by
  have hrun : resetToBootloader vidsPids reenumerating 3 (.ofList [("UPLOAD_PORT", .str "COM3")]) =
      some reenumerated := by decide +kernel
  have hport : uploadPort (.ofList [("UPLOAD_PORT", .str "COM3")]) = "COM3".toList := by decide
  rw [← hport]
  exact run_follows hrun

/-! ### When a run ends -/

/-- **When the step ends**: it does not come to poll, or some pass is out of time or lists the
device. -/
theorem reset_ends_iff {w : Serial} {vars : Vars} :
    (∃ fuel run, resetToBootloader vidsPids w fuel vars = some run) ↔
      ∀ cur, w.Selects vidsPids vars cur → w.flushRaises (uploadPort vars) = false →
        w.touchRaises (uploadPort vars) = false →
          ∃ k, resetTimeout ≤ w.clock (k + 1) - w.clock 0 ∨
            ∃ port ∈ w.listing (k + 1), BootloaderOf (getSerialPortInfo cur.hwid).ser port := by
  have hend : ∀ {ser k}, (w.expired k = true ∨ (w.hit vidsPids ser k).isSome) ↔
      (resetTimeout ≤ w.clock (k + 1) - w.clock 0 ∨
        ∃ port ∈ w.listing (k + 1), BootloaderOf ser port) := by
    intro ser k
    rw [Watch.expired_eq_true, Option.isSome_iff_ne_none, Ne, hit_eq_none_iff]
    simp only [not_forall, not_not, exists_prop]
  simp only [← hend]
  refine ⟨?_, fun h => ?_⟩
  · rintro ⟨fuel, run, hrun⟩ cur hsel hf ht
    cases resets_of_run hrun with
    | absent hcur => rw [hsel.1] at hcur; cases hcur
    | already hcur hin =>
        obtain rfl := Option.some.inj (hsel.1.symm.trans hcur)
        rw [hsel.2] at hin
        cases hin
    | flushRaised _ hf' => rw [hf] at hf'; cases hf'
    | touchRaised _ _ ht' => rw [ht] at ht'; cases ht'
    | polled hsel' _ _ he =>
        obtain rfl := Option.some.inj (hsel.1.symm.trans hsel'.1)
        cases ‹Watch.Ending Port› with
        | hit n port => exact ⟨n, .inr (by rw [he.2.2.2]; rfl)⟩
        | timeout n => exact ⟨n, .inl he.2.2⟩
  · obtain ⟨run, hrun⟩ := exists_resets h
    obtain ⟨N, hN⟩ := run_of_resets hrun
    exact ⟨N, run, hN N le_rfl⟩

end Nrf52
