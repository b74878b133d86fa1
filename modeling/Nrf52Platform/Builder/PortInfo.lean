import Nrf52Platform.Support.Hex
import Nrf52Platform.Support.Regex
import Mathlib.Tactic.NormNum

/-!
# Builder — PortInfo

`get_serial_port_info` of `builder/main.py`: the vendor and product ids and the serial number of a
serial port, read from the `hwid` text the port lister gives it.

* `getSerialPortInfo_cases`: either nothing is read, or both ids and a serial that is not empty
  and has no space.
* `getSerialPortInfo_hwid`: what is read back from the text of a USB port, the serial cut at its
  first space.
* `getSerialPortInfo_decodes`: the text is decoded exactly when the serial has no space, and then
  different serials stay different.
* `getSerialPortInfo_iff`: what is read from any text whatever: its first field of ids and a serial
  (`Field`), or nothing, with a warning, if it has none.
* `getSerialPortInfo_usbHwid`: what is read from any text can be written as the text of a USB port,
  from which it is read again.
-/

namespace Nrf52
open Py

/-- An entry of `list_serial_ports()`. -/
structure Port where
  port : Str
  hwid : Str
  deriving DecidableEq

/-- The triple `get_serial_port_info` returns; `none` is Python's `None`. -/
structure PortInfo where
  vid : Option ℕ
  pid : Option ℕ
  ser : Option Str
  deriving DecidableEq

/-- `REGEX`. -/
def regex : Regex :=
  .seq (.lit "USB VID:PID=") <| .seq (.group "vid" (.many isHexDigit 4 (some 4))) <|
  .seq (.lit ":") <| .seq (.group "pid" (.many isHexDigit 4 (some 4))) <|
  .seq (.lit " SER=") <| .group "ser" (.many (· != ' ') 1 none)

/-- `get_serial_port_info(desc)`. -/
def getSerialPortInfo (desc : Str) : PortInfo :=
  match regex.search desc with
  | some m => ⟨some (int16 (m.group "vid")), some (int16 (m.group "pid")), some (m.group "ser")⟩
  | none => ⟨none, none, none⟩

/-- What `get_serial_port_info(desc)` prints. -/
def getSerialPortInfoOutput (desc : Str) : List Str :=
  match regex.search desc with
  | some _ => []
  | none => ["Warning! Cannot detect VID:PID and SER of the current serial port: ".toList ++ desc]

/-! ### The pattern -/

/-- What a match of the pattern has read. -/
theorem parses_regex {s : Str} {m : Cursor} (h : regex.Parses ⟨[], s⟩ m) :
    ∃ v p ser, s = "USB VID:PID=".toList ++ (v ++ (":".toList ++ (p ++ (" SER=".toList ++
      (ser ++ m.rest))))) ∧ m.groups = [("ser", ser), ("pid", p), ("vid", v)] ∧
      v.length = 4 ∧ p.length = 4 ∧ ser ≠ [] ∧ ' ' ∉ ser ∧
      (∀ c ∈ v, isHexDigit c = true) ∧ ∀ c ∈ p, isHexDigit c = true := by
  cases h with | seq h₁ h =>
  cases h₁ with | lit _ _ s =>
  cases h with | seq hv h =>
  cases hv with | group _ hx hv =>
  cases hv with | many _ _ hv hv₄ hv₄' =>
  cases h with | seq h₁ h =>
  cases h₁ with | lit _ _ s =>
  cases h with | seq hp h =>
  cases hp with | group _ hx' hp =>
  cases hp with | many _ _ hp hp₄ hp₄' =>
  cases h with | seq h₁ h =>
  cases h₁ with | lit _ _ s =>
  cases h with | group _ hx'' hs =>
  cases hs with | many _ _ hs hs₁ hs₁' =>
  obtain rfl := List.append_cancel_right hx
  obtain rfl := List.append_cancel_right hx'
  obtain rfl := List.append_cancel_right hx''
  refine ⟨_, _, _, rfl, rfl, le_antisymm (hv₄' 4 rfl) hv₄, le_antisymm (hp₄' 4 rfl) hp₄, ?_, ?_,
    hv, hp⟩
  · exact List.length_pos_iff.mp hs₁
  · exact fun hsp => by simpa using hs _ hsp

/-- The match the pattern prefers at the front of a well-formed text. -/
theorem prefers_regex {v p ser rest : Str} (hv : ∀ c ∈ v, isHexDigit c = true)
    (hp : ∀ c ∈ p, isHexDigit c = true) (hv₄ : v.length = 4) (hp₄ : p.length = 4) (hser : ser ≠ [])
    (hsp : ' ' ∉ ser) (hrest : ∀ c ∈ rest.head?, c = ' ') :
    regex.Prefers ⟨[], "USB VID:PID=".toList ++ (v ++ (":".toList ++ (p ++ (" SER=".toList ++
      (ser ++ rest)))))⟩ ⟨[("ser", ser), ("pid", p), ("vid", v)], rest⟩ := by
  have hhex : ∀ {w : Str} (g : List (String × Str)) (s : Str), (∀ c ∈ w, isHexDigit c = true) →
      w.length = 4 → (Regex.many isHexDigit 4 (some 4)).Prefers ⟨g, w ++ s⟩ ⟨g, s⟩ :=
    fun g s hw h₄ => .many g hw h₄.ge (by simp [h₄]) (.inl (by rw [h₄]))
  refine .seq (.lit _ _ _) (.seq (.group _ rfl (hhex _ _ hv hv₄)) (.seq (.lit _ _ _)
    (.seq (.group _ rfl (hhex _ _ hp hp₄)) (.seq (.lit _ _ _) (.group _ rfl
      (.many _ (fun c hc => ?_) ?_ (by simp) (.inr fun c hc => ?_)))))))
  · exact bne_iff_ne.mpr fun h => hsp (h ▸ hc)
  · exact List.length_pos_iff.mpr hser
  · simp [hrest c hc]

/-! ### What is read -/

theorem getSerialPortInfo_of_match {desc : Str} {g : List (String × Str)} {v p ser rest : Str}
    (h : regex.search desc = some ⟨g, rest⟩) (hg : g = [("ser", ser), ("pid", p), ("vid", v)]) :
    getSerialPortInfo desc = ⟨some (int16 v), some (int16 p), some ser⟩ := by
  subst hg
  rw [getSerialPortInfo, h]
  rfl

/-- **All or nothing**: an unparsable text gives no id and no serial; a parsable one gives both
ids and a serial that is not empty and has no space. -/
theorem getSerialPortInfo_cases (desc : Str) :
    getSerialPortInfo desc = ⟨none, none, none⟩ ∨
      ∃ v p ser, getSerialPortInfo desc = ⟨some v, some p, some ser⟩ ∧ ser ≠ [] ∧ ' ' ∉ ser := by
  cases h : regex.search desc with
  | none => exact .inl (by rw [getSerialPortInfo, h])
  | some m =>
      obtain ⟨a, b, -, hb⟩ := Regex.exists_of_search h
      obtain ⟨v, p, ser, -, hg, -, -, hne, hsp, -⟩ := parses_regex hb
      exact .inr ⟨_, _, ser, getSerialPortInfo_of_match h hg, hne, hsp⟩

/-! ### The text of a USB port -/

/-- The last field of a `hwid` text. -/
def locationField : Option Str → Str
  | none => []
  | some l => " LOCATION=".toList ++ l

/-- The `hwid` text of a USB port: its ids in four upper-case digits each, its serial number and,
when it has one, its location. -/
def usbHwid (vid pid : Fin (2 ^ 16)) (ser : Str) (location : Option Str) : Str :=
  "USB VID:PID=".toList ++ (format04X vid ++ (":".toList ++ (format04X pid ++ (" SER=".toList ++
    (ser ++ locationField location)))))

theorem length_format04X_id (n : Fin (2 ^ 16)) : (format04X n).length = 4 :=
  length_format04X (lt_of_lt_of_le n.isLt (by norm_num))

/-- **Reading back a USB port**: the ids, and the serial up to its first space. -/
theorem getSerialPortInfo_hwid (vid pid : Fin (2 ^ 16)) {ser : Str} (location : Option Str)
    (hser : ser ≠ []) (hhead : ∀ c ∈ ser.head?, c ≠ ' ') :
    getSerialPortInfo (usbHwid vid pid ser location) =
      ⟨some vid, some pid, some (ser.takeWhile (· != ' '))⟩ := by
  have hsplit : ser = ser.takeWhile (· != ' ') ++ ser.dropWhile (· != ' ') :=
    List.takeWhile_append_dropWhile.symm
  have hne : ser.takeWhile (· != ' ') ≠ [] := by
    cases ser with
    | nil => exact absurd rfl hser
    | cons c ser => simp [hhead c rfl]
  have hsp : ' ' ∉ ser.takeWhile (· != ' ') := by
    intro h
    simpa using List.mem_takeWhile_imp h
  -- what follows the serial's first word is a space or the end
  have hrest : ∀ c ∈ (ser.dropWhile (· != ' ') ++ locationField location).head?, c = ' ' := by
    intro c hc
    cases hd : ser.dropWhile (· != ' ') with
    | nil =>
        rw [hd] at hc
        cases location with
        | none => cases hc
        | some l => exact (Option.some.inj hc).symm
    | cons d t =>
        have hd' := List.head?_dropWhile_not (· != ' ') ser
        rw [hd] at hc hd'
        obtain rfl : d = c := Option.some.inj hc
        simpa using hd'
  have hpre := prefers_regex (fun c hc => isHexDigit_format04X hc)
    (fun c hc => isHexDigit_format04X hc) (length_format04X_id vid) (length_format04X_id pid)
    hne hsp hrest
  rw [← List.append_assoc (ser.takeWhile _), ← hsplit] at hpre
  have hread := getSerialPortInfo_of_match (Regex.search_of_prefers hpre) rfl
  simp only [int16_format04X] at hread
  exact hread

/-- A serial without a space is read whole. -/
theorem getSerialPortInfo_solid (vid pid : Fin (2 ^ 16)) {ser : Str} (location : Option Str)
    (hser : ser ≠ []) (hsp : ' ' ∉ ser) :
    getSerialPortInfo (usbHwid vid pid ser location) = ⟨some vid, some pid, some ser⟩ := by
  have hchar : ∀ c ∈ ser, c ≠ ' ' := fun c hc h => hsp (h ▸ hc)
  have hword : ser.takeWhile (· != ' ') = ser :=
    List.takeWhile_eq_self_iff.mpr fun c hc => bne_iff_ne.mpr (hchar c hc)
  rw [getSerialPortInfo_hwid vid pid location hser
    fun c hc => hchar c (List.mem_of_mem_head? hc), hword]

/-- **The decoding, exactly.**  The text of a USB port with a serial number is decoded to its ids
and serial iff the serial has no space; so two devices whose serials have no space and differ are
told apart by the serials that are read. -/
theorem getSerialPortInfo_decodes (vid pid : Fin (2 ^ 16)) (ser : Str) (location : Option Str)
    (hser : ser ≠ []) :
    (getSerialPortInfo (usbHwid vid pid ser location) = ⟨some vid, some pid, some ser⟩ ↔
      ' ' ∉ ser) ∧
    ∀ (vid' pid' : Fin (2 ^ 16)) (ser' : Str) (location' : Option Str), ser' ≠ [] →
      ' ' ∉ ser → ' ' ∉ ser' → ser ≠ ser' →
      (getSerialPortInfo (usbHwid vid pid ser location)).ser ≠
        (getSerialPortInfo (usbHwid vid' pid' ser' location')).ser := by
  refine ⟨⟨fun h => ?_, getSerialPortInfo_solid vid pid location hser⟩, ?_⟩
  · rcases getSerialPortInfo_cases (usbHwid vid pid ser location) with h' | ⟨v, p, s, h', -, hsp⟩
    · rw [h'] at h
      cases h
    · rw [h'] at h
      cases h
      exact hsp
  · intro vid' pid' ser' location' hser' hsp hsp' hne h
    rw [getSerialPortInfo_solid vid pid location hser hsp,
      getSerialPortInfo_solid vid' pid' location' hser' hsp'] at h
    exact hne (Option.some.inj h)

theorem getSerialPortInfo_decodes_1915 :
    getSerialPortInfo (usbHwid 0x1915 0x521F "D0".toList (some "1-2".toList)) =
      ⟨some 0x1915, some 0x521F, some "D0".toList⟩ :=
  (getSerialPortInfo_decodes 0x1915 0x521F "D0".toList (some "1-2".toList) (by decide)).1.mpr
    (by decide)

/-- A serial with a space is cut there, and two such serials are confused. -/
theorem getSerialPortInfo_space :
    (¬ ∀ (vid pid : Fin (2 ^ 16)) (ser : Str) (location : Option Str), ser ≠ [] →
      getSerialPortInfo (usbHwid vid pid ser location) = ⟨some vid, some pid, some ser⟩) ∧
    (getSerialPortInfo (usbHwid 0x239A 0x8029 "A 1".toList none)).ser =
      (getSerialPortInfo (usbHwid 0x239A 0x8029 "A 2".toList none)).ser := by
  refine ⟨fun h => ?_, by decide⟩
  have := h 0x239A 0x8029 "A 1".toList none (by decide)
  revert this
  decide

/-! ### Any text -/

/-- A field of ids and a serial, with all that stands behind it: ids of four hexadecimal digits, and
a serial up to the next space. -/
structure Field where
  vid : Str
  pid : Str
  ser : Str
  rest : Str
  vid_hex : ∀ c ∈ vid, isHexDigit c = true
  pid_hex : ∀ c ∈ pid, isHexDigit c = true
  vid_length : vid.length = 4
  pid_length : pid.length = 4
  ser_ne_nil : ser ≠ []
  ser_solid : ' ' ∉ ser
  rest_head : ∀ c ∈ rest.head?, c = ' '

namespace Field

/-- The text from the field on. -/
def text (f : Field) : Str :=
  "USB VID:PID=".toList ++ (f.vid ++ (":".toList ++ (f.pid ++ (" SER=".toList ++
    (f.ser ++ f.rest)))))

/-- What the field says. -/
def read (f : Field) : PortInfo := ⟨some (int16 f.vid), some (int16 f.pid), some f.ser⟩

/-- The field is the first of a text. -/
def First (desc : Str) (f : Field) : Prop :=
  f.text <:+ desc ∧ ∀ f' : Field, f'.text <:+ desc → f'.text.length ≤ f.text.length

theorem text_eq (f : Field) : f.text = "USB VID:PID=".toList ++ (f.vid ++ (":".toList ++
    (f.pid ++ (" SER=".toList ++ (f.ser ++ f.rest))))) := rfl

theorem prefers (f : Field) : regex.Prefers ⟨[], f.text⟩
    ⟨[("ser", f.ser), ("pid", f.pid), ("vid", f.vid)], f.rest⟩ :=
  prefers_regex f.vid_hex f.pid_hex f.vid_length f.pid_length f.ser_ne_nil f.ser_solid f.rest_head

end Field

/-- The pattern matches where a field stands. -/
theorem matches_regex_iff {s : Str} : regex.Matches s ↔ ∃ f : Field, f.text = s := by
  refine ⟨?_, ?_⟩
  · rintro ⟨m, hm⟩
    obtain ⟨v, p, ser, htext, -, hv₄, hp₄, hne, hsp, hv, hp⟩ := parses_regex hm
    -- a match may end within the serial, the field does not
    have hsplit := @List.takeWhile_append_dropWhile _ (· != ' ') m.rest
    refine ⟨⟨v, p, ser ++ m.rest.takeWhile (· != ' '), m.rest.dropWhile (· != ' '), hv, hp, hv₄,
      hp₄, List.append_ne_nil_of_left_ne_nil hne _, ?_, ?_⟩, ?_⟩
    · rw [List.mem_append, not_or]
      exact ⟨hsp, fun h => by simpa using List.mem_takeWhile_imp h⟩
    · intro c hc
      have hnot := List.head?_dropWhile_not (· != ' ') m.rest
      rw [Option.mem_def.mp hc] at hnot
      simpa using hnot
    · rw [Field.text_eq, htext, List.append_assoc, hsplit]
  · rintro ⟨f, rfl⟩
    exact f.prefers.matches

/-- A text in which a field is the first. -/
theorem search_of_first {desc : Str} {f : Field} (h : f.First desc) :
    regex.search desc = some ⟨[("ser", f.ser), ("pid", f.pid), ("vid", f.vid)], f.rest⟩ := by
  refine Regex.search_eq_some_iff.mpr ⟨f.text, h.1, f.prefers, fun b hb hmatch => ?_⟩
  obtain ⟨f', rfl⟩ := matches_regex_iff.mp hmatch
  exact h.2 f' hb

/-- A text has a first field, or none and no match. -/
theorem first_or_none (desc : Str) : (∃ f, Field.First desc f) ∨
    (∀ f : Field, ¬ f.text <:+ desc) ∧ regex.search desc = none := by
  cases h : regex.search desc with
  | none =>
      refine .inr ⟨fun f hf => ?_, rfl⟩
      exact Regex.search_eq_none_iff.mp h _ hf (matches_regex_iff.mpr ⟨f, rfl⟩)
  | some m =>
      obtain ⟨b, hb, hpre, hlongest⟩ := Regex.search_eq_some_iff.mp h
      obtain ⟨f, rfl⟩ := matches_regex_iff.mp hpre.matches
      exact .inl ⟨f, hb, fun f' hf' => hlongest _ hf' (matches_regex_iff.mpr ⟨f', rfl⟩)⟩

/-- **What is read from a text**, and what is printed: its first field, and nothing; or nothing, and
a warning, if the text has no field. -/
theorem getSerialPortInfo_iff {desc : Str} {info : PortInfo} {out : List Str} :
    getSerialPortInfo desc = info ∧ getSerialPortInfoOutput desc = out ↔
      (∃ f, Field.First desc f ∧ info = f.read ∧ out = []) ∨
        (∀ f : Field, ¬ f.text <:+ desc) ∧ info = ⟨none, none, none⟩ ∧
          out = ["Warning! Cannot detect VID:PID and SER of the current serial port: ".toList ++
            desc] := by
  rcases first_or_none desc with ⟨f, hf⟩ | ⟨hno, hsearch⟩
  · have hsearch := search_of_first hf
    have hread : getSerialPortInfo desc = f.read := getSerialPortInfo_of_match hsearch rfl
    have hout : getSerialPortInfoOutput desc = [] := by rw [getSerialPortInfoOutput, hsearch]
    rw [hread, hout]
    refine ⟨fun h => .inl ⟨f, hf, h.1.symm, h.2.symm⟩, ?_⟩
    rintro (⟨f', hf', rfl, rfl⟩ | ⟨hno, -⟩)
    · exact ⟨hread.symm.trans (getSerialPortInfo_of_match (search_of_first hf') rfl), rfl⟩
    · exact absurd hf.1 (hno f)
  · rw [getSerialPortInfo, getSerialPortInfoOutput, hsearch]
    refine ⟨fun h => .inr ⟨hno, h.1.symm, h.2.symm⟩, ?_⟩
    rintro (⟨f, hf, -⟩ | ⟨-, rfl, rfl⟩)
    · exact absurd hf.1 (hno f)
    · exact ⟨rfl, rfl⟩

/-- **What is read can be written**: the ids have sixteen bits, and the text of the USB port that
has them and the serial is read alike. -/
theorem getSerialPortInfo_usbHwid {desc : Str} {v p : ℕ} {ser : Str}
    (h : getSerialPortInfo desc = ⟨some v, some p, some ser⟩) : ∃ vid pid : Fin (2 ^ 16),
      vid = v ∧ pid = p ∧ ∀ location,
        getSerialPortInfo (usbHwid vid pid ser location) = getSerialPortInfo desc := by
  obtain ⟨f, hf⟩ | ⟨-, hsearch⟩ := first_or_none desc
  · rw [getSerialPortInfo_of_match (search_of_first hf) rfl] at h ⊢
    cases h
    have hvid : int16 f.vid < 2 ^ 16 := by
      have hlt := int16_lt f.vid_hex
      rwa [f.vid_length] at hlt
    have hpid : int16 f.pid < 2 ^ 16 := by
      have hlt := int16_lt f.pid_hex
      rwa [f.pid_length] at hlt
    exact ⟨⟨_, hvid⟩, ⟨_, hpid⟩, rfl, rfl, fun location =>
      getSerialPortInfo_solid _ _ location f.ser_ne_nil f.ser_solid⟩
  · rw [getSerialPortInfo, hsearch] at h
    cases h

theorem getSerialPortInfo_usbHwid_lower : ∃ vid pid : Fin (2 ^ 16),
    (vid : ℕ) = 0x239A ∧ (pid : ℕ) = 0x29 ∧ ∀ location,
      getSerialPortInfo (usbHwid vid pid "A1" location) =
        getSerialPortInfo "usb0 USB VID:PID=239a:0029 SER=A1 1-2" :=
  getSerialPortInfo_usbHwid (by decide)

end Nrf52
