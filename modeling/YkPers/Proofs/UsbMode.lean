import YkPers.Proofs.ArgsToConfig

/-!
# The numerals of `-m`

The argument of `-m` is converted into variables of 8 and of 16 bits, which keep the low-order bits
of a larger value. The option is accepted all the same.
-/

namespace YkPers

open Proc (Moves)
open Scanf (Numeral Stops)

/-- `M`, `M:C` or `M:C:A`, with numerals of any size. -/
structure UsbModeArg where
  mode : Numeral 16
  timeouts : Option (Numeral 10 × Option (Numeral 10))

namespace UsbModeArg

variable (v : UsbModeArg)

def text : List Char :=
  v.mode.text ++ match v.timeouts with
    | none => []
    | some (c, none) => ':' :: c.text
    | some (c, some a) => ':' :: (c.text ++ ':' :: a.text)

structure InRange : Prop where
  mode : 0 ≤ v.mode.toInt ∧ v.mode.toInt ≤ 255
  crTimeout : ∀ c a, v.timeouts = some (c, a) → 0 ≤ c.toInt ∧ c.toInt ≤ 255
  autoejectTimeout : ∀ c a, v.timeouts = some (c, some a) → 0 ≤ a.toInt ∧ a.toInt ≤ 65535

/-- What is stored is the numbers as they are written. -/
structure Taken (s : ArgsState) : Prop where
  mode : (s.usbMode.toNat : ℤ) = v.mode.toInt
  crTimeout : ∀ c a, v.timeouts = some (c, a) → (s.crTimeout.toNat : ℤ) = c.toInt
  autoejectTimeout : ∀ c a, v.timeouts = some (c, some a) →
    (s.autoejectTimeout.toNat : ℤ) = a.toInt

theorem Taken.of_same {v : UsbModeArg} {s s' : ArgsState} (h : v.Taken s) (hs : SameModes s s') :
    v.Taken s' where
  mode := by rw [hs.usbMode, h.mode]
  crTimeout c a hc := by rw [hs.crTimeout, h.crTimeout c a hc]
  autoejectTimeout c a hc := by rw [hs.autoejectTimeout, h.autoejectTimeout c a hc]

/-- What is left of the numbers in the variables. -/
def wrapped : UInt8 × Option (UInt8 × Option UInt16) :=
  (UInt8.ofInt v.mode.toInt, v.timeouts.map fun p =>
    (UInt8.ofInt p.1.toInt, p.2.map fun a => UInt16.ofInt a.toInt))

theorem stops_nil (base : ℕ) : Stops base [] := fun _ h => by cases h

theorem stops_colon (rest : List Char) : Stops 16 (':' :: rest) ∧ Stops 10 (':' :: rest) := by
  constructor <;>
  · intro c hc
    obtain rfl : ':' = c := Option.some.inj hc
    decide

theorem scanUsbMode_text : scanUsbMode v.text = some v.wrapped := by
  rcases v with ⟨m, _ | ⟨c, _ | a⟩⟩
  · have hm := Numeral.int_text (n := m) (stops_nil 16)
    rw [List.append_nil] at hm
    simp [scanUsbMode, text, wrapped, hm, Scanf.colon]
  · have hm := Numeral.int_text (n := m) (stops_colon c.text).1
    have hc := Numeral.int_text (n := c) (stops_nil 10)
    rw [List.append_nil] at hc
    simp [scanUsbMode, text, wrapped, hm, hc, Scanf.colon]
  · have hm := Numeral.int_text (n := m) (stops_colon (c.text ++ ':' :: a.text)).1
    have hc := Numeral.int_text (n := c) (stops_colon a.text).2
    have ha := Numeral.int_text (n := a) (stops_nil 10)
    rw [List.append_nil] at ha
    simp [scanUsbMode, text, wrapped, hm, hc, ha, Scanf.colon]

theorem toNat_ofInt8 (i : ℤ) : ((UInt8.ofInt i).toNat : ℤ) = i ↔ 0 ≤ i ∧ i ≤ 255 := by
  rw [UInt8.ofInt, UInt8.toNat_ofNat']
  omega

theorem toNat_ofInt16 (i : ℤ) : ((UInt16.ofInt i).toNat : ℤ) = i ↔ 0 ≤ i ∧ i ≤ 65535 := by
  rw [UInt16.ofInt, UInt16.toNat_ofNat']
  omega

theorem taken_store (s : ArgsState) : v.Taken (storeUsbMode v.wrapped s) ↔ v.InRange := by
  rcases v with ⟨m, _ | ⟨c, _ | a⟩⟩
  · exact ⟨fun h => ⟨(toNat_ofInt8 _).1 h.mode, nofun, nofun⟩,
      fun h => ⟨(toNat_ofInt8 _).2 h.mode, nofun, nofun⟩⟩
  · constructor
    · refine fun h => ⟨(toNat_ofInt8 _).1 h.mode, ?_, nofun⟩
      rintro c a ⟨⟩
      exact (toNat_ofInt8 _).1 (h.crTimeout c none rfl)
    · refine fun h => ⟨(toNat_ofInt8 _).2 h.mode, ?_, nofun⟩
      rintro c a ⟨⟩
      exact (toNat_ofInt8 _).2 (h.crTimeout c none rfl)
  · constructor
    · refine fun h => ⟨(toNat_ofInt8 _).1 h.mode, ?_, ?_⟩
      · rintro c a ⟨⟩
        exact (toNat_ofInt8 _).1 (h.crTimeout c (some _) rfl)
      · rintro c a ⟨⟩
        exact (toNat_ofInt16 _).1 (h.autoejectTimeout c a rfl)
    · refine fun h => ⟨(toNat_ofInt8 _).2 h.mode, ?_, ?_⟩
      · rintro c a ⟨⟩
        exact (toNat_ofInt8 _).2 (h.crTimeout c (some _) rfl)
      · rintro c a ⟨⟩
        exact (toNat_ofInt16 _).2 (h.autoejectTimeout c a rfl)

end UsbModeArg

/-! ## The options -/

/-- The argument that `-m` gives. -/
def modeOptionArg : Getopt.Scanned → Option (List Char)
  | .arg 'm' optarg => some optarg
  | _ => none

theorem sameModes : CaseFrame (fun _ _ => True) SameModes where
  transYkp _ _ _ _ _ := trivial
  cfg _ _ _ := trivial
  trans _ _ _ h k := ⟨k.1.trans h.1, k.2.trans h.2, k.3.trans h.3, k.4.trans h.4⟩
  same _ _ h := h.toSameModes
  ykp _ _ _ := ⟨rfl, rfl, rfl, rfl⟩
  command _ _ _ := trivial
  any _ _ h := h.toSameModes

section Options

variable {E : ArgsEnv} {o : Getopt.Scanned} {s s' : ArgsState}

theorem handle_sameModes (ho : modeOptionArg o = none) : Moves SameModes (handle E o) := by
  refine sameModes.handle E (fun h s => ?_) (fun h s => ?_) (fun _ _ _ => ⟨rfl, rfl, rfl, rfl⟩)
    (fun _ _ _ _ => ⟨rfl, rfl, rfl, rfl⟩) (fun h => ?_) (fun _ _ _ _ _ _ _ => trivial) ?_
  · unfold gates at h
    split at h
    · exact ⟨rfl, rfl, rfl, rfl⟩
    · exact ⟨rfl, rfl, rfl, rfl⟩
    · exact ⟨rfl, rfl, rfl, rfl⟩
    · cases h
  · unfold givesKey at h
    split at h
    · rename_i optarg
      change SameModes s (caseA optarg s).2
      unfold caseA
      split_ifs <;> exact ⟨rfl, rfl, rfl, rfl⟩
    · exact ⟨rfl, rfl, rfl, rfl⟩
    · cases h
  · unfold givesMode at h
    split at h
    · cases ho
    · cases h
  · rintro optarg rfl
    exact sameModes.bind (sameModes.modeOption optarg fun _ => trivial) fun _ =>
      sameModes.caseO E optarg ⟨fun _ _ _ _ _ => trivial, fun _ _ _ => trivial⟩
        (fun _ _ _ _ _ _ => trivial) fun _ _ _ _ _ _ => ⟨rfl, rfl, rfl, rfl⟩

/-- The numbers are stored, in the width of the variables. -/
theorem caseM_modes {optarg : List Char} {v : UInt8 × Option (UInt8 × Option UInt16)}
    (hv : scanUsbMode optarg = some v) (h : caseM optarg s = (.ok ⟨⟩, s')) :
    SameModes (storeUsbMode v s) s' := by
  unfold caseM at h
  rw [Proc.get_bind_run] at h
  obtain ⟨-, h⟩ := rejectIf_bind_ok h
  rw [hv] at h
  simp only [Proc.modify_bind_run] at h
  have hstored := (sameModes.configureCommand _).of_eq_ok h
  exact ⟨hstored.1, hstored.2, hstored.3, hstored.4⟩

theorem handle_taken_iff (v : UsbModeArg) (h : handle E (.arg 'm' v.text) s = (.ok ⟨⟩, s')) :
    v.Taken s' ↔ v.InRange := by
  have hsame := caseM_modes v.scanUsbMode_text h
  rw [← v.taken_store s]
  refine ⟨fun ht => ht.of_same ?_, fun ht => ht.of_same hsame⟩
  exact ⟨hsame.1.symm, hsame.2.symm, hsame.3.symm, hsame.4.symm⟩

end Options

/-! ## The command line -/

/-- Each `-m` of an accepted command line is taken as written: what it stores where it is accepted,
and behind the last one what is left in the end. -/
structure ModesTaken (E : ArgsEnv) (os : List Getopt.Scanned) (s' : ArgsState) : Prop where
  stored : ∀ v : UsbModeArg, .arg 'm' v.text ∈ os → ∀ t u,
    handle E (.arg 'm' v.text) t = (.ok ⟨⟩, u) → v.Taken u
  kept : ∀ v : UsbModeArg, lastOf modeOptionArg os = some v.text → v.Taken s'

/-- Each option so far was accepted, and the last `-m` is the one that is stored. -/
structure ModesTracked (E : ArgsEnv) (os : List Getopt.Scanned) (s : ArgsState) : Prop where
  accepted : ∀ o ∈ os, ∃ t u, handle E o t = (.ok ⟨⟩, u)
  stored : ∀ v : UsbModeArg, lastOf modeOptionArg os = some v.text → (v.Taken s ↔ v.InRange)

section Loop

variable {E : ArgsEnv} {os : List Getopt.Scanned} {o : Getopt.Scanned} {s s' : ArgsState}

theorem ModesTracked.of_same (h : ModesTracked E os s) (hs : SameModes s s') :
    ModesTracked E os s' where
  accepted := h.accepted
  stored v hv := by
    rw [← h.stored v hv]
    exact ⟨fun ht => ht.of_same ⟨hs.1.symm, hs.2.symm, hs.3.symm, hs.4.symm⟩,
      fun ht => ht.of_same hs⟩

theorem ModesTracked.handled (h : ModesTracked E os s) (hs : handle E o s = (.ok ⟨⟩, s')) :
    ModesTracked E (os ++ [o]) s' where
  accepted p hp := by
    rcases List.mem_append.1 hp with hp | hp
    · exact h.accepted p hp
    · obtain rfl := List.mem_singleton.1 hp
      exact ⟨s, s', hs⟩
  stored v hv := by
    rcases ho : modeOptionArg o with _ | optarg
    · rw [lastOf_concat_none ho] at hv
      exact (h.of_same ((handle_sameModes ho).of_eq_ok hs)).stored v hv
    · rw [lastOf_concat_some ho] at hv
      obtain rfl := Option.some.inj hv
      unfold modeOptionArg at ho
      split at ho
      · obtain rfl := Option.some.inj ho
        exact handle_taken_iff v hs
      · cases ho

end Loop

/-- The numerals of an accepted command line are taken as written exactly when they fit the
variables that they are converted into. -/
theorem argsToConfig_modesTaken_iff {E : ArgsEnv} {fuel : ℕ} {argv : List (List Char)}
    {stdin : List Char} {scanCodes deviceInfo : List UInt8} {s' : ArgsState}
    (h : argsToConfig E fuel (.fresh argv stdin scanCodes deviceInfo) = (.ok ⟨⟩, s')) :
    ModesTaken E (scans fuel (Getopt.start argv)) s'
      ↔ ∀ v : UsbModeArg, .arg 'm' v.text ∈ scans fuel (Getopt.start argv) → v.InRange := by
  obtain ⟨t, u, w, ht, hu, hw, hsection⟩ := argsToConfig_parts h
  have hloop : ModesTracked E (scans fuel (Getopt.start argv)) t :=
    optionLoop_scans (P := ModesTracked E)
      (fun os s g hs => hs.of_same ⟨rfl, rfl, rfl, rfl⟩) (fun os o s s' hs h => hs.handled h)
      fuel [] ⟨fun o ho => absurd ho List.not_mem_nil, fun v hv => by cases hv⟩ ht
  have hend : SameModes t s' := steps_behindLoop sameModes.toStepFrame
    (sameModes.toStepFrame.keySection E (fun _ _ _ => ⟨rfl, rfl, rfl, rfl⟩)
      (fun _ _ _ => trivial) fuel) hu hw hsection
  have hlast := hloop.of_same hend
  constructor
  · intro hm v hv
    obtain ⟨a, b, hab⟩ := hloop.accepted _ hv
    exact (handle_taken_iff v hab).1 (hm.stored v hv a b hab)
  · refine fun hr => ⟨fun v hv a b hab => (handle_taken_iff v hab).2 (hr v hv), fun v hv => ?_⟩
    obtain ⟨o, ho, hov⟩ := lastOf_mem hv
    unfold modeOptionArg at hov
    split at hov
    · obtain rfl := Option.some.inj hov
      exact (hlast.stored v hv).2 (hr v ho)
    · cases hov

section Runs

open ScriptedHost (env start)

theorem argsToConfig_modesTaken_timeouts :
    ModesTaken (env 3 0 0) (scans 10 (start ["ykpersonalize", "-m86:15:300"]).getopt)
        (argsToConfig (env 3 0 0) 10 (start ["ykpersonalize", "-m86:15:300"])).2
      ↔ ∀ v : UsbModeArg, .arg 'm' v.text
          ∈ scans 10 (start ["ykpersonalize", "-m86:15:300"]).getopt → v.InRange :=
  argsToConfig_modesTaken_iff (Proc.run_eq (by decide +kernel))

/-- The mode 101 is accepted, and 1 is stored: the key would no longer be a keyboard. -/
theorem usb_mode_wraps :
    (argsToConfig (env 3 0 0) 10 (start ["ykpersonalize", "-m101"])).1 = .ok ⟨⟩ ∧
      (argsToConfig (env 3 0 0) 10 (start ["ykpersonalize", "-m101"])).2.usbMode = 1 ∧
      scans 10 (start ["ykpersonalize", "-m101"]).getopt = [.arg 'm' "101".toList] ∧
      ¬ ModesTaken (env 3 0 0) (scans 10 (start ["ykpersonalize", "-m101"]).getopt)
        (argsToConfig (env 3 0 0) 10 (start ["ykpersonalize", "-m101"])).2 := by
  have hmode : (argsToConfig (env 3 0 0) 10 (start ["ykpersonalize", "-m101"])).2.usbMode = 1 := by
    decide +kernel
  have hscan : scans 10 (start ["ykpersonalize", "-m101"]).getopt = [.arg 'm' "101".toList] := by
    decide +kernel
  refine ⟨by decide +kernel, hmode, hscan, fun h => ?_⟩
  let v : UsbModeArg :=
    ⟨⟨.none, false, "101".toList, nofun, by decide, List.all_eq_true.1 (by decide)⟩, none⟩
  have hlast : lastOf modeOptionArg (scans 10 (start ["ykpersonalize", "-m101"]).getopt)
      = some v.text := by
    rw [hscan]
    rfl
  have htaken := (h.kept v hlast).mode
  rw [hmode] at htaken
  exact absurd htaken (by decide)

end Runs

end YkPers
