import YkPers.Lib.Decimal
import YkPers.Proofs.LegacyExport
import YkPers.Proofs.OathId
import YkPers.Proofs.Response

/-!
# The token identifier of a serial number

Where the option gives no identifier, the serial number of the key becomes one: two decimal digits
in each byte, so that the hexadecimal text of the bytes is the number (`setOathId_serial`).
-/

namespace YkPers

open Hex (Alphabet nibbles)

/-! ## The bytes -/

theorem eightDigits_eq {n : ℕ} (h : n ≤ 99999999) :
    eightDigits n = List.leftpad 8 '0' (Nat.toDigits 10 n) :=
  Decimal.lastDigits_eq_leftpad (by decide) (Nat.lt_succ_of_le h)

/-- One step of the packing: nothing is carried from the low digit into the high one. -/
theorem toNat_packed {a b : Char} (ha : a.isDigit) (hb : b.isDigit) :
    ((UInt8.ofNat a.toNat - 48) * 0x10 + UInt8.ofNat b.toNat - 48).toNat
      = 16 * (a.toNat - 48) + (b.toNat - 48) := by
  have h1 := Decimal.isDigit_iff.1 ha
  have h2 := Decimal.isDigit_iff.1 hb
  simp only [UInt8.toNat_sub, UInt8.toNat_add, UInt8.toNat_mul, UInt8.toNat_ofNat',
    UInt8.reduceToNat]
  omega

theorem formatDecimalAsHex_digits : ∀ {src : List Char} {room k : ℕ}, src.length = 2 * k →
    k ≤ room → (∀ c ∈ src, c.isDigit) → ∃ bytes, formatDecimalAsHex room src = some bytes ∧
      bytes.length = k ∧ nibbles bytes = src.map fun c => c.toNat - 48
  | [], _, k, hlen, _, _ => ⟨[], rfl, by simp only [List.length_nil] at hlen ⊢; omega, rfl⟩
  | [_], _, k, hlen, _, _ => by
    rw [List.length_singleton] at hlen
    omega
  | a :: b :: src, room, k, hlen, hroom, h => by
    simp only [List.length_cons] at hlen
    obtain ⟨bytes, hrun, hbytes, hnibbles⟩ := formatDecimalAsHex_digits
      (show src.length = 2 * (k - 1) by omega) (show k - 1 ≤ room - 1 by omega)
      fun c hc => h c (List.mem_cons_of_mem _ (List.mem_cons_of_mem _ hc))
    have ha := h a List.mem_cons_self
    have hb := h b (List.mem_cons_of_mem _ List.mem_cons_self)
    have hlow := Decimal.isDigit_iff.1 hb
    refine ⟨((UInt8.ofNat a.toNat - 48) * 0x10 + UInt8.ofNat b.toNat - 48) :: bytes, ?_, ?_, ?_⟩
    · rw [formatDecimalAsHex, if_neg (by omega), hrun]
      rfl
    · rw [List.length_cons, hbytes]
      omega
    · rw [nibbles, List.flatMap_cons, toNat_packed ha hb, List.map_cons, List.map_cons,
        ← hnibbles]
      have hdiv : (16 * (a.toNat - 48) + (b.toNat - 48)) / 16 = a.toNat - 48 := by omega
      have hmod : (16 * (a.toNat - 48) + (b.toNat - 48)) % 16 = b.toNat - 48 := by omega
      rw [hdiv, hmod]
      rfl

/-- The identifier of a serial number: the vendor, the type, and a byte for two of the digits. -/
theorem formatOathId_digits {serial : UInt32} (h : serial.toNat ≤ 99999999) : ∃ bytes,
    formatOathId 12 yubicoOathVendorIdHex yubicoHotpEventTokenType serial
        = some ([0xe1, 0x63] ++ bytes ++ List.replicate 6 0) ∧ bytes.length = 4 ∧
      nibbles bytes
        = (List.leftpad 8 '0' (Nat.toDigits 10 serial.toNat)).map fun c => c.toNat - 48 := by
  obtain ⟨hlen, hdigit, -⟩ := Decimal.leftpad_digits (n := 8) (by decide) (Nat.lt_succ_of_le h)
  obtain ⟨bytes, hrun, hbytes, hnibbles⟩ := formatDecimalAsHex_digits (k := 4) hlen
    (show 4 ≤ 10 by decide) hdigit
  refine ⟨bytes, ?_, hbytes, hnibbles⟩
  rw [formatOathId, if_neg (Nat.not_lt.2 h), if_neg (by decide), eightDigits_eq h, hrun,
    Option.map_some, Buffer.store_zero, List.drop_replicate]
  simp [hbytes, yubicoOathVendorIdHex, yubicoHotpEventTokenType]

/-! ## The run -/

section Run

variable {σ : Type} {E : ArgsEnv} {H : Host σ} {s : Session σ} {serial : UInt32} {w : World σ}

theorem setSerialId_run (hst : hasSerial E.st = true)
    (hser : ykGetSerial H 0 0 s.world = (.ok serial, w)) (h : serial.toNat ≤ 99999999) :
    ∃ bytes s', setSerialId E H s = (.ok ⟨⟩, s') ∧ bytes.length = 4 ∧
      nibbles bytes
        = (List.leftpad 8 '0' (Nat.toDigits 10 serial.toNat)).map (fun c => c.toNat - 48) ∧
      s'.args.ykp.cfg = { s.args.ykp.cfg with
        ykcoreConfig.fixed := charfield _ ([0xe1, 0x63] ++ bytes)
        ykcoreConfig.fixedSize := 6 } := by
  obtain ⟨bytes, hid, hlen, hnibbles⟩ := formatOathId_digits h
  have htake : ([0xe1, 0x63] ++ bytes ++ List.replicate 6 0).take 6 = [0xe1, 0x63] ++ bytes :=
    List.take_left' (by rw [List.length_append, hlen]; rfl)
  have honKey : onKey (ykGetSerial H 0 0) s = (.ok serial, { s with world := w }) := by
    rw [onKey, Proc.zoom_run, hser]
  have hsize : UInt8.ofNat (min ([0xe1, 0x63] ++ bytes).length maxFixedSize) = 6 := by
    rw [List.length_append, hlen]
    rfl
  unfold setSerialId
  rw [if_neg (by simp [hst]), Proc.bind_ok (Proc.attempt_ok honKey)]
  simp only [hid, htake]
  refine ⟨bytes, _, rfl, hlen, hnibbles, ?_⟩
  rw [← hsize]
  rfl

theorem setSerialId_fails (hst : hasSerial E.st = true)
    (hser : ykGetSerial H 0 0 s.world = (.ok serial, w)) (h : 99999999 < serial.toNat) :
    (setSerialId E H s).1 = .fail := by
  have honKey : onKey (ykGetSerial H 0 0) s = (.ok serial, { s with world := w }) := by
    rw [onKey, Proc.zoom_run, hser]
  have hid : formatOathId 12 yubicoOathVendorIdHex yubicoHotpEventTokenType serial = none :=
    if_pos h
  unfold setSerialId
  rw [if_neg (by simp [hst]), Proc.bind_ok (Proc.attempt_ok honKey)]
  simp only [hid, failWithText_fst]

/-- A configuration for a key of firmware 2.2 or later. -/
theorem capable_of_version (hst : hasSerial E.st = true) (hver : s.args.ykp.cfg.version
      = (E.st.versionMajor, E.st.versionMinor, E.st.versionBuild)) :
    capabilityHasOath s.args.ykp.cfg = true ∧ capabilityHasSerialApi s.args.ykp.cfg = true := by
  obtain ⟨hmajor, hminor, -⟩ : _ ∧ _ ∧ _ := by simpa [YkpConfig.version] using hver
  have hv : vcheckV22OrGreater s.args.ykp.cfg = true := by
    simp only [hasSerial, Bool.or_eq_true, Bool.and_eq_true, decide_eq_true_iff] at hst
    simp only [vcheckV22OrGreater, vcheckV2OrGreater, hmajor, hminor, Bool.or_eq_true,
      Bool.and_eq_true, decide_eq_true_iff]
    exact hst.symm
  have hv21 : vcheckV21OrGreater s.args.ykp.cfg = true := by
    simp only [vcheckV22OrGreater, vcheckV2OrGreater, Bool.or_eq_true, Bool.and_eq_true,
      decide_eq_true_iff] at hv
    simp only [vcheckV21OrGreater, Bool.or_eq_true, Bool.and_eq_true, decide_eq_true_iff]
    rcases hv with ⟨h2, hm⟩ | h3
    · exact .inl (.inl ⟨h2, UInt8.lt_of_lt_of_le (by decide) hm⟩)
    · exact .inr h3
  simp [capabilityHasOath, capabilityHasSerialApi, hv, hv21]

theorem setOathId_noValue {opt : List Char} (hopt : opt.length ≤ 7) (hst : hasSerial E.st = true)
    (hver : s.args.ykp.cfg.version
      = (E.st.versionMajor, E.st.versionMinor, E.st.versionBuild))
    (hhotp : ykpGetTktflagOathHotp s.args.ykp.cfg = true) :
    setOathId E H opt s = setSerialId E H
      ((s.withFlag .cfg cfgflagOathFixedModhex2).withFlag .ext extflagSerialApiVisible) := by
  obtain ⟨hoath, hapi⟩ := capable_of_version hst hver
  have hversion : capabilityHasSerialApi (s.withFlag .cfg cfgflagOathFixedModhex2).args.ykp.cfg
      = true := hapi
  unfold setOathId ykpSetCfgflagOathFixedModhex2 ykpSetExtflagSerialApiVisible
  rw [Proc.get_bind_run, if_pos hhotp, Proc.bind_ok (setFlag_ok s _ _ hoath),
    Proc.bind_ok (setFlag_ok _ _ _ hversion), if_neg (Nat.not_lt.2 hopt)]

end Run

/-! ## What is stored, and what is shown -/

/-- The eight decimal digits, with zeros in front. -/
def serialDigits (serial : UInt32) : List Char :=
  List.leftpad 8 '0' (Nat.toDigits 10 serial.toNat)

/-- The fixed part is the vendor, the type and the digits of the number, two in a byte. -/
structure SpellsSerial (serial : UInt32) (c : YkConfig) : Prop where
  fixedSize : c.fixedSize = 6
  fixed : ∃ bytes, c.fixed.toList = [0xe1, 0x63] ++ bytes ++ List.replicate 10 0 ∧
    bytes.length = 4 ∧ nibbles bytes = (serialDigits serial).map fun c => c.toNat - 48

/-- The text of the export begins with the identifier. -/
def ShowsSerial (Y : Encoders) (serial : UInt32) (cfg : YkpConfig) : Prop :=
  ∀ (S : Type) (t : S) (buf : List Char) (len : ℕ), 1024 ≤ len → len ≤ buf.length →
    ∃ out n rest, ykpLegacyExportConfig Y cfg buf len t = (.ok (out, n), t) ∧
      CString.read out = some ("OATH id: ubhe".toList ++ serialDigits serial ++ '\n' :: rest)

section Shown

variable {serial : UInt32} {cfg : YkpConfig} {Y : Encoders}

theorem encode_of_nibbles {bytes : List UInt8} {digits : List Char} (h : ∀ c ∈ digits, c.isDigit)
    (hn : nibbles bytes = digits.map fun c => c.toNat - 48) :
    Alphabet.hex.encode bytes = digits := by
  rw [Alphabet.encode_eq_map, hn, List.map_map]
  refine (List.map_congr_left fun c hc => ?_).trans (List.map_id digits)
  have hlt := Decimal.isDigit_iff.1 (h c hc)
  rw [Function.comp, ← Hex.digitChar_eq_digit (by omega), Decimal.digitChar_sub (h c hc)]
  rfl

/-- Only with both flags are the digits written in the other alphabet. -/
theorem modhex_of_flags {x : UInt8}
    (hx : x &&& cfgflagOathFixedModhex1 ≠ cfgflagOathFixedModhex1) :
    (x ||| cfgflagOathFixedModhex2) &&& cfgflagOathFixedModhex ≠ cfgflagOathFixedModhex := by
  intro h
  have hbit : bit x 4 := by
    have hor := and_eq_iff.1 h 4 (by decide)
    exact ((bit_or x cfgflagOathFixedModhex2 4).1 hor).resolve_right (by decide)
  refine hx ((and_eq_iff_bits cfgflagOathFixedModhex1 [4] (by decide) x).2 ?_)
  simpa using hbit

theorem legacyOathId_serial (hY : Y.Documented) {c : YkConfig} (hserial : serial.toNat ≤ 99999999)
    (hc : SpellsSerial serial c)
    (h2 : c.cfgFlags &&& cfgflagOathFixedModhex2 = cfgflagOathFixedModhex2)
    (hboth : c.cfgFlags &&& cfgflagOathFixedModhex ≠ cfgflagOathFixedModhex) :
    legacyOathId Y c = "ubhe".toList ++ serialDigits serial := by
  obtain ⟨bytes, hfixed, hlen, hnibbles⟩ := hc.fixed
  obtain ⟨hdigits, hdigit, -⟩ :=
    Decimal.leftpad_digits (n := 8) (by decide) (Nat.lt_succ_of_le hserial)
  have hmui : (c.fixed.toList.drop 2).take 8 = bytes ++ List.replicate 4 0 := by
    have hpair : ([0xe1, 0x63] : List UInt8).length = 2 := rfl
    rw [hfixed, List.append_assoc, List.drop_left' hpair, List.take_append, hlen,
      List.take_of_length_le (by omega), List.take_replicate]
    rfl
  have hdone : ("ubhe".toList ++ Alphabet.hex.encode bytes).length = 12 := by
    rw [List.length_append, Alphabet.length_encode, hlen]
    rfl
  rw [← encode_of_nibbles (show ∀ c ∈ serialDigits serial, c.isDigit from hdigit) hnibbles]
  simp only [legacyOathId, hmui, encodeIn_eq hY, h2, decide_true, Bool.or_true, Bool.true_or,
    if_true, decide_false, hboth, Bool.false_eq_true, if_false, Alphabet.encode_append]
  rw [hfixed, ← List.append_assoc]
  exact List.take_left' hdone

theorem showsSerial_of_spells (hY : Y.Documented) (hserial : serial.toNat ≤ 99999999)
    (hc : SpellsSerial serial cfg.ykcoreConfig)
    (htkt : cfg.ykcoreConfig.tktFlags &&& tktflagOathHotp = tktflagOathHotp)
    (h2 : cfg.ykcoreConfig.cfgFlags &&& cfgflagOathFixedModhex2 = cfgflagOathFixedModhex2)
    (hboth : cfg.ykcoreConfig.cfgFlags &&& cfgflagOathFixedModhex ≠ cfgflagOathFixedModhex) :
    ShowsSerial Y serial cfg := by
  have hshown : oathIdShown cfg.ykcoreConfig = true := by
    simp [oathIdShown, htkt, hc.fixedSize]
  intro S t buf len hlen hbuf
  obtain ⟨out, hrun, hread⟩ := ykpLegacyExportConfig_fits hY (.inl hshown) hbuf
    (Nat.lt_of_lt_of_le (length_legacyLines_lt hY (.inl hshown)) hlen) t
  refine ⟨out, _, (legacyLines Y cfg).tail.flatten, hrun, hread.trans (congrArg some ?_)⟩
  have hfirst : legacyFixed Y cfg.ykcoreConfig
      = "OATH id: ubhe".toList ++ serialDigits serial ++ ['\n'] := by
    rw [legacyFixed, if_pos hshown, legacyLine, legacyOathId_serial hY hserial hc h2 hboth]
    rfl
  calc (legacyLines Y cfg).flatten
      = legacyFixed Y cfg.ykcoreConfig ++ (legacyLines Y cfg).tail.flatten := rfl
    _ = _ := by rw [hfirst, List.append_assoc]; rfl

end Shown

/-- The identifier of a key can be made exactly from a serial number of eight digits. It spells the
number, and the export shows it unless the digits are written in the other alphabet. -/
theorem setOathId_serial {σ : Type} {E : ArgsEnv} {H : Host σ} {Y : Encoders} {s : Session σ}
    {opt : List Char} {serial : UInt32} {w : World σ} (hY : Y.Documented) (hopt : opt.length ≤ 7)
    (hst : hasSerial E.st = true)
    (hver : s.args.ykp.cfg.version = (E.st.versionMajor, E.st.versionMinor, E.st.versionBuild))
    (hhotp : ykpGetTktflagOathHotp s.args.ykp.cfg = true)
    (hser : ykGetSerial H 0 0 s.world = (.ok serial, w)) :
    (setOathId E H opt s).1 = (if serial.toNat ≤ 99999999 then .ok ⟨⟩ else .fail) ∧
      (serial.toNat ≤ 99999999 →
        SpellsSerial serial (setOathId E H opt s).2.args.ykp.cfg.ykcoreConfig ∧
        (s.args.ykp.cfg.ykcoreConfig.cfgFlags &&& cfgflagOathFixedModhex1
            ≠ cfgflagOathFixedModhex1 →
          ShowsSerial Y serial (setOathId E H opt s).2.args.ykp.cfg)) := by
  rw [setOathId_noValue hopt hst hver hhotp]
  by_cases h : serial.toNat ≤ 99999999
  · obtain ⟨bytes, s', hrun, hlen, hnibbles, hcfg⟩ := setSerialId_run (E := E) (H := H)
      (s := (s.withFlag .cfg cfgflagOathFixedModhex2).withFlag .ext extflagSerialApiVisible)
      hst hser h
    have hspells : SpellsSerial serial s'.args.ykp.cfg.ykcoreConfig := by
      refine ⟨by rw [hcfg], bytes, ?_, hlen, hnibbles⟩
      have hsix : ([0xe1, 0x63] ++ bytes).length = 6 := by
        rw [List.length_append, hlen]
        rfl
      rw [hcfg]
      show (charfield _ _).toList = _
      rw [toList_charfield_of_le (by rw [hsix]; decide), hsix]
      rfl
    rw [hrun, if_pos h]
    refine ⟨rfl, fun _ => ⟨hspells, fun h1 => ?_⟩⟩
    refine showsSerial_of_spells hY h hspells ?_ ?_ ?_
    · rw [hcfg]
      exact of_decide_eq_true hhotp
    · rw [hcfg]
      refine and_eq_iff.2 fun i hi => ?_
      exact (bit_or _ _ i).2 (.inr hi)
    · rw [hcfg]
      exact modhex_of_flags h1
  · rw [if_neg h]
    exact ⟨setSerialId_fails hst hser (Nat.not_le.1 h), fun hle => absurd hle h⟩

section Runs

open ScriptedHost (env)
open ScriptedKey (host session statusReport)
open ScriptedJson (libyubikey)

/-- A key that tells the serial number 12345678, and a one-time password for it. -/
def serialSession : Session ScriptedKey where
  args := { ArgsState.fresh [] [] [] [] with ykp.cfg := oathConfig [] }
  world := session ([statusReport 0, statusReport 0] ++ responseReports [0x00, 0xbc, 0x61, 0x4e] ++
    [statusReport 0x40])

theorem setOathId_serial_eight :
    let run := setOathId (env 2 4 0) (host .little crc16) "oath-id".toList serialSession
    run.1 = (if (12345678 : UInt32).toNat ≤ 99999999 then .ok ⟨⟩ else .fail) ∧
      ((12345678 : UInt32).toNat ≤ 99999999 →
        SpellsSerial 12345678 run.2.args.ykp.cfg.ykcoreConfig ∧
        (serialSession.args.ykp.cfg.ykcoreConfig.cfgFlags &&& cfgflagOathFixedModhex1
            ≠ cfgflagOathFixedModhex1 → ShowsSerial libyubikey 12345678 run.2.args.ykp.cfg)) :=
  setOathId_serial documented_libyubikey (by decide) (by decide) (by decide) (by decide)
    (Proc.run_eq (by decide +kernel))

end Runs

end YkPers
