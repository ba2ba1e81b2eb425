import YkPers.OathId

/-!
# When the token identifier is set

`setOathId` succeeds on a one-time password of a firmware that has the flags of an identifier, with
an identifier that decodes or, where none is given, with a serial number of eight digits
(`setOathId_ok_iff`). What is decoded becomes the fixed part (`setOathId_supplied`).
-/

namespace YkPers

open Proc (attempt)

section Parts

variable {σ : Type} (E : ArgsEnv) (H : Host σ) (s : Session σ)

def Session.withFlag (field : FlagField) (flag : UInt8) : Session σ :=
  { s with
    args.ykp.cfg.ykcoreConfig := s.args.ykp.cfg.ykcoreConfig.setFlags field
      (s.args.ykp.cfg.ykcoreConfig.flags field ||| flag) }

theorem setFlag_ok (field : FlagField) (flag : UInt8) {capability : YkpConfig → Bool}
    (hcap : capability s.args.ykp.cfg = true) :
    onArgs (onYkp (ykpSetFlag field flag capability true)) s
      = (.ok ⟨⟩, s.withFlag field flag) := by
  simp [onArgs, onYkp, ykpSetFlag, hcap, ykpStore, Session.withFlag]

theorem setFlag_fail (field : FlagField) (flag : UInt8) {capability : YkpConfig → Bool}
    (hcap : capability s.args.ykp.cfg = false) :
    (onArgs (onYkp (ykpSetFlag field flag capability true)) s).1 = .fail := by
  simp [onArgs, onYkp, ykpSetFlag, hcap, ykpError]

theorem failWithText_fst {α : Type} (msg : String) :
    (failWithText msg s : Ret α × Session σ).1 = .fail := rfl

theorem setFixed_fst (token : List Char) (a : ArgsState) : (setFixed E token a).1
    = if (hexModhexDecode E token 0 32 true).rc ≤ 0 then .fail else .ok ⟨⟩ := by
  have hnote : ∃ t, noteDecode 256 (hexModhexDecode E token 0 32 true) a = (.ok ⟨⟩, t) := by
    unfold noteDecode
    split_ifs
    · exact ⟨_, rfl⟩
    · exact ⟨_, rfl⟩
  obtain ⟨t, ht⟩ := hnote
  show (((noteDecode 256 _) >>= fun _ => _ : Proc ArgsState Unit) a).1 = _
  rw [Proc.bind_ok ht]
  split_ifs <;> rfl

/-- The fixed part is what the identifier decodes to. -/
theorem setFixed_stores {token : List Char} {a a' : ArgsState}
    (h : setFixed E token a = (.ok ⟨⟩, a')) :
    let d := hexModhexDecode E token 0 32 true
    0 < d.rc ∧ a'.ykp.cfg.ykcoreConfig.fixed = charfield _ (d.stored.take (d.resultlen.getD 0)) ∧
      a'.ykp.cfg.ykcoreConfig.fixedSize
        = UInt8.ofNat (min (d.stored.take (d.resultlen.getD 0)).length maxFixedSize) := by
  intro d
  obtain ⟨_, t, -, h⟩ := Proc.bind_eq_ok.1 h
  by_cases hrc : d.rc ≤ 0
  · rw [if_pos hrc] at h
    cases (Prod.mk.inj h).1
  · rw [if_neg hrc] at h
    obtain rfl := (Prod.mk.inj h).2
    exact ⟨Int.not_le.1 hrc, rfl, rfl⟩

theorem setSuppliedId_ok_iff (token : List Char) : (setSuppliedId E token s).1 = .ok ⟨⟩ ↔
    0 < (hexModhexDecode E token 0 32 true).rc := by
  have hfixed := setFixed_fst E token s.args
  unfold setSuppliedId
  by_cases h : (hexModhexDecode E token 0 32 true).rc ≤ 0
  · rw [if_pos h] at hfixed
    have hrun : onArgs (setFixed E token) s = (.fail, (onArgs (setFixed E token) s).2) :=
      Proc.run_eq hfixed
    rw [Proc.bind_ok (Proc.attempt_fail hrun), failWithText_fst]
    simpa using h
  · rw [if_neg h] at hfixed
    have hrun : onArgs (setFixed E token) s = (.ok ⟨⟩, (onArgs (setFixed E token) s).2) :=
      Proc.run_eq hfixed
    rw [Proc.bind_ok (Proc.attempt_ok hrun)]
    simpa using h

theorem formatDecimalAsHex_isSome : ∀ (room : ℕ) (src : List Char), src.length ≤ 2 * room →
    (formatDecimalAsHex room src).isSome = true
  | _, [], _ => rfl
  | _, [_], _ => rfl
  | room, _ :: _ :: src, h => by
    rw [List.length_cons, List.length_cons] at h
    rw [formatDecimalAsHex, if_neg (by omega), Option.isSome_map]
    exact formatDecimalAsHex_isSome (room - 1) src (by omega)

theorem formatOathId_isSome_iff (vendor type : UInt8) (mui : UInt32) :
    (formatOathId 12 vendor type mui).isSome = true ↔ mui.toNat ≤ 99999999 := by
  unfold formatOathId
  by_cases h : mui.toNat > 99999999
  · rw [if_pos h]
    exact iff_of_false Bool.false_ne_true (by omega)
  · rw [if_neg h, if_neg (by decide), Option.isSome_map]
    refine iff_of_true (formatDecimalAsHex_isSome _ _ ?_) (by omega)
    simp [eightDigits]

theorem setSerialId_ok_iff : (setSerialId E H s).1 = .ok ⟨⟩ ↔ hasSerial E.st = true ∧
    ∃ serial w, ykGetSerial H 0 0 s.world = (.ok serial, w) ∧ serial.toNat ≤ 99999999 := by
  unfold setSerialId
  rcases hst : hasSerial E.st with _ | _
  · rw [if_pos (by rfl), failWithText_fst]
    simp
  rw [if_neg (by decide)]
  have honKey : onKey (ykGetSerial H 0 0) s = ((ykGetSerial H 0 0 s.world).1,
      { s with world := (ykGetSerial H 0 0 s.world).2 }) := rfl
  rcases hser : ykGetSerial H 0 0 s.world with ⟨serial | _ | _ | _, w⟩ <;> rw [hser] at honKey
  · rw [Proc.bind_ok (Proc.attempt_ok honKey)]
    have hiff := formatOathId_isSome_iff yubicoOathVendorIdHex yubicoHotpEventTokenType serial
    rcases hid : formatOathId 12 yubicoOathVendorIdHex yubicoHotpEventTokenType serial
      with _ | oathId <;> rw [hid] at hiff
    · refine iff_of_false (by simp [hid, failWithText_fst]) ?_
      rintro ⟨-, serial', w', hrun, hle⟩
      obtain rfl := Ret.ok.inj (Prod.mk.inj hrun).1
      exact Bool.false_ne_true (hiff.2 hle)
    · refine iff_of_true ?_ ⟨rfl, serial, w, rfl, hiff.1 rfl⟩
      simp only [hid]
      rfl
  · rw [Proc.bind_ok (Proc.attempt_fail honKey), failWithText_fst]
    simp
  · rw [Proc.bind_fault (Proc.attempt_fault honKey)]
    simp
  · rw [Proc.bind_diverge (Proc.attempt_diverge honKey)]
    simp

/-- The identifier that is asked for can be set. -/
def OathIdAccepted : Prop :=
  ykpGetTktflagOathHotp s.args.ykp.cfg = true ∧ capabilityHasOath s.args.ykp.cfg = true ∧
    capabilityHasSerialApi s.args.ykp.cfg = true ∧
    if 7 < s.args.oathid.length then 0 < (hexModhexDecode E (s.args.oathid.drop 8) 0 32 true).rc
    else hasSerial E.st = true ∧
      ∃ serial w, ykGetSerial H 0 0 s.world = (.ok serial, w) ∧ serial.toNat ≤ 99999999

theorem setOathId_ok_iff : (setOathId E H s.args.oathid s).1 = .ok ⟨⟩ ↔ OathIdAccepted E H s := by
  unfold setOathId OathIdAccepted ykpSetCfgflagOathFixedModhex2 ykpSetExtflagSerialApiVisible
  rw [Proc.get_bind_run]
  rcases hotp : ykpGetTktflagOathHotp s.args.ykp.cfg with _ | _
  · rw [if_neg Bool.false_ne_true, failWithText_fst]
    simp
  rw [if_pos rfl]
  rcases hoath : capabilityHasOath s.args.ykp.cfg with _ | _
  · rw [Proc.bind_fail (Proc.run_eq (setFlag_fail s _ _ hoath))]
    simp
  rw [Proc.bind_ok (setFlag_ok s _ _ hoath)]
  -- the version is as before
  have hversion : capabilityHasSerialApi (s.withFlag .cfg cfgflagOathFixedModhex2).args.ykp.cfg
      = capabilityHasSerialApi s.args.ykp.cfg := rfl
  rcases hapi : capabilityHasSerialApi s.args.ykp.cfg with _ | _ <;> rw [hapi] at hversion
  · rw [Proc.bind_fail (Proc.run_eq (setFlag_fail _ _ _ hversion))]
    simp
  rw [Proc.bind_ok (setFlag_ok _ _ _ hversion)]
  simp only [true_and]
  split_ifs
  · exact setSuppliedId_ok_iff E _ _
  · exact setSerialId_ok_iff E H _

theorem setOathId_supplied {opt : List Char} {s' : Session σ} (hopt : 7 < opt.length)
    (h : setOathId E H opt s = (.ok ⟨⟩, s')) :
    let d := hexModhexDecode E (opt.drop 8) 0 32 true
    0 < d.rc ∧
      s'.args.ykp.cfg.ykcoreConfig.fixed
        = charfield _ (d.stored.take (d.resultlen.getD 0)) ∧
      s'.args.ykp.cfg.ykcoreConfig.fixedSize
        = UInt8.ofNat (min (d.stored.take (d.resultlen.getD 0)).length maxFixedSize) := by
  intro d
  rw [setOathId, Proc.get_bind_run] at h
  split_ifs at h
  · obtain ⟨_, t, -, h⟩ := Proc.bind_eq_ok.1 h
    obtain ⟨_, u, -, h⟩ := Proc.bind_eq_ok.1 h
    obtain ⟨r, v, hv, h⟩ := Proc.bind_eq_ok.1 h
    rcases r with _ | _
    · cases (Prod.mk.inj h).1
    obtain rfl := (Prod.mk.inj h).2
    have hrun := Proc.of_attempt_ok hv
    obtain ⟨h1, rfl⟩ := Prod.mk.inj hrun
    exact setFixed_stores E (Proc.run_eq h1)
  · cases (Prod.mk.inj h).1

end Parts

end YkPers
