import YkPers.Proofs.Refusals
import YkPers.Proofs.Ykpersonalize

/-!
# What the decoders are passed

The size that a decoder is passed is the length of the string, twice that of what it stores. A
scan map of 90 characters goes into a buffer of 46 bytes, and a key of 32 or 40 into one of 20. All
other strings are no longer than their buffers, so that the decodes of a run fit exactly where
neither of the two is decoded (`decodes_fit_iff`).
-/

namespace YkPers

open Proc (Moves)

theorem length_storeFront (buf xs : List UInt8) : (storeFront buf xs).length = buf.length := by
  simp only [storeFront, Buffer.store, List.take_zero, List.nil_append, List.length_take,
    List.length_append, List.length_drop]
  omega

section Handle

variable (E : ArgsEnv) (optarg : List Char)

theorem configureCommand_tidy (command : UInt8) :
    Moves Tidy (onYkp (ykpConfigureCommand command)) :=
  fun _ => SameLogs.tidy ⟨rfl, rfl, rfl, rfl, rfl⟩

theorem tidy_bind {α β : Type} {x : Proc ArgsState α} {f : α → Proc ArgsState β}
    (hx : Moves Tidy x) (hf : ∀ a, Moves Tidy (f a)) : Moves Tidy (x >>= f) :=
  .bind (fun _ _ _ h k => h.trans k) hx hf

theorem tidy_modify {f : ArgsState → ArgsState} (hf : ∀ s, SameLogs s (f s)) :
    Moves Tidy (Proc.modify f) := fun s => (hf s).tidy

theorem rejectIf_tidy (c : Bool) (msg : String) : Moves Tidy (rejectIf c msg) :=
  (Neat.rejectIf c msg).tidy

theorem slotCommand_neat (second : Bool) : Neat (slotCommand second) := by
  have hset : ∀ {f : Bool → Proc YkpState Unit}, IsSetter f → Neat (discarding (f true)) :=
    fun hf => .discarding (setter_returns hf true)
  refine .get_bind fun _ => .ite ?_ (.ite ?_ (.pure _))
  · exact (hset (isSetter_get .ext 5 rfl)).bind fun _ => .pure _
  · refine (hset (isSetter_get .cfg 13 rfl)).bind fun _ => ?_
    refine (hset (isSetter_get .cfg 15 rfl)).bind fun _ => ?_
    refine (hset (isSetter_get .cfg 16 rfl)).bind fun _ => ?_
    exact (hset (isSetter_get .cfg 17 rfl)).bind fun _ => .pure _

theorem caseSlot_tidy (second : Bool) : Moves Tidy (caseSlot second) := by
  have happend : Neat (discarding (ykpSetTktflagAppendCr true)) :=
    .discarding (setter_returns (isSetter_get .tkt 5 rfl) true)
  exact .get_bind fun _ => tidy_bind (rejectIf_tidy _ _) fun _ => tidy_bind (rejectIf_tidy _ _)
    fun _ => tidy_bind (rejectIf_tidy _ _) fun _ => tidy_bind happend.tidy fun _ =>
      tidy_bind (slotCommand_neat second).tidy fun _ => tidy_bind (configureCommand_tidy _)
        fun _ => tidy_modify fun _ => ⟨rfl, rfl, rfl, rfl, rfl⟩

theorem caseX_tidy : Moves Tidy caseX :=
  .get_bind fun _ => tidy_bind (rejectIf_tidy _ _) fun _ => tidy_bind (configureCommand_tidy _)
    fun _ => tidy_modify fun _ => ⟨rfl, rfl, rfl, rfl, rfl⟩

theorem caseN_tidy : Moves Tidy (caseN E optarg) :=
  tidy_bind (tidy_modify fun _ => ⟨rfl, rfl, rfl, rfl, rfl⟩) fun _ => .get_bind fun _ =>
    tidy_bind (rejectIf_tidy _ _) fun _ => tidy_bind (configureCommand_tidy _) fun _ =>
      tidy_bind (tidy_modify fun _ => ⟨rfl, rfl, rfl, rfl, rfl⟩) fun _ =>
        tidy_modify fun _ => ⟨rfl, rfl, rfl, rfl, rfl⟩

theorem caseM_tidy : Moves Tidy (caseM optarg) := by
  refine .get_bind fun _ => tidy_bind (rejectIf_tidy _ _) fun _ => ?_
  rcases scanUsbMode optarg with _ | v
  · exact (Neat.reject _).tidy
  · refine tidy_bind (tidy_modify fun s => ?_) fun _ => configureCommand_tidy _
    rcases v with ⟨m, _ | ⟨c, _ | a⟩⟩ <;> exact ⟨rfl, rfl, rfl, rfl, rfl⟩

theorem caseMissingS_tidy : Moves Tidy caseMissingS := by
  refine .get_bind fun _ => tidy_bind (rejectIf_tidy _ _) fun _ => ?_
  refine tidy_bind (fun s => ?_) fun _ => ?_
  · exact ⟨⟨Nat.le_refl _, length_storeFront _ _, rfl⟩,
      fun _ => ⟨[], (List.append_nil _).symm, by simp⟩⟩
  · exact tidy_bind (tidy_modify fun _ => ⟨rfl, rfl, rfl, rfl, rfl⟩) fun _ =>
      configureCommand_tidy _

theorem noteDecode_kept (capacity : ℕ) (d : Decoded) (s : ArgsState) :
    Kept s (noteDecode capacity d s).2 := by
  obtain ⟨l, hl⟩ := noteDecode_run capacity d s
  rw [hl]
  exact ⟨Nat.le_refl _, rfl, rfl⟩

theorem caseD_tidy : Moves Tidy (caseD E optarg) := by
  intro s
  rw [caseD, Proc.get_bind_run]
  refine Proc.bind_state (P := Tidy s) (fun _ t ht => ?_) fun _ => rejectIf_tidy _ _ s
  obtain rfl := (rejectIf_ok ht).2
  have hnote : Tidy t (noteDecode t.deviceInfo.length (hexModhexDecode E optarg 2 128 false) t).2 :=
    ⟨noteDecode_kept _ _ t, fun hsize =>
      ((Neat.noteDecode (stored_fits E (Nat.le_of_eq hsize.symm))).tidy t).decodes hsize⟩
  refine Proc.bind_state (P := Tidy t) (fun _ u hu => ?_) fun _ => hnote
  rw [hu] at hnote
  refine hnote.trans ?_
  refine tidy_bind (fun v => ?_) (fun _ => ?_) u
  · exact ⟨⟨Nat.le_refl _, rfl, length_storeFront _ _⟩,
      fun _ => ⟨[], (List.append_nil _).symm, by simp⟩⟩
  · exact tidy_bind (rejectIf_tidy _ _) fun _ => tidy_bind (configureCommand_tidy _) fun _ =>
      tidy_modify fun _ => ⟨rfl, rfl, rfl, rfl, rfl⟩

theorem kept_bind {α β : Type} {x : Proc ArgsState α} {f : α → Proc ArgsState β}
    (hx : Moves Kept x) (hf : ∀ a, Moves Kept (f a)) : Moves Kept (x >>= f) :=
  .bind (fun _ _ _ h k => h.trans k) hx hf

/-- The scan map is the one decoder that is passed more than its buffer has. -/
theorem caseS_kept : Moves Kept (caseS E optarg) :=
  .get_bind fun _ => kept_bind (fun t => (rejectIf_tidy _ _ t).toKept) fun _ =>
    kept_bind (noteDecode_kept _ _) fun _ =>
      kept_bind (fun _ => ⟨Nat.le_refl _, length_storeFront _ _, rfl⟩) fun _ =>
        kept_bind (fun t => (rejectIf_tidy _ _ t).toKept) fun _ =>
          kept_bind (fun _ => ⟨Nat.le_refl _, rfl, rfl⟩) fun _ t =>
            (configureCommand_tidy _ t).toKept

theorem caseT_tidy : Moves Tidy (caseT E optarg) :=
  tidy_bind (tidy_modify fun _ => ⟨rfl, rfl, rfl, rfl, rfl⟩) fun _ => caseN_tidy E optarg

end Handle

/-! ## The scan map -/

/-- A `-S` that is let through with a map that can be read. -/
structure ScansMap (E : ArgsEnv) (o : Getopt.Scanned) (s : ArgsState) : Prop where
  scanMap : optionKind o = .scanMap
  clear : ∀ m ∈ (optionKind o).guards, s.seen m = false
  readable : readable E o = true

section ScanMap

variable {E : ArgsEnv} {optarg : List Char} {s : ArgsState}

theorem scansMap_iff : ScansMap E (.arg 'S' optarg) s ↔
    (∀ m ∈ Kind.scanMap.guards, s.seen m = false) ∧
      0 < (hexModhexDecode E optarg (scanMap.length * 2) (scanMap.length * 2) false).rc :=
  ⟨fun h => ⟨h.clear, by simpa [YkPers.readable] using h.readable⟩,
    fun h => ⟨rfl, h.1, by simpa [YkPers.readable] using h.2⟩⟩

variable (E optarg) in
/-- What a `-S` adds to the decodes. -/
theorem caseS_decodes (s : ArgsState) : (caseS E optarg s).2.decodes = s.decodes ∧
      ¬ ScansMap E (.arg 'S' optarg) s ∨
    (caseS E optarg s).2.decodes = s.decodes ++ [(s.scanBin.length, scanMap.length * 2)] ∧
      ScansMap E (.arg 'S' optarg) s := by
  have hclear : (s.slotChosen || s.swapSeen || s.updateSeen || s.optionSeen || s.ndefSeen ||
      s.zap || s.usbModeSeen || s.deviceInfoSeen) = false
        ↔ ∀ m ∈ Kind.scanMap.guards, s.seen m = false := by
    simp [Kind.guards, ArgsState.seen, and_assoc]
  rw [scansMap_iff, ← hclear, caseS, Proc.get_bind_run]
  generalize hd : hexModhexDecode E optarg (scanMap.length * 2) (scanMap.length * 2) false = d
  cases hc : s.slotChosen || s.swapSeen || s.updateSeen || s.optionSeen || s.ndefSeen || s.zap ||
    s.usbModeSeen || s.deviceInfoSeen
  case true => exact .inl ⟨rfl, by simp⟩
  have hguard : ∀ msg, rejectIf false msg s = (.ok ⟨⟩, s) := fun _ => rfl
  rw [Proc.bind_ok (hguard _)]
  -- past the guard, only the decoder adds to the log
  have hrest : Moves (fun s s' : ArgsState => s'.decodes = s.decodes) (do
      Proc.modify fun s => { s with scanBin := storeFront s.scanBin d.stored }
      rejectIf (d.rc ≤ 0) ("Invalid scanmap string " ++ String.ofList optarg ++ "\n")
      Proc.modify fun s => { s with scanMapSeen := true }
      onYkp (ykpConfigureCommand slotScanMap)) := by
    refine .bind (fun _ _ _ h k => k.trans h) (fun _ => rfl) fun _ => ?_
    refine .bind (fun _ _ _ h k => k.trans h) (.ite (fun _ => rfl) fun _ => rfl) fun _ => ?_
    exact .bind (fun _ _ _ h k => k.trans h) (fun _ => rfl) fun _ _ => rfl
  by_cases hrc : d.rc = 1
  · have hlen : d.stored.length = scanMap.length * 2 := by
      have hpos : 0 < (hexModhexDecode E optarg (scanMap.length * 2) (scanMap.length * 2) false).rc
        := by rw [hd, hrc]; decide
      have h := decoded_of_rc E hpos
      rw [hd] at h
      omega
    refine .inr ⟨?_, rfl, by omega⟩
    have hnote : noteDecode s.scanBin.length d s = (.ok ⟨⟩,
        { s with decodes := s.decodes ++ [(s.scanBin.length, scanMap.length * 2)] }) := by
      rw [noteDecode, if_pos hrc, Proc.modify_run, hlen]
    rw [Proc.bind_ok hnote]
    exact hrest _
  · refine .inl ⟨?_, fun h => hrc ?_⟩
    · have hnote : noteDecode s.scanBin.length d s = (.ok ⟨⟩, s) := by
        rw [noteDecode, if_neg hrc, Proc.pure_run]
      rw [Proc.bind_ok hnote]
      exact hrest _
    · rw [← hd] at h ⊢
      exact (decoded_of_rc E h.2).1

theorem caseS_tidy (h : ¬ ScansMap E (.arg 'S' optarg) s) : Tidy s (caseS E optarg s).2 := by
  rcases caseS_decodes E optarg s with ⟨hd, -⟩ | ⟨-, hs⟩
  · exact ⟨caseS_kept E optarg s, fun _ => ⟨[], by rw [hd, List.append_nil], by simp⟩⟩
  · exact absurd hs h

theorem handle_tidy {o : Getopt.Scanned} (h : ¬ ScansMap E o s) : Tidy s (handle E o s).2 := by
  have hfield : ∀ {f : ArgsState → ArgsState}, (∀ s, SameLogs s (f s)) →
      Tidy s (Proc.modify f s).2 := fun hf => tidy_modify hf s
  revert h
  unfold handle
  split <;> intro h
  · exact Neat.caseU.tidy s
  · exact caseSlot_tidy _ s
  · exact caseSlot_tidy _ s
  · exact caseX_tidy s
  · exact Neat.caseZ.tidy s
  · exact hfield fun _ => ⟨rfl, rfl, rfl, rfl, rfl⟩
  · exact hfield fun _ => ⟨rfl, rfl, rfl, rfl, rfl⟩
  · exact (Neat.caseF _).tidy s
  · exact (Neat.caseA _).tidy s
  · exact (Neat.caseC _).tidy s
  · exact caseT_tidy E _ s
  · exact caseN_tidy E _ s
  · exact caseM_tidy _ s
  · exact caseS_tidy h
  · exact caseD_tidy E _ s
  · exact ((Neat.modeOption _).bind fun _ => .caseO E _).tidy s
  · exact hfield fun _ => ⟨rfl, rfl, rfl, rfl, rfl⟩
  · exact hfield fun _ => ⟨rfl, rfl, rfl, rfl, rfl⟩
  · exact hfield fun _ => ⟨rfl, rfl, rfl, rfl, rfl⟩
  · exact Tidy.refl s
  · exact Tidy.refl s
  · exact caseMissingS_tidy s
  · exact hfield fun _ => ⟨rfl, rfl, rfl, rfl, rfl⟩
  · exact Neat.promptAccessCode.tidy s
  · rw [caseHelp_run]
    exact ⟨⟨Nat.le_refl _, rfl, rfl⟩, fun _ => ⟨[], (List.append_nil _).symm, by simp⟩⟩

theorem ScansMap.eq_arg {o : Getopt.Scanned} (h : ScansMap E o s) :
    ∃ optarg, o = .arg 'S' optarg := by
  have hk := h.scanMap
  unfold optionKind at hk
  split at hk <;> first | exact ⟨_, rfl⟩ | cases hk

theorem handle_kept (o : Getopt.Scanned) (s : ArgsState) : Kept s (handle E o s).2 := by
  by_cases h : ScansMap E o s
  · obtain ⟨optarg, rfl⟩ := h.eq_arg
    exact caseS_kept E optarg s
  · exact (handle_tidy h).toKept

theorem handle_scans {o : Getopt.Scanned} (h : ScansMap E o s) :
    (s.scanBin.length, scanMap.length * 2) ∈ (handle E o s).2.decodes := by
  obtain ⟨optarg, rfl⟩ := h.eq_arg
  rcases caseS_decodes E optarg s with ⟨-, hs⟩ | ⟨hd, -⟩
  · exact absurd h hs
  · show _ ∈ (caseS E optarg s).2.decodes
    simp [hd]

end ScanMap

/-! ## The key -/

/-- A key that is given, or asked for, for the slot command of an accepted command line. -/
structure DecodesKey (E : ArgsEnv) (s : ArgsState) : Prop where
  action : (checkAction s).1 = .ok ⟨⟩
  update : (checkUpdate s).1 = .ok ⟨⟩
  command : s.zap = false ∧ (s.ykp.cfg.command = slotConfig ∨ s.ykp.cfg.command = slotConfig2)
  key : ∃ t, promptKey (ykpGetSupportedKeyLength s.ykp.cfg) s = (.ok ⟨⟩, t) ∧ t.keylocation ≠ 0 ∧
    0 < (hexModhexDecode E (t.aeshash.getD []) (ykpGetSupportedKeyLength s.ykp.cfg * 2)
      (ykpGetSupportedKeyLength s.ykp.cfg * 2) false).rc

section Key

variable {E : ArgsEnv} {s s' : ArgsState}

theorem checkAction_ok (h : checkAction s = (.ok ⟨⟩, s')) : s' = s := by
  rw [checkAction, Proc.get_bind_run] at h
  split_ifs at h
  · cases (Prod.mk.inj h).1
  · cases (Prod.mk.inj h).1
  · exact (Prod.mk.inj h).2.symm

theorem checkUpdate_state (h : checkUpdate s = (.ok ⟨⟩, s')) : s' = s := by
  rw [checkUpdate, Proc.get_bind_run] at h
  split_ifs at h
  · obtain ⟨-, h⟩ := rejectIf_bind_ok h
    obtain ⟨-, h⟩ := rejectIf_bind_ok h
    exact (rejectIf_ok h).2
  · exact (Prod.mk.inj h).2.symm

theorem readRandom_tidy (source : ℕ → List UInt8) (keyBytes : ℕ) : ∀ (fuel i : ℕ)
    (keybuf : List UInt8), Moves Tidy (readRandom source keyBytes fuel i keybuf)
  | 0, _, _ => .diverge Tidy.refl
  | fuel + 1, i, _ => .ite (readRandom_tidy source keyBytes fuel (i + 1) _) (.pure Tidy.refl _)

theorem randomKey_tidy (fuel keyBytes : ℕ) : Moves Tidy (randomKey E fuel keyBytes) := by
  unfold randomKey
  split
  · exact readRandom_tidy _ _ _ _ _
  · exact tidy_bind (tidy_modify fun _ => ⟨rfl, rfl, rfl, rfl, rfl⟩) fun _ =>
      tidy_bind Neat.exitOne.tidy fun _ => .pure Tidy.refl _

theorem decodeKey_tidy {n : ℕ}
    (h : ¬ 0 < (hexModhexDecode E (s.aeshash.getD []) (n * 2) (n * 2) false).rc) :
    Tidy s (decodeKey E n s).2 := by
  rw [decodeKey, Proc.get_bind_run]
  have hnote : Neat (noteDecode 20 (hexModhexDecode E (s.aeshash.getD []) (n * 2) (n * 2) false)) :=
    .noteDecode fun h1 => absurd (by rw [h1]; decide) h
  exact (hnote.bind fun _ => (Neat.rejectIf _ _).bind fun _ => .pure _).tidy s

/-- Where the key is not decoded, nothing else is behind the loop. -/
theorem behindLoop_tidy (h : ¬ DecodesKey E s) (fuel : ℕ) : Tidy s (behindLoop E fuel s).2 := by
  rw [behindLoop]
  refine Proc.bind_state (P := Tidy s) (fun _ t ht => ?_) fun _ => Neat.checkAction.tidy s
  obtain rfl := checkAction_ok ht
  refine Proc.bind_state (P := Tidy t) (fun _ u hu => ?_) fun _ => Neat.checkUpdate.tidy t
  obtain rfl := checkUpdate_state hu
  rw [keySection, Proc.get_bind_run]
  split_ifs with hc
  swap
  · exact Tidy.refl u
  refine Proc.bind_state (P := Tidy u) (fun _ v hv => ?_) fun _ => (Neat.promptKey _).tidy u
  refine ((Neat.promptKey _).tidy.of_eq_ok hv).trans ?_
  rw [Proc.get_bind_run]
  by_cases hloc : v.keylocation = 0
  · rw [if_pos hloc]
    exact tidy_bind (randomKey_tidy _ _) (fun _ => (Neat.keyFromRaw _ _).tidy) v
  rw [if_neg hloc]
  have hkey : Tidy v (decodeKey E (ykpGetSupportedKeyLength u.ykp.cfg) v).2 :=
    decodeKey_tidy fun hrc => h ⟨by rw [ht], by rw [hu], by simpa using hc, v, hv, hloc, hrc⟩
  refine Proc.bind_state (P := Tidy v) (fun _ w hw => ?_) fun _ => hkey
  rw [hw] at hkey
  exact hkey.trans ((Neat.keyFromRaw _ _).tidy w)

theorem decodeKey_run {n : ℕ}
    (h : 0 < (hexModhexDecode E (s.aeshash.getD []) (n * 2) (n * 2) false).rc) :
    ∃ key t, decodeKey E n s = (.ok key, t) ∧ t.decodes = s.decodes ++ [(20, n * 2)] := by
  obtain ⟨hrc, hmin, hmax, -⟩ := decoded_of_rc E h
  have hlen := Nat.le_antisymm hmax hmin
  rw [decodeKey, Proc.get_bind_run]
  generalize hexModhexDecode E (s.aeshash.getD []) (n * 2) (n * 2) false = d at h hrc hlen
  have hnote : noteDecode 20 d s
      = (.ok ⟨⟩, { s with decodes := s.decodes ++ [(20, n * 2)] }) := by
    rw [noteDecode, if_pos hrc, Proc.modify_run, hlen]
  rw [Proc.bind_ok hnote, rejectIf, if_neg (by simp [hrc])]
  exact ⟨_, _, rfl, rfl⟩

theorem behindLoop_decodes (h : DecodesKey E s) (fuel : ℕ) :
    (20, ykpGetSupportedKeyLength s.ykp.cfg * 2) ∈ (behindLoop E fuel s).2.decodes := by
  obtain ⟨hz, hcommand⟩ := h.command
  obtain ⟨t, ht, hloc, hrc⟩ := h.key
  have haction : checkAction s = (.ok ⟨⟩, s) := by
    have hrun := Proc.run_eq h.action
    rwa [checkAction_ok hrun] at hrun
  have hupdate : checkUpdate s = (.ok ⟨⟩, s) := by
    have hrun := Proc.run_eq h.update
    rwa [checkUpdate_state hrun] at hrun
  obtain ⟨key, u, hu, hd⟩ := decodeKey_run hrc
  rw [behindLoop, Proc.bind_ok haction, Proc.bind_ok hupdate, keySection, Proc.get_bind_run,
    if_pos (by simpa [hz] using hcommand), Proc.bind_ok ht, Proc.get_bind_run, if_neg hloc,
    Proc.bind_ok hu]
  have hkeep : ∀ x : Proc YkpState Unit, (onYkp x u).2.decodes = u.decodes := fun _ => rfl
  rw [hkeep, hd]
  simp

end Key

/-! ## Whole runs -/

section Runs

variable {E : ArgsEnv} {argv : List (List Char)} {stdin : List Char}
  {scanCodes deviceInfo : List UInt8}

def DecodesFit (s : ArgsState) : Prop := ∀ p ∈ s.decodes, p.2 ≤ p.1

theorem Tidy.decodesFit {s s' : ArgsState} (h : Tidy s s') (hsize : s.deviceInfo.length = 128)
    (hs : DecodesFit s) : DecodesFit s' := by
  obtain ⟨l, hl, hfit⟩ := h.decodes hsize
  intro p hp
  rw [hl] at hp
  exact (List.mem_append.1 hp).elim (hs p) (hfit p)

/-- The buffers have their sizes at every head. -/
theorem sizes_of_reaches {s t : ArgsState} {os : List Getopt.Scanned} (h : Reaches E s os t) :
    t.scanBin.length = s.scanBin.length ∧ t.deviceInfo.length = s.deviceInfo.length := by
  refine h.invariant (P := fun _ t => t.scanBin.length = s.scanBin.length ∧
    t.deviceInfo.length = s.deviceInfo.length) ⟨rfl, rfl⟩ ?_
  rintro _ t o u ⟨hscan, hinfo⟩ ⟨t', ht, hu⟩
  obtain rfl := (Prod.mk.inj ht).2
  have hkept := handle_kept (E := E) o { t with getopt := (t.getopt.getopt optstring).2 }
  rw [hu] at hkept
  exact ⟨hkept.scanBin.trans hscan, hkept.deviceInfo.trans hinfo⟩

/-- No turn scans a map, and no key is decoded behind the loop. -/
def DecodesNeither (E : ArgsEnv) (s : ArgsState) : Prop :=
  ∀ os t, Reaches E s os t →
    (∀ o u, scanNext t = (some o, u) → ¬ ScansMap E o u) ∧
      ∀ u, scanNext t = (none, u) → ¬ DecodesKey E u

theorem argsToConfig_decodesFit (hinfo : deviceInfo.length = 128)
    (h : DecodesNeither E (loopStart E argv stdin scanCodes deviceInfo)) (fuel : ℕ) :
    DecodesFit (argsToConfig E fuel (.fresh argv stdin scanCodes deviceInfo)).2 := by
  rw [argsToConfig_eq]
  have hstart : DecodesFit (loopStart E argv stdin scanCodes deviceInfo) := nofun
  have hsize : (loopStart E argv stdin scanCodes deviceInfo).deviceInfo.length = 128 := hinfo
  generalize loopStart E argv stdin scanCodes deviceInfo = s₀ at *
  have hscan : ∀ {s : ArgsState} {o : Option Getopt.Scanned} {t : ArgsState},
      scanNext s = (o, t) → Tidy s t := fun hn => by
    obtain rfl := (Prod.mk.inj hn).2
    exact SameLogs.tidy ⟨rfl, rfl, rfl, rfl, rfl⟩
  -- the decodes fit at every head
  have hheads : ∀ {os t}, Reaches E s₀ os t → DecodesFit t := by
    intro os t ht
    induction ht with
    | start => exact hstart
    | turn hs hturn ih =>
      obtain ⟨v, hv, hu⟩ := hturn
      have htidy := handle_tidy ((h _ _ hs).1 _ _ hv)
      rw [hu] at htidy
      exact ((hscan hv).trans htidy).decodesFit ((sizes_of_reaches hs).2.trans hsize) ih
  rcases Turns.loop_cases scanNext (handle E) fuel s₀ with
    ⟨os, s, t, hs, hn, hloop⟩ | ⟨os, s, o, t, hs, hn, hstop, hloop⟩ | ⟨os, s, hs, -, hloop⟩
  · rw [Proc.bind_ok hloop]
    exact ((hscan hn).trans (behindLoop_tidy ((h os s hs).2 t hn) fuel)).decodesFit
      ((sizes_of_reaches hs).2.trans hsize) (hheads hs)
  · rw [Proc.bind_stop fun _ => by rw [hloop]; exact hstop, hloop]
    exact ((hscan hn).trans (handle_tidy ((h os s hs).1 o t hn))).decodesFit
      ((sizes_of_reaches hs).2.trans hsize) (hheads hs)
  · rw [Proc.bind_diverge hloop]
    exact hheads hs

/-- With fuel for the options up to a head, a run gets to what comes behind them. -/
theorem decodesNeither_of_fit (hscanBin : scanCodes.length = 46)
    (h : ∀ fuel, DecodesFit (argsToConfig E fuel (.fresh argv stdin scanCodes deviceInfo)).2) :
    DecodesNeither E (loopStart E argv stdin scanCodes deviceInfo) := by
  intro os t ht
  have hloop := Turns.loop_of_reaches ht 1
  have hfit := h (os.length + 1)
  rw [argsToConfig_eq] at hfit
  have hhandle : ∀ {o u}, scanNext t = (some o, u) → DecodesFit (handle E o u).2 := fun hn => by
    obtain ⟨hstop, hstate⟩ := Turns.loop_one (handle E) hn
    rw [← hloop] at hstop hstate
    rwa [Proc.bind_stop fun _ => hstop, hstate] at hfit
  refine ⟨fun o u hn hscans => ?_, fun u hn hkey => ?_⟩
  · have hmem : (46, 90) ∈ (handle E o u).2.decodes := by
      have hsize : u.scanBin.length = 46 := by
        rw [← (Prod.mk.inj hn).2]
        exact (sizes_of_reaches ht).1.trans hscanBin
      have hm := handle_scans hscans
      rwa [hsize] at hm
    have hle := hhandle hn _ hmem
    omega
  · have hend := hloop.trans (Turns.loop_none hn 0)
    rw [Proc.bind_ok hend] at hfit
    have hle := hfit _ (behindLoop_decodes hkey _)
    rcases ykpGetSupportedKeyLength_cases u.ykp.cfg with hn | hn <;> rw [hn] at hle <;> omega

end Runs

theorem setFixed_decodes (E : ArgsEnv) (fixed : List Char) (s : ArgsState) :
    ∃ l, (setFixed E fixed s).2.decodes = s.decodes ++ l ∧ ∀ p ∈ l, p.2 ≤ p.1 := by
  have hfits : (hexModhexDecode E fixed 0 32 true).rc = 1 →
      (hexModhexDecode E fixed 0 32 true).stored.length ≤ 256 := stored_fits E (by decide)
  rw [setFixed]
  generalize hexModhexDecode E fixed 0 32 true = d at hfits
  have hrest : Moves (fun s s' : ArgsState => s'.decodes = s.decodes) (if d.rc ≤ 0 then Proc.fail
      else discarding (ykpSetFixed (d.stored.take (d.resultlen.getD 0)))) :=
    .ite (.fail fun _ => rfl) <|
      .zoom (Q := fun _ _ => True) (fun _ => trivial) fun _ _ _ => rfl
  by_cases hrc : d.rc = 1
  · have hnote : noteDecode 256 d s
        = (.ok ⟨⟩, { s with decodes := s.decodes ++ [(256, d.stored.length)] }) := by
      rw [noteDecode, if_pos hrc, Proc.modify_run]
    rw [Proc.bind_ok hnote]
    exact ⟨_, hrest _, by simpa using hfits hrc⟩
  · have hnote : noteDecode 256 d s = (.ok ⟨⟩, s) := by rw [noteDecode, if_neg hrc, Proc.pure_run]
    rw [Proc.bind_ok hnote]
    exact ⟨[], by rw [hrest, List.append_nil], by simp⟩

/-- The access codes of the program are strings of twelve characters. -/
theorem decodeAccessCode_fits {σ : Type} {M : MainEnv} {step : OptionStep} {code : List Char}
    {shown : String} {m m' : MainState σ} {d : Decoded}
    (h : decodeAccessCode M step code shown m = (.ok d, m')) : d.stored.length ≤ 256 := by
  unfold decodeAccessCode at h
  obtain ⟨r, t, ht, h⟩ := Proc.bind_eq_ok.1 h
  obtain ⟨t', ht', -⟩ := optionStep_ok ht
  rcases r with _ | d'
  · obtain ⟨_, _, -, h⟩ := Proc.bind_eq_ok.1 h
    cases (Prod.mk.inj h).1
  obtain rfl := Ret.ok.inj (Prod.mk.inj h).1
  replace ht' := Proc.of_attempt_ok ht'
  split_ifs at ht' with hrc
  · cases (Prod.mk.inj ht').1
  · obtain rfl := Ret.ok.inj (Prod.mk.inj ht').1
    exact Nat.le_trans (decoded_of_rc _ (by omega)).2.2.1 (by decide)

/-- Every decoder of the program is passed no more than its buffer has exactly where no scan map and
no key is decoded. -/
theorem decodes_fit_iff {σ : Type} (E : ArgsEnv) (M : MainEnv) (argv : List (List Char))
    (stdin : List Char) (scanCodes : Vector UInt8 46) (deviceInfo : Vector UInt8 128) :
    ((∀ fuel, DecodesFit
        (argsToConfig E fuel (.fresh argv stdin scanCodes.toList deviceInfo.toList)).2) ∧
      (∀ fixed s, ∃ l, (setFixed E fixed s).2.decodes = s.decodes ++ l ∧ ∀ p ∈ l, p.2 ≤ p.1) ∧
      ∀ step code shown (m : MainState σ) d m',
        decodeAccessCode M step code shown m = (.ok d, m') → d.stored.length ≤ 256)
      ↔ DecodesNeither E (loopStart E argv stdin scanCodes.toList deviceInfo.toList) := by
  constructor
  · intro h
    exact decodesNeither_of_fit (by simp) h.1
  · intro h
    exact ⟨argsToConfig_decodesFit (by simp) h, setFixed_decodes E,
      fun _ _ _ _ _ _ => decodeAccessCode_fits⟩

open ScriptedHost (env start) in
/-- A key of 16 bytes goes into 20 with a size of 32, and a scan map of 45 into 46 with one of
90. -/
theorem decodes_overflow :
    (20, 32) ∈ (argsToConfig (env 2 2 0) 10
        (start ["ykpersonalize", "-1", "-a000102030405060708090a0b0c0d0e0f"])).2.decodes ∧
      (46, 90) ∈ (argsToConfig (env 3 0 0) 10
        (start ["ykpersonalize", "-S" ++ String.ofList (List.replicate 90 '0')])).2.decodes := by
  decide +kernel

end YkPers
