import Mathlib.Logic.Relation
import YkPers.Proofs.Frame
import YkPers.ScriptedHost
import YkPers.YkpersJson

/-!
# Flags that the firmware has

Whatever is called on a configuration, in any order and with any outcome, each bit of its flags is
a bit of a flag whose capability the firmware has. A capability depends on the version only, and
every function but the setters leaves the flags alone or clears them.
-/

namespace YkPers

open Proc (Moves)

/-! ## Capabilities -/

/-- Each bit that is set belongs to a flag of its field that the firmware has. -/
def Supported (c : YkpConfig) : Prop :=
  ∀ field i, (c.ykcoreConfig.flags field).toBitVec.getLsbD i = true →
    ∃ p ∈ flagsMap field, p.capability c = true ∧ p.flag.toBitVec.getLsbD i = true

theorem capability_congr {c c' : YkpConfig} (h : c'.version = c.version) (field : FlagField) :
    ∀ p ∈ flagsMap field, p.capability c' = p.capability c := by
  simp only [YkpConfig.version, Prod.mk.injEq] at h
  obtain ⟨h1, h2, h3⟩ := h
  cases field <;>
    simp only [flagsMap, ticketFlagsMap, configFlagsMap, extendedFlagsMap, List.forall_mem_cons,
      List.not_mem_nil, false_implies, implies_true, and_true] <;>
    simp only [capabilityHasHidtrig, capabilityHasTicketFirst, capabilityHasStatic,
      capabilityHasStaticExtras, capabilityHasSlotTwo, capabilityHasChalResp,
      capabilityHasSerialApi, capabilityHasSerial, capabilityHasOath, capabilityHasTicketMods,
      capabilityHasUpdate, capabilityHasFast, capabilityHasNumeric, capabilityHasDormant,
      capabilityHasLedInv, vcheckAll, vcheckV1, vcheckNoV1, vcheckV21OrGreater, vcheckV22OrGreater,
      vcheckV23OrGreater, vcheckV24OrGreater, vcheckV2OrGreater, vcheckV30, vcheckNeo,
      vcheckNeoBefore5, h1, h2, h3, and_self]

theorem Supported.congr {c c' : YkpConfig} (h : Supported c) (hv : c'.version = c.version)
    (hf : ∀ field, c'.ykcoreConfig.flags field = c.ykcoreConfig.flags field) : Supported c' := by
  intro field i hi
  rw [hf] at hi
  obtain ⟨p, hp, hc, hb⟩ := h field i hi
  exact ⟨p, hp, (capability_congr hv field p hp).trans hc, hb⟩

@[simp] theorem flags_setFlags_self (c : YkConfig) (field : FlagField) (x : UInt8) :
    (c.setFlags field x).flags field = x := by
  cases field <;> rfl

theorem flags_setFlags_of_ne {field field' : FlagField} (h : field' ≠ field) (c : YkConfig)
    (x : UInt8) : (c.setFlags field x).flags field' = c.flags field' := by
  cases field <;> cases field' <;> first | rfl | exact absurd rfl h

theorem Supported.stored {c c' : YkpConfig} (h : Supported c) (hv : c'.version = c.version)
    {field : FlagField} {p : MapSt} (hp : p ∈ flagsMap field) (hc : p.capability c = true)
    {state : Bool} (hs : c'.ykcoreConfig = p.stored field state c.ykcoreConfig) :
    Supported c' := by
  intro field' i hi
  have hold : (c.ykcoreConfig.flags field').toBitVec.getLsbD i = true →
      ∃ q ∈ flagsMap field', q.capability c' = true ∧ q.flag.toBitVec.getLsbD i = true := by
    intro hi
    obtain ⟨q, hq, hqc, hb⟩ := h field' i hi
    exact ⟨q, hq, (capability_congr hv field' q hq).trans hqc, hb⟩
  rw [hs, MapSt.stored] at hi
  rcases eq_or_ne field' field with rfl | hne
  · have hor : (c.ykcoreConfig.flags field').toBitVec.getLsbD i = true ∨
        p.flag.toBitVec.getLsbD i = true := by
      cases state <;> simp_all [-BitVec.getLsbD_eq_getElem]
    refine hor.elim hold fun hnew => ?_
    exact ⟨p, hp, (capability_congr hv field' p hp).trans hc, hnew⟩
  · rw [flags_setFlags_of_ne hne] at hi
    exact hold hi

/-! ## Every call keeps to them -/

/-- The configuration is of version `v` and carries nothing that this version does not have. -/
def Sound (v : UInt8 × UInt8 × UInt8) (s : YkpState) : Prop :=
  s.cfg.version = v ∧ Supported s.cfg

def KeepsSound (v : UInt8 × UInt8 × UInt8) (s s' : YkpState) : Prop := Sound v s → Sound v s'

section Frames

variable (v : UInt8 × UInt8 × UInt8)

theorem sound_ykpFrame : YkpFrame (KeepsSound v) where
  trans _ _ _ h k hs := k (h hs)
  same _ _ h hs := ⟨h.version.trans hs.1, hs.2.congr h.version h.flags⟩

theorem sound_flagClosed : FlagClosed (KeepsSound v) := fun _ _ hp _ state hc hs =>
  ⟨hs.1, hs.2.stored rfl hp hc (rfl : _ = MapSt.stored _ _ state _)⟩

theorem sound_configureCommand (command : UInt8) :
    Moves (KeepsSound v) (ykpConfigureCommand command) := by
  refine .get_bind fun s => ?_
  rcases commandError s.cfg command with _ | e
  · exact fun s hs => ⟨hs.1, hs.2.congr rfl fun _ => rfl⟩
  · exact (sound_ykpFrame v).error e

theorem sound_clearConfig : Moves (KeepsSound v) ykpClearConfig := by
  refine fun s hs => ⟨hs.1, fun field i hi => ?_⟩
  cases field <;> simp [ykpClearConfig, ykpStore, YkConfig.flags, -BitVec.getLsbD_eq_getElem] at hi

theorem sound_loopFrame : LoopFrame (KeepsSound v) fun s s' => KeepsSound v s.ykp s'.ykp where
  onYkp := sound_ykpFrame v
  trans _ _ _ h k hs := k (h hs)
  same _ _ h hs := by rwa [h.ykp]
  ykp _ _ h := h
  flag := sound_flagClosed v
  command s c _ hs := ⟨hs.1, hs.2.congr rfl fun _ => rfl⟩
  clear := sound_clearConfig v
  any _ _ h _ _ _ hs := by rwa [h]

end Frames

section Import

variable (v : UInt8 × UInt8 × UInt8) (L : JsonC) (mode : UInt8) (options : Json)

theorem sound_pure {α : Type} (a : α) : Moves (KeepsSound v) (pure a : Proc YkpState α) :=
  .pure (sound_ykpFrame v).refl a

theorem sound_bind {α β : Type} {x : Proc YkpState α} {f : α → Proc YkpState β}
    (hx : Moves (KeepsSound v) x) (hf : ∀ a, Moves (KeepsSound v) (f a)) :
    Moves (KeepsSound v) (x >>= f) := .bind (sound_ykpFrame v).trans hx hf

theorem sound_dropping {x : Proc YkpState Unit} (hx : Moves (KeepsSound v) x) :
    Moves (KeepsSound v) (dropping x) := sound_bind v hx.attempt fun _ => sound_pure v _

theorem sound_setter {f : Bool → Proc YkpState Unit} (hf : IsSetter f) (state : Bool) :
    Moves (KeepsSound v) (f state) := (sound_ykpFrame v).setter (sound_flagClosed v) hf state

theorem sound_dropSetter {f : Bool → Proc YkpState Unit} (hf : IsSetter f) :
    Moves (KeepsSound v) (dropping (f true)) := sound_dropping v (sound_setter v hf true)

theorem sound_required (j : Json) (key : String) : Moves (KeepsSound v) (required j key) := by
  unfold required
  rcases j.get key with _ | x
  · exact sound_bind v ((sound_ykpFrame v).error _) fun _ => sound_pure v _
  · exact sound_pure v _

theorem sound_importTarget (yprod : Json) : Moves (KeepsSound v) (importTarget L yprod) := by
  unfold importTarget
  split
  · exact sound_pure v _
  split
  · exact (sound_ykpFrame v).error _
  · exact .get_bind fun _ => .ite (sound_dropping v (sound_configureCommand v _)) <|
      .ite ((sound_ykpFrame v).error _) (sound_pure v _)

theorem sound_importOathDigits : Moves (KeepsSound v) (importOathDigits L options) := by
  unfold importOathDigits
  split
  · exact .ite (sound_dropSetter v (isSetter_get .cfg 4 rfl)) (sound_pure v _)
  · exact sound_pure v _

theorem sound_importSeed : Moves (KeepsSound v) (importSeed L options) := by
  unfold importSeed
  split
  · exact .ite ((sound_ykpFrame v).error _) (sound_dropping v ((sound_ykpFrame v).setOathImf _))
  · exact sound_pure v _

theorem sound_importMode : Moves (KeepsSound v) (importMode L mode options) := by
  refine .ite ?_ <| .ite ?_ <| .ite ?_ <| .ite ?_ (sound_pure v _)
  · exact sound_bind v (sound_dropSetter v (isSetter_get .tkt 7 rfl)) fun _ =>
      sound_bind v (sound_importOathDigits v L options) fun _ => sound_importSeed v L options
  · exact sound_bind v (sound_dropSetter v (isSetter_get .tkt 8 rfl)) fun _ =>
      sound_dropSetter v (isSetter_get .cfg 1 rfl)
  · exact sound_bind v (sound_dropSetter v (isSetter_get .tkt 8 rfl)) fun _ =>
      sound_dropSetter v (isSetter_get .cfg 0 rfl)
  · exact sound_dropSetter v (isSetter_get .cfg 13 rfl)

theorem sound_setJsonValue {field : FlagField} {p : MapSt} (hp : p ∈ flagsMap field) :
    Moves (KeepsSound v) (setJsonValue L mode options p) := by
  unfold setJsonValue
  split
  · exact sound_pure v _
  refine .ite ?_ (sound_pure v _)
  split
  · exact sound_pure v _
  · exact .ite (sound_dropSetter v ⟨field, p, hp, rfl⟩) (sound_pure v _)

theorem sound_setJsonValues {field : FlagField} : ∀ {ps : List MapSt}, ps ⊆ flagsMap field →
    Moves (KeepsSound v) (setJsonValues L mode options ps)
  | [], _ => sound_pure v _
  | _ :: _, h => sound_bind v (sound_setJsonValue v L mode options (h List.mem_cons_self)) fun _ =>
      sound_setJsonValues fun _ hp => h (List.mem_cons_of_mem _ hp)

theorem sound_importDocument (jobj : Json) : Moves (KeepsSound v) (importDocument L jobj) := by
  refine sound_bind v (.ite ((sound_ykpFrame v).error _) (sound_pure v _)) fun _ => ?_
  refine sound_bind v (sound_required v _ _) fun yprod => ?_
  refine sound_bind v (sound_required v _ _) fun jmode => ?_
  refine sound_bind v (sound_required v _ _) fun options => ?_
  refine sound_bind v (sound_importTarget v L yprod) fun _ => ?_
  split
  · exact fun _ => id
  · have htables : ∀ field, Moves (KeepsSound v)
        (setJsonValues L (modeOf ‹_›) options (flagsMap field)) := fun field =>
      sound_setJsonValues v L _ options fun _ => id
    exact sound_bind v (sound_importMode v L _ options) fun _ =>
      sound_bind v (htables .tkt) fun _ => sound_bind v (htables .cfg) fun _ => htables .ext

theorem sound_importConfig (buf : List Char) (format : Int32) :
    Moves (KeepsSound v) (ykpImportConfig L buf format) := by
  refine .ite ?_ (.ite ((sound_ykpFrame v).error _) ((sound_ykpFrame v).error _))
  unfold ykpJsonImportCfg
  split
  · exact fun _ => id
  · exact sound_importDocument v L _

end Import

def YkStatus.version (st : YkStatus) : UInt8 × UInt8 × UInt8 :=
  (st.versionMajor, st.versionMinor, st.versionBuild)

theorem sound_argsToConfig {E : ArgsEnv} (fuel : ℕ) : Moves
    (fun s s' => KeepsSound E.st.version s.ykp s'.ykp) (argsToConfig E fuel) := by
  refine (sound_loopFrame E.st.version).argsToConfig (fun o ho s hs => ?_) ?_ fuel
  · rwa [gates_ykp ho]
  · exact fun s hs => ⟨rfl, hs.2.congr hs.1.symm fun _ => rfl⟩

/-! ## Runs -/

/-- `ykp_alloc` and `ykp_configure_version`. -/
def allocated (st : YkStatus) (ykpErrno : Option YkpErr) : YkpState :=
  (ykpConfigureVersion st ⟨ykpAlloc, ykpErrno⟩).2

/-- A call on the configuration of a key of version `v`, with any arguments and any outcome. -/
inductive Call (v : UInt8 × UInt8 × UInt8) : YkpState → YkpState → Prop where
  | setFlag (field : FlagField) (p : MapSt) (hp : p ∈ flagsMap field) (state : Bool)
      (s : YkpState) : Call v s (p.setter state s).2
  | clearConfig (s : YkpState) : Call v s (ykpClearConfig s).2
  | configureCommand (command : UInt8) (s : YkpState) : Call v s (ykpConfigureCommand command s).2
  | importConfig (L : JsonC) (buf : List Char) (format : Int32) (s : YkpState) :
      Call v s (ykpImportConfig L buf format s).2
  | argsToConfig (E : ArgsEnv) (hst : E.st.version = v) (fuel : ℕ) (s : ArgsState) :
      Call v s.ykp (argsToConfig E fuel s).2.ykp
  | setOathId (σ : Type) (E : ArgsEnv) (H : Host σ) (opt : List Char) (s : Session σ) :
      Call v s.args.ykp (setOathId E H opt s).2.args.ykp

theorem Call.sound {v : UInt8 × UInt8 × UInt8} {s s' : YkpState} (h : Call v s s')
    (hs : Sound v s) : Sound v s' := by
  cases h with
  | setFlag field p hp state => exact sound_setter v ⟨field, p, hp, rfl⟩ state s hs
  | clearConfig => exact sound_clearConfig v s hs
  | configureCommand command => exact sound_configureCommand v command s hs
  | importConfig L buf format => exact sound_importConfig v L buf format s hs
  | argsToConfig E hst fuel s =>
    subst hst
    exact sound_argsToConfig fuel s hs
  | setOathId σ E H opt s => exact (sound_loopFrame v).setOathId E H (sound_flagClosed v) opt s hs

theorem sound_allocated (st : YkStatus) (ykpErrno : Option YkpErr) :
    Sound st.version (allocated st ykpErrno) := by
  refine ⟨rfl, fun field i hi => ?_⟩
  cases field <;>
    simp [allocated, ykpConfigureVersion, ykpAlloc, YkConfig.flags, -BitVec.getLsbD_eq_getElem]
      at hi

/-- The bits of a field of which no flag is for firmware 1. -/
def laterBits : FlagField → UInt8
  | .tkt => 0xc0
  | .cfg => 0xc0
  | .ext => 0xff

theorem and_laterBits {c : YkpConfig} (h : c.ykMajorVersion = 1) (field : FlagField) :
    ∀ p ∈ flagsMap field, p.capability c = true → p.flag &&& laterBits field = 0 := by
  have h2 : ¬ (1 : UInt8) = 2 := by decide
  have hgt : ¬ (2 : UInt8) < 1 := by decide
  cases field <;>
    simp only [flagsMap, ticketFlagsMap, configFlagsMap, extendedFlagsMap, List.forall_mem_cons,
      List.not_mem_nil, false_implies, implies_true, and_true] <;>
    simp [capabilityHasStaticExtras, capabilityHasSlotTwo, capabilityHasChalResp,
      capabilityHasSerialApi, capabilityHasSerial, capabilityHasOath, capabilityHasUpdate,
      capabilityHasFast, capabilityHasNumeric, capabilityHasDormant, capabilityHasLedInv,
      vcheckNoV1, vcheckV21OrGreater, vcheckV22OrGreater, vcheckV23OrGreater, vcheckV24OrGreater,
      vcheckV2OrGreater, vcheckNeo, vcheckNeoBefore5, h, h2, hgt] <;>
    and_intros <;>
    exact fun _ => by decide

theorem Supported.and_laterBits {c : YkpConfig} (hs : Supported c) (h : c.ykMajorVersion = 1)
    (field : FlagField) : c.ykcoreConfig.flags field &&& laterBits field = 0 := by
  refine UInt8.toBitVec_inj.1 (BitVec.eq_of_getLsbD_eq fun i hi => ?_)
  rcases hb : (c.ykcoreConfig.flags field).toBitVec.getLsbD i with _ | _
  · simp [hb, -BitVec.getLsbD_eq_getElem]
  · obtain ⟨p, hp, hc, hbit⟩ := hs field i hb
    have hand := congrArg (fun x => x.toBitVec.getLsbD i) (YkPers.and_laterBits h field p hp hc)
    simpa [hb, hbit, -BitVec.getLsbD_eq_getElem] using hand

/-- No configuration carries a flag that the firmware does not have. -/
theorem flags_supported (st : YkStatus) (ykpErrno : Option YkpErr) {s : YkpState}
    (h : Relation.ReflTransGen (Call st.version) (allocated st ykpErrno) s) :
    s.cfg.version = st.version ∧ Supported s.cfg ∧
      (st.versionMajor = 1 → s.cfg.ykcoreConfig.tktFlags &&& 0xc0 = 0 ∧
        s.cfg.ykcoreConfig.cfgFlags &&& 0xc0 = 0 ∧ s.cfg.ykcoreConfig.extFlags = 0) := by
  have hs : Sound st.version s := by
    induction h with
    | refl => exact sound_allocated st ykpErrno
    | tail _ hcall ih => exact hcall.sound ih
  refine ⟨hs.1, hs.2, fun h1 => ?_⟩
  have hmajor : s.cfg.ykMajorVersion = 1 := (congrArg Prod.fst hs.1).trans h1
  have hext := hs.2.and_laterBits hmajor .ext
  refine ⟨hs.2.and_laterBits hmajor .tkt, hs.2.and_laterBits hmajor .cfg, ?_⟩
  exact UInt8.and_neg_one.symm.trans hext

open ScriptedHost in
/-- On firmware 1.3, led-inv is refused, and `-2` sets what is there of its flags. -/
theorem flags_supported_old :
    let s := (ykpSetExtflagLedInv true (allocated (env 1 3 0).st none)).2
    let t := (argsToConfig (env 1 3 0) 10 { start ["ykpersonalize", "-2"] with ykp := s }).2.ykp
    t.cfg.version = (env 1 3 0).st.version ∧ Supported t.cfg ∧
      ((env 1 3 0).st.versionMajor = 1 → t.cfg.ykcoreConfig.tktFlags &&& 0xc0 = 0 ∧
        t.cfg.ykcoreConfig.cfgFlags &&& 0xc0 = 0 ∧ t.cfg.ykcoreConfig.extFlags = 0) := by
  intro s t
  have hset : Call (env 1 3 0).st.version (allocated (env 1 3 0).st none) s :=
    .setFlag .ext extendedFlagsMap[7] (List.getElem_mem _) true _
  exact flags_supported (env 1 3 0).st none ((Relation.ReflTransGen.single hset).tail
    (.argsToConfig (env 1 3 0) rfl 10 { start ["ykpersonalize", "-2"] with ykp := s }))

end YkPers
