import Mathlib.Data.List.Nodup
import YkPers.Proofs.Flags
import YkPers.YkpersJson

/-!
# What an import does

Every call of the import either fails before it has stored anything but the command, fails on a
random seed, or sets the flags of its mode, of the digits and of the options that are true, as far
as the firmware has them, and the seed. The entries of a step are a predicate on the tables
(`Grants`).
-/

namespace YkPers

open Proc (attempt)

/-! ## Steps that set flags -/

def YkpConfig.withFlags (c : YkpConfig) (f : FlagField → UInt8) : YkpConfig :=
  { c with ykcoreConfig := { c.ykcoreConfig with
      tktFlags := f .tkt, cfgFlags := f .cfg, extFlags := f .ext } }

@[simp] theorem YkpConfig.withFlags_flags (c : YkpConfig) (f : FlagField → UInt8)
    (field : FlagField) : (c.withFlags f).ykcoreConfig.flags field = f field := by
  cases field <;> rfl

@[simp] theorem YkpConfig.withFlags_version (c : YkpConfig) (f : FlagField → UInt8) :
    (c.withFlags f).version = c.version := rfl

@[simp] theorem YkpConfig.withFlags_withFlags (c : YkpConfig) (f g : FlagField → UInt8) :
    (c.withFlags f).withFlags g = c.withFlags g := rfl

def YkpConfig.withCommand (c : YkpConfig) (command : UInt8) : YkpConfig :=
  { c with command := command }

theorem YkpConfig.withCommand_version (c : YkpConfig) (command : UInt8) :
    (c.withCommand command).version = c.version := rfl

/-- Bit `i` of a field. -/
def bit (x : UInt8) (i : ℕ) : Prop := x.toBitVec.getLsbD i = true

theorem eq_of_bit {x y : UInt8} (h : ∀ i, bit x i ↔ bit y i) : x = y := by
  refine UInt8.toBitVec_inj.1 (BitVec.eq_of_getLsbD_eq fun i _ => ?_)
  rw [Bool.eq_iff_iff]
  exact h i

@[simp] theorem bit_or (x y : UInt8) (i : ℕ) : bit (x ||| y) i ↔ bit x i ∨ bit y i := by
  simp [bit, -BitVec.getLsbD_eq_getElem]

@[simp] theorem bit_and (x y : UInt8) (i : ℕ) : bit (x &&& y) i ↔ bit x i ∧ bit y i := by
  simp [bit, -BitVec.getLsbD_eq_getElem]

@[simp] theorem bit_zero (i : ℕ) : ¬ bit 0 i := by simp [bit, -BitVec.getLsbD_eq_getElem]

theorem and_eq_iff {x f : UInt8} : x &&& f = f ↔ ∀ i, bit f i → bit x i := by
  refine ⟨fun h i hi => ?_, fun h => eq_of_bit fun i => ?_⟩
  · rw [← h, bit_and] at hi
    exact hi.1
  · rw [bit_and]
    exact ⟨fun hi => hi.2, fun hi => ⟨h i hi, hi⟩⟩

/-- The entries `S` that the firmware has are set, and nothing else of the configuration changes. -/
def Grants (x : Proc YkpState Unit) (S : FlagField → MapSt → Prop) : Prop :=
  ∀ s, ∃ f e, x s = (.ok ⟨⟩, ⟨s.cfg.withFlags f, e⟩) ∧
    ∀ field i, bit (f field) i ↔ bit (s.cfg.ykcoreConfig.flags field) i ∨
      ∃ p ∈ flagsMap field, S field p ∧ p.capability s.cfg = true ∧ bit p.flag i

section Grants

variable {x y : Proc YkpState Unit} {S T : FlagField → MapSt → Prop}

theorem Grants.congr (hx : Grants x S) (h : ∀ field, ∀ p ∈ flagsMap field, S field p ↔ T field p) :
    Grants x T := by
  intro s
  obtain ⟨f, e, hrun, hbits⟩ := hx s
  refine ⟨f, e, hrun, fun field i => ?_⟩
  rw [hbits]
  refine or_congr_right (exists_congr fun p => and_congr_right fun hp => ?_)
  rw [h field p hp]

/-- The bits two steps set, each with the capabilities of its own state, when neither state is of
another version than the first. -/
theorem granted_or {c c' c₀ : YkpConfig} {S T : MapSt → Prop} {field : FlagField} {i : Nat}
    (hc : c.version = c₀.version) (hc' : c'.version = c₀.version) :
    ((∃ p ∈ flagsMap field, S p ∧ p.capability c = true ∧ bit p.flag i) ∨
      ∃ p ∈ flagsMap field, T p ∧ p.capability c' = true ∧ bit p.flag i) ↔
      ∃ p ∈ flagsMap field, (S p ∨ T p) ∧ p.capability c₀ = true ∧ bit p.flag i := by
  rw [← exists_or]
  refine exists_congr fun p => ?_
  constructor
  · rintro (⟨hp, hs, hcap, hb⟩ | ⟨hp, ht, hcap, hb⟩)
    · exact ⟨hp, .inl hs, (capability_congr hc field p hp).symm.trans hcap, hb⟩
    · exact ⟨hp, .inr ht, (capability_congr hc' field p hp).symm.trans hcap, hb⟩
  · rintro ⟨hp, hs | ht, hcap, hb⟩
    · exact .inl ⟨hp, hs, (capability_congr hc field p hp).trans hcap, hb⟩
    · exact .inr ⟨hp, ht, (capability_congr hc' field p hp).trans hcap, hb⟩

theorem grants_pure : Grants (pure ⟨⟩) fun _ _ => False := fun s =>
  ⟨s.cfg.ykcoreConfig.flags, s.ykpErrno, rfl, by simp⟩

theorem Grants.bind (hx : Grants x S) (hy : Grants y T) :
    Grants (x >>= fun _ => y) fun field p => S field p ∨ T field p := by
  intro s
  obtain ⟨f, e, hrun, hf⟩ := hx s
  obtain ⟨g, e', hrun', hg⟩ := hy ⟨s.cfg.withFlags f, e⟩
  refine ⟨g, e', (Proc.bind_ok hrun).trans hrun', fun field i => ?_⟩
  rw [hg, YkpConfig.withFlags_flags, hf, or_assoc]
  exact or_congr_right (granted_or rfl (s.cfg.withFlags_version f))

theorem dropping_ok {s s' : YkpState} (h : x s = (.ok ⟨⟩, s')) :
    dropping x s = (.ok ⟨⟩, s') := by
  unfold dropping
  rw [Proc.bind_ok (Proc.attempt_ok h), Proc.pure_run]

theorem dropping_fail {s s' : YkpState} (h : x s = (.fail, s')) :
    dropping x s = (.ok ⟨⟩, s') := by
  unfold dropping
  rw [Proc.bind_ok (Proc.attempt_fail h), Proc.pure_run]

theorem grants_setter {field : FlagField} {p : MapSt} (hp : p ∈ flagsMap field) :
    Grants (dropping (p.setter true)) fun field' q => field' = field ∧ q = p := by
  intro s
  rw [setter_eq field p hp]
  rcases hc : p.capability s.cfg with _ | _
  · have hrun : ykpSetFlag field p.flag p.capability true s
        = (.fail, { s with ykpErrno := some .EYUBIKEYVER }) := by
      simp [ykpSetFlag, hc, ykpError]
    refine ⟨s.cfg.ykcoreConfig.flags, _, dropping_fail hrun, fun field' i => ?_⟩
    refine (or_iff_left ?_).symm
    rintro ⟨q, -, ⟨-, rfl⟩, hq, -⟩
    simp [hc] at hq
  · have hrun : ykpSetFlag field p.flag p.capability true s
        = (.ok ⟨⟩, { s with cfg.ykcoreConfig := p.stored field true s.cfg.ykcoreConfig }) := by
      simp [ykpSetFlag, hc, ykpStore, MapSt.stored]
    refine ⟨(p.stored field true s.cfg.ykcoreConfig).flags, s.ykpErrno, ?_, fun field' i => ?_⟩
    · rw [dropping_ok hrun]
      cases field <;> rfl
    · rcases eq_or_ne field' field with rfl | hne
      · simp only [MapSt.stored, flags_setFlags_self, if_true, bit_or]
        refine or_congr_right ⟨fun hb => ⟨p, hp, ⟨trivial, rfl⟩, hc, hb⟩, ?_⟩
        rintro ⟨q, -, ⟨-, rfl⟩, -, hb⟩
        exact hb
      · simp [MapSt.stored, flags_setFlags_of_ne hne, hne]

end Grants

/-! ## The entries of an import -/

theorem flagText_inj {field : FlagField} {p q : MapSt} (hp : p ∈ flagsMap field)
    (hq : q ∈ flagsMap field) (h : p.flagText = q.flagText) : p = q :=
  List.inj_on_of_nodup_map (by cases field <;> decide) hp hq h

/-- An entry by its place in its table and by its name. -/
theorem grants_get (field : FlagField) (i : ℕ) {p : MapSt} (h : (flagsMap field)[i]? = some p) :
    Grants (dropping (p.setter true)) fun field' q => (field', q.flagText) = (field, p.flagText) :=
  (grants_setter (List.mem_of_getElem? h)).congr fun field' q hq => by
    rw [Prod.mk.injEq]
    refine and_congr_right ?_
    rintro rfl
    exact ⟨congrArg _, flagText_inj hq (List.mem_of_getElem? h)⟩

/-- The flags that a mode is made of. -/
def modeFlags (mode : UInt8) : List (FlagField × String) :=
  if mode = modeOathHotp then [(.tkt, "OATH_HOTP")]
  else if mode = modeChalHmac then [(.tkt, "CHAL_RESP"), (.cfg, "CHAL_HMAC")]
  else if mode = modeChalYubico then [(.tkt, "CHAL_RESP"), (.cfg, "CHAL_YUBICO")]
  else if mode = modeStaticTicket then [(.cfg, "STATIC_TICKET")]
  else []

section Entries

variable (L : JsonC) (mode : UInt8) (options : Json)

def DigitsEight : Prop := ∃ j, options.get "oathDigits" = some j ∧ L.getInt j = 8

def RandomSeed : Prop := ∃ j, options.get "randomSeed" = some j ∧ L.getBoolean j = true

/-- The entry is listed for the mode. -/
def Listed (p : MapSt) (text : String) : Prop :=
  p.jsonText = some text ∧ p.mode ≠ 0 ∧ p.isFor mode = true

/-- The document has the literal `true` for the entry. -/
def Asked (p : MapSt) : Prop :=
  ∃ text, Listed mode p text ∧
    ∃ j, options.get text = some j ∧ j.isBoolean = true ∧ L.getBoolean j = true

/-- By the mode itself, or by the digits of a one-time password. -/
def ByMode (field : FlagField) (p : MapSt) : Prop :=
  (field, p.flagText) ∈ modeFlags mode ∨
    mode = modeOathHotp ∧ DigitsEight L options ∧ (field, p.flagText) = (.cfg, "OATH_HOTP8")

def Wanted (field : FlagField) (p : MapSt) : Prop :=
  ByMode L mode options field p ∨ Asked L mode options p

variable {L mode options}

theorem grants_setJsonValue {field : FlagField} {p : MapSt} (hp : p ∈ flagsMap field) :
    Grants (setJsonValue L mode options p)
      fun field' q => field' = field ∧ q = p ∧ Asked L mode options q := by
  have hasked : ∀ {P : Prop}, (Asked L mode options p ↔ P) →
      (∀ (field' : FlagField) (q : MapSt), (field' = field ∧ q = p ∧ Asked L mode options q) ↔
        (field' = field ∧ q = p) ∧ P) := by
    intro P hP field' q
    constructor
    · rintro ⟨h1, rfl, h⟩
      exact ⟨⟨h1, rfl⟩, hP.1 h⟩
    · rintro ⟨⟨h1, rfl⟩, h⟩
      exact ⟨h1, rfl, hP.2 h⟩
  have hnot : ¬ Asked L mode options p → Grants (pure ⟨⟩ : Proc YkpState Unit)
      fun field' q => field' = field ∧ q = p ∧ Asked L mode options q := fun h =>
    grants_pure.congr fun field' q _ => by rw [hasked (iff_false_intro h) field' q]; simp
  unfold setJsonValue
  split
  · rename_i htext
    refine hnot ?_
    rintro ⟨text, ⟨h, -⟩, -⟩
    simp [htext] at h
  rename_i text htext
  split_ifs with hlisted
  swap
  · refine hnot ?_
    rintro ⟨_, ⟨-, h⟩, -⟩
    exact hlisted h
  split
  · rename_i hget
    refine hnot ?_
    rintro ⟨_, ⟨h, -⟩, j, hj, -⟩
    obtain rfl := Option.some.inj (htext.symm.trans h)
    simp [hget] at hj
  rename_i j hget
  split_ifs with hbool
  · refine (grants_setter hp).congr fun field' q _ => ?_
    rw [hasked (iff_true_intro ⟨text, ⟨htext, hlisted⟩, j, hget, hbool⟩) field' q, and_true]
  · refine hnot ?_
    rintro ⟨_, ⟨h, -⟩, j', hj', h'⟩
    obtain rfl := Option.some.inj (htext.symm.trans h)
    obtain rfl := Option.some.inj (hget.symm.trans hj')
    exact hbool h'

theorem grants_setJsonValues (field : FlagField) : ∀ {ps : List MapSt}, ps ⊆ flagsMap field →
    Grants (setJsonValues L mode options ps)
      fun field' q => field' = field ∧ q ∈ ps ∧ Asked L mode options q
  | [], _ => grants_pure.congr fun _ _ _ => by simp
  | p :: ps, h => by
    have hp : p ∈ flagsMap field := h List.mem_cons_self
    have hps : ps ⊆ flagsMap field := fun q hq => h (List.mem_cons_of_mem p hq)
    refine ((grants_setJsonValue hp).bind (grants_setJsonValues field hps)).congr
      fun field' q _ => ?_
    rw [List.mem_cons]
    tauto

theorem grants_importOathDigits : Grants (importOathDigits L options) fun field p =>
    DigitsEight L options ∧ (field, p.flagText) = (.cfg, "OATH_HOTP8") := by
  unfold importOathDigits
  split
  · rename_i j hget
    have hdigits : DigitsEight L options ↔ L.getInt j = 8 := by simp [DigitsEight, hget]
    split_ifs with h8
    · refine (grants_get .cfg 4 rfl).congr fun _ _ _ => ?_
      rw [hdigits]
      exact (and_iff_right h8).symm
    · exact grants_pure.congr fun _ _ _ => by rw [hdigits]; simp [h8]
  · rename_i hget
    exact grants_pure.congr fun _ _ _ => by simp [DigitsEight, hget]

theorem grants_modeFlags (L : JsonC) (options : Json) (hm : mode ≠ modeOathHotp) :
    Grants (importMode L mode options) (ByMode L mode options) := by
  have hby : ∀ field p, ByMode L mode options field p ↔ (field, p.flagText) ∈ modeFlags mode :=
    fun field p => or_iff_left fun h => hm h.1
  unfold importMode
  rw [if_neg hm]
  split_ifs with h1 h2 h3
  · refine ((grants_get .tkt 8 rfl).bind (grants_get .cfg 1 rfl)).congr fun field p _ => ?_
    rw [hby, modeFlags, if_neg hm, if_pos h1, List.mem_cons, List.mem_singleton]
  · refine ((grants_get .tkt 8 rfl).bind (grants_get .cfg 0 rfl)).congr fun field p _ => ?_
    rw [hby, modeFlags, if_neg hm, if_neg h1, if_pos h2, List.mem_cons, List.mem_singleton]
  · refine (grants_get .cfg 13 rfl).congr fun field p _ => ?_
    rw [hby, modeFlags, if_neg hm, if_neg h1, if_neg h2, if_pos h3, List.mem_singleton]
  · refine grants_pure.congr fun field p _ => ?_
    rw [hby, modeFlags, if_neg hm, if_neg h1, if_neg h2, if_neg h3]
    simp

theorem grants_oathFlags (L : JsonC) (options : Json) : Grants (do
    dropping (ykpSetTktflagOathHotp true)
    importOathDigits L options) (ByMode L modeOathHotp options) :=
  ((grants_get .tkt 7 rfl).bind grants_importOathDigits).congr fun field p _ => by
    rw [ByMode, modeFlags, if_pos rfl, List.mem_singleton]
    exact or_congr .rfl ⟨fun h => ⟨rfl, h⟩, fun h => h.2⟩

theorem grants_tables (L : JsonC) (mode : UInt8) (options : Json) : Grants (do
    setJsonValues L mode options ticketFlagsMap
    setJsonValues L mode options configFlagsMap
    setJsonValues L mode options extendedFlagsMap) fun _ p => Asked L mode options p := by
  refine ((grants_setJsonValues .tkt fun _ => id).bind
    ((grants_setJsonValues .cfg fun _ => id).bind
      (grants_setJsonValues .ext fun _ => id))).congr fun field p hp => ?_
  cases field <;> simp [show p ∈ _ from hp]

end Entries

/-! ## The moving factor -/

def ImfAccepted (c : YkpConfig) (imf : ℕ) : Prop :=
  capabilityHasOathImf c = true ∧ imf ≤ 65535 * 16 ∧ imf % 16 = 0

instance (c : YkpConfig) (imf : ℕ) : Decidable (ImfAccepted c imf) :=
  inferInstanceAs (Decidable (_ ∧ _))

theorem dropping_setOathImf (imf : ℕ) (s : YkpState) : ∃ e, dropping (ykpSetOathImf imf) s
    = (.ok ⟨⟩, ⟨if ImfAccepted s.cfg imf then s.cfg.withImf imf else s.cfg, e⟩) := by
  by_cases h : ImfAccepted s.cfg imf
  · have hrun : ykpSetOathImf imf s = (.ok ⟨⟩, ⟨s.cfg.withImf imf, s.ykpErrno⟩) := by
      obtain ⟨h1, h2, h3⟩ := h
      simp [ykpSetOathImf, h1, h3, Nat.not_lt.2 h2, ykpStore, YkpConfig.withImf]
    exact ⟨s.ykpErrno, by rw [dropping_ok hrun, if_pos h]⟩
  · obtain ⟨e, hrun⟩ : ∃ e, ykpSetOathImf imf s = (.fail, ⟨s.cfg, some e⟩) := by
      by_cases h1 : capabilityHasOathImf s.cfg = true
      swap
      · exact ⟨.EYUBIKEYVER, by simp [ykpSetOathImf, h1, ykpError]⟩
      by_cases h2 : imf > 65535 * 16
      · exact ⟨.EINVAL, by simp [ykpSetOathImf, h1, h2, ykpError]⟩
      have h3 : imf % 16 ≠ 0 := fun h3 => h ⟨h1, Nat.not_lt.1 h2, h3⟩
      exact ⟨.EINVAL, by simp [ykpSetOathImf, h1, h2, h3, ykpError]⟩
    exact ⟨some e, by rw [dropping_fail hrun, if_neg h]⟩

section Import

variable (L : JsonC) (mode : UInt8) (options : Json)

/-- With the seed of the document, where it is one that is read and that the firmware takes. -/
def YkpConfig.seeded (c : YkpConfig) : YkpConfig :=
  if mode = modeOathHotp ∧ (options.get "randomSeed").isSome = true ∧
      ImfAccepted c (sizeT (fixedSeed L options)) then
    c.withImf (sizeT (fixedSeed L options))
  else c

variable {L mode options}

theorem YkpConfig.seeded_version (c : YkpConfig) :
    (c.seeded L mode options).version = c.version := by
  unfold YkpConfig.seeded
  split_ifs <;> rfl

theorem YkpConfig.seeded_command (c : YkpConfig) :
    (c.seeded L mode options).command = c.command := by
  unfold YkpConfig.seeded
  split_ifs <;> rfl

theorem YkpConfig.seeded_withFlags (c : YkpConfig) (f : FlagField → UInt8) :
    (c.withFlags f).seeded L mode options = (c.seeded L mode options).withFlags f := by
  unfold YkpConfig.seeded
  by_cases h : mode = modeOathHotp ∧ (options.get "randomSeed").isSome = true ∧
      ImfAccepted c (sizeT (fixedSeed L options))
  · rw [if_pos h, if_pos ⟨h.1, h.2.1, h.2.2⟩]
    rfl
  · rw [if_neg h, if_neg fun h' => h ⟨h'.1, h'.2.1, h'.2.2⟩]

theorem importSeed_random (h : RandomSeed L options) (s : YkpState) :
    importSeed L options s = (.fail, { s with ykpErrno := some .ENORANDOM }) := by
  obtain ⟨j, hget, hj⟩ := h
  simp [importSeed, hget, hj, ykpError]

theorem importSeed_fixed (h : ¬ RandomSeed L options) (s : YkpState) : ∃ e,
    importSeed L options s = (.ok ⟨⟩, ⟨s.cfg.seeded L modeOathHotp options, e⟩) := by
  unfold importSeed YkpConfig.seeded
  rcases hget : options.get "randomSeed" with _ | j
  · exact ⟨s.ykpErrno, by simp⟩
  · have hj : ¬ L.getBoolean j = true := fun hj => h ⟨j, hget, hj⟩
    dsimp only
    rw [if_neg hj]
    obtain ⟨e, hrun⟩ := dropping_setOathImf (sizeT (fixedSeed L options)) s
    exact ⟨e, by rw [hrun]; simp⟩

/-- The mode's own part of the import, where the seed is not a random one. -/
theorem importMode_ok (h : ¬ (mode = modeOathHotp ∧ RandomSeed L options)) (s : YkpState) :
    ∃ f e, importMode L mode options s
        = (.ok ⟨⟩, ⟨(s.cfg.seeded L mode options).withFlags f, e⟩) ∧
      ∀ field i, bit (f field) i ↔ bit (s.cfg.ykcoreConfig.flags field) i ∨
        ∃ p ∈ flagsMap field, ByMode L mode options field p ∧ p.capability s.cfg = true ∧
          bit p.flag i := by
  by_cases hm : mode = modeOathHotp
  · subst hm
    obtain ⟨f, e, hrun, hbits⟩ := grants_oathFlags L options s
    obtain ⟨e', hseed⟩ := importSeed_fixed (fun hr => h ⟨rfl, hr⟩) ⟨s.cfg.withFlags f, e⟩
    refine ⟨f, e', ?_, hbits⟩
    rw [← YkpConfig.seeded_withFlags]
    obtain ⟨_, t, h1, h2⟩ := Proc.bind_eq_ok.1 hrun
    unfold importMode
    rw [if_pos rfl]
    exact (Proc.bind_ok h1).trans ((Proc.bind_ok h2).trans hseed)
  · obtain ⟨f, e, hrun, hbits⟩ := grants_modeFlags L options hm s
    have hseeded : s.cfg.seeded L mode options = s.cfg := if_neg fun h => hm h.1
    exact ⟨f, e, by rw [hseeded]; exact hrun, hbits⟩

theorem importMode_random (h : RandomSeed L options) (s : YkpState) :
    ∃ f, importMode L modeOathHotp options s
        = (.fail, ⟨s.cfg.withFlags f, some .ENORANDOM⟩) ∧
      ∀ field i, bit (f field) i ↔ bit (s.cfg.ykcoreConfig.flags field) i ∨
        ∃ p ∈ flagsMap field, ByMode L modeOathHotp options field p ∧
          p.capability s.cfg = true ∧ bit p.flag i := by
  obtain ⟨f, e, hrun, hbits⟩ := grants_oathFlags L options s
  refine ⟨f, ?_, hbits⟩
  obtain ⟨_, t, h1, h2⟩ := Proc.bind_eq_ok.1 hrun
  unfold importMode
  rw [if_pos rfl]
  exact (Proc.bind_ok h1).trans ((Proc.bind_ok h2).trans (importSeed_random h _))

end Import

/-! ## Whole documents -/

/-- The members that every document has. -/
structure Parts (jobj yprod jmode options : Json) : Prop where
  notNull : jobj.isNull = false
  hasConfig : jobj.get "yubiProdConfig" = some yprod
  hasMode : yprod.get "mode" = some jmode
  hasOptions : yprod.get "options" = some options

/-- The command of an import with a target; `none` where the target is refused. -/
def importedCommand (L : JsonC) (yprod : Json) (c : YkpConfig) : Option UInt8 :=
  match yprod.get "targetConfig" with
  | none => some c.command
  | some jtarget =>
    match targetCommand (L.getInt jtarget) with
    | none => none
    | some command =>
      if c.command = 0 then some (if commandError c command = none then command else 0)
      else if c.command ≠ command then none
      else some c.command

section Document

variable {L : JsonC} {jobj yprod jmode options : Json} {s : YkpState}

theorem importTarget_ok {command : UInt8} (h : importedCommand L yprod s.cfg = some command) :
    ∃ e, importTarget L yprod s = (.ok ⟨⟩, ⟨s.cfg.withCommand command, e⟩) := by
  rcases ht : yprod.get "targetConfig" with _ | jtarget
  · simp only [importedCommand, ht, Option.some.injEq] at h
    subst h
    exact ⟨s.ykpErrno, by simp only [importTarget, ht, Proc.pure_run, YkpConfig.withCommand]⟩
  rcases hcmd : targetCommand (L.getInt jtarget) with _ | cmd
  · simp only [importedCommand, ht, hcmd, reduceCtorEq] at h
  simp only [importedCommand, ht, hcmd] at h
  simp only [importTarget, ht, hcmd, Proc.get_bind_run]
  by_cases h0 : s.cfg.command = 0
  · simp only [h0, if_true, Option.some.injEq] at h ⊢
    subst h
    rcases herr : commandError s.cfg cmd with _ | e
    · have hrun : ykpConfigureCommand cmd s
          = (.ok ⟨⟩, ⟨s.cfg.withCommand cmd, s.ykpErrno⟩) := by
        simp [ykpConfigureCommand, herr, YkpConfig.withCommand]
      exact ⟨s.ykpErrno, dropping_ok hrun⟩
    · have hrun : ykpConfigureCommand cmd s = (.fail, ⟨s.cfg, some e⟩) := by
        simp [ykpConfigureCommand, herr, ykpError]
      exact ⟨some e, by rw [dropping_fail hrun]; simp [YkpConfig.withCommand, ← h0]⟩
  · by_cases hne : s.cfg.command = cmd
    · subst hne
      simp only [h0, ne_eq, not_true_eq_false, if_false, Option.some.injEq] at h
      subst h
      exact ⟨s.ykpErrno, by simp [h0, YkpConfig.withCommand]⟩
    · simp [h0, hne] at h

theorem importTarget_fail (h : importedCommand L yprod s.cfg = none) :
    importTarget L yprod s = (.fail, { s with ykpErrno := some .EINVAL }) := by
  rcases ht : yprod.get "targetConfig" with _ | jtarget
  · simp [importedCommand, ht] at h
  rcases hcmd : targetCommand (L.getInt jtarget) with _ | cmd
  · simp [importTarget, ht, hcmd, ykpError]
  simp only [importedCommand, ht, hcmd] at h
  split_ifs at h with h0 hne
  simp [importTarget, ht, hcmd, h0, hne, ykpError]

theorem required_fail {j : Json} {key : String} (h : j.get key = none) (s : YkpState) :
    required j key s = (.fail, { s with ykpErrno := some .EINVAL }) := by
  rw [required, h]
  rfl

theorem required_ok {j v : Json} {key : String} (h : j.get key = some v) (s : YkpState) :
    required j key s = (.ok v, s) := by
  rw [required, h]
  rfl

/-- Up to the mode. -/
theorem importDocument_run {command : UInt8} (hp : Parts jobj yprod jmode options)
    (hc : importedCommand L yprod s.cfg = some command) : ∃ e, importDocument L jobj s =
      (match L.getString jmode with
      | none => Proc.fault
      | some rawMode => do
        importMode L (modeOf rawMode) options
        setJsonValues L (modeOf rawMode) options ticketFlagsMap
        setJsonValues L (modeOf rawMode) options configFlagsMap
        setJsonValues L (modeOf rawMode) options extendedFlagsMap)
      ⟨s.cfg.withCommand command, e⟩ := by
  obtain ⟨e, htarget⟩ := importTarget_ok hc
  have hnull : requireDocument jobj s = (.ok ⟨⟩, s) := by
    rw [requireDocument, hp.notNull]
    rfl
  refine ⟨e, ?_⟩
  unfold importDocument
  exact (Proc.bind_ok hnull).trans ((Proc.bind_ok (required_ok hp.hasConfig s)).trans
    ((Proc.bind_ok (required_ok hp.hasMode s)).trans
      ((Proc.bind_ok (required_ok hp.hasOptions s)).trans (Proc.bind_ok htarget))))

/-- A document without one of its members, or with a target that is refused. -/
theorem importDocument_invalid
    (h : ∀ yprod jmode options, Parts jobj yprod jmode options →
      importedCommand L yprod s.cfg = none) :
    importDocument L jobj s = (.fail, { s with ykpErrno := some .EINVAL }) := by
  unfold importDocument
  rcases hnull : jobj.isNull with _ | _
  swap
  · refine Proc.bind_fail ?_
    rw [requireDocument, hnull]
    rfl
  have hdoc : requireDocument jobj s = (.ok ⟨⟩, s) := by
    rw [requireDocument, hnull]
    rfl
  rw [Proc.bind_ok hdoc]
  rcases hy : jobj.get "yubiProdConfig" with _ | yprod
  · exact Proc.bind_fail (required_fail hy s)
  rw [Proc.bind_ok (required_ok hy s)]
  rcases hm : yprod.get "mode" with _ | jmode
  · exact Proc.bind_fail (required_fail hm s)
  rw [Proc.bind_ok (required_ok hm s)]
  rcases ho : yprod.get "options" with _ | options
  · exact Proc.bind_fail (required_fail ho s)
  rw [Proc.bind_ok (required_ok ho s)]
  exact Proc.bind_fail (importTarget_fail (h yprod jmode options ⟨hnull, hy, hm, ho⟩))

theorem importDocument_noMode {command : UInt8} (hp : Parts jobj yprod jmode options)
    (hc : importedCommand L yprod s.cfg = some command) (hm : L.getString jmode = none) :
    (importDocument L jobj s).1 = .fault := by
  obtain ⟨e, hrun⟩ := importDocument_run hp hc
  rw [hrun, hm]
  rfl

/-- An import that is accepted: the command, the seed, and the flags that are wanted. -/
theorem importDocument_ok {command : UInt8} {rawMode : String}
    (hp : Parts jobj yprod jmode options) (hc : importedCommand L yprod s.cfg = some command)
    (hm : L.getString jmode = some rawMode)
    (h : ¬ (modeOf rawMode = modeOathHotp ∧ RandomSeed L options)) :
    ∃ f e, importDocument L jobj s = (.ok ⟨⟩,
        ⟨((s.cfg.withCommand command).seeded L (modeOf rawMode) options).withFlags f, e⟩) ∧
      ∀ field i, bit (f field) i ↔ bit (s.cfg.ykcoreConfig.flags field) i ∨
        ∃ p ∈ flagsMap field, Wanted L (modeOf rawMode) options field p ∧
          p.capability s.cfg = true ∧ bit p.flag i := by
  obtain ⟨e, hrun⟩ := importDocument_run hp hc
  obtain ⟨f, e', hmode, hf⟩ := importMode_ok h ⟨s.cfg.withCommand command, e⟩
  obtain ⟨g, e'', htables, hg⟩ := grants_tables L (modeOf rawMode) options ⟨_, e'⟩
  refine ⟨g, e'', ?_, fun field i => ?_⟩
  · rw [hrun, hm]
    exact (Proc.bind_ok hmode).trans htables
  · have hv : (((s.cfg.withCommand command).seeded L (modeOf rawMode) options).withFlags f).version
        = s.cfg.version := YkpConfig.seeded_version (s.cfg.withCommand command)
    rw [hg, YkpConfig.withFlags_flags, hf, or_assoc]
    exact or_congr_right (granted_or (s.cfg.withCommand_version command) hv)

/-- A random seed is refused behind the flags of the mode. -/
theorem importDocument_random {command : UInt8} {rawMode : String}
    (hp : Parts jobj yprod jmode options) (hc : importedCommand L yprod s.cfg = some command)
    (hm : L.getString jmode = some rawMode) (ho : modeOf rawMode = modeOathHotp)
    (hr : RandomSeed L options) :
    ∃ f, importDocument L jobj s = (.fail,
        ⟨(s.cfg.withCommand command).withFlags f, some .ENORANDOM⟩) ∧
      ∀ field i, bit (f field) i ↔ bit (s.cfg.ykcoreConfig.flags field) i ∨
        ∃ p ∈ flagsMap field, ByMode L modeOathHotp options field p ∧
          p.capability s.cfg = true ∧ bit p.flag i := by
  obtain ⟨e, hrun⟩ := importDocument_run hp hc
  obtain ⟨f, hmode, hf⟩ := importMode_random hr ⟨s.cfg.withCommand command, e⟩
  refine ⟨f, ?_, fun field i => ?_⟩
  · rw [hrun, hm]
    dsimp only
    rw [ho]
    exact Proc.bind_fail hmode
  · have hcap : ∀ p ∈ flagsMap field,
        p.capability (s.cfg.withCommand command) = p.capability s.cfg :=
      capability_congr (s.cfg.withCommand_version command) field
    rw [hf]
    refine or_congr_right (exists_congr fun p => and_congr_right fun hp => ?_)
    rw [hcap p hp]

end Document

end YkPers
