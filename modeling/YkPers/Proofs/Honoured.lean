import YkPers.Proofs.Import

/-!
# What an accepted document comes to

In the flags of an import from a cleared configuration a few bits tell the mode. They tell the one
of the document if the firmware has it, and an option that is true is there if the firmware has
it: the entries listed for a mode share no bit with each other or with the mode's own, apart from
the bit of `SHORT_TICKET` and `OATH_HOTP8`.
-/

namespace YkPers

/-! ## Bits -/

instance (x : UInt8) (i : ℕ) : Decidable (bit x i) := inferInstanceAs (Decidable (_ = true))

theorem lt_of_bit {x : UInt8} {i : ℕ} (h : bit x i) : i < 8 := BitVec.lt_of_getLsbD h

/-- A flag whose bits are those of a list. -/
theorem and_eq_iff_bits (f : UInt8) (is : List ℕ) (h : ∀ i < 8, bit f i ↔ i ∈ is) (x : UInt8) :
    x &&& f = f ↔ ∀ i ∈ is, i < 8 → bit x i := by
  rw [and_eq_iff]
  exact ⟨fun hx i hi hlt => hx i ((h i hlt).2 hi),
    fun hx i hi => hx i ((h i (lt_of_bit hi)).1 hi) (lt_of_bit hi)⟩

theorem exists_bit {x : UInt8} (h : x ≠ 0) : ∃ i, bit x i := by
  by_contra hn
  exact h (eq_of_bit fun i => iff_of_false (fun hi => hn ⟨i, hi⟩) (bit_zero i))

theorem and_ne_zero {x y : UInt8} {i : ℕ} (hx : bit x i) (hy : bit y i) : x &&& y ≠ 0 := by
  intro h
  have hi : bit (x &&& y) i := (bit_and x y i).2 ⟨hx, hy⟩
  rw [h] at hi
  exact bit_zero i hi

theorem oathHotp_iff (x : UInt8) : x &&& tktflagOathHotp = tktflagOathHotp ↔ bit x 6 := by
  simp [and_eq_iff_bits tktflagOathHotp [6] (by decide) x]

theorem oathHotp8_iff (x : UInt8) : x &&& cfgflagOathHotp8 = cfgflagOathHotp8 ↔ bit x 1 := by
  simp [and_eq_iff_bits cfgflagOathHotp8 [1] (by decide) x]

theorem staticTicket_iff (x : UInt8) :
    x &&& cfgflagStaticTicket = cfgflagStaticTicket ↔ bit x 5 := by
  simp [and_eq_iff_bits cfgflagStaticTicket [5] (by decide) x]

theorem chalHmac_iff (x : UInt8) :
    x &&& cfgflagChalHmac = cfgflagChalHmac ↔ bit x 1 ∧ bit x 5 := by
  simp [and_eq_iff_bits cfgflagChalHmac [1, 5] (by decide) x]

/-- The exported mode by the bits that it looks at. -/
theorem exportMode_eq (c : YkConfig) : exportMode c =
    if bit c.tktFlags 6 then
      if bit c.cfgFlags 5 then if bit c.cfgFlags 1 then modeChalHmac else modeChalYubico
      else modeOathHotp
    else if bit c.cfgFlags 5 then modeStaticTicket
    else modeOtpYubico := by
  have hyubico : c.cfgFlags &&& cfgflagChalYubico = cfgflagChalYubico ↔ bit c.cfgFlags 5 :=
    staticTicket_iff c.cfgFlags
  simp only [exportMode, oathHotp_iff, chalHmac_iff, hyubico, staticTicket_iff]
  by_cases h5 : bit c.cfgFlags 5 <;> by_cases h1 : bit c.cfgFlags 1 <;> simp [h5, h1]

/-! ## Names of modes -/

theorem modeOf_of_mem : ∀ m ∈ modesMap, modeOf m.2 = m.1 := by decide

theorem modeOf_of_notMem {rawMode : String} (h : ¬ ∃ m ∈ modesMap, m.2 = rawMode) :
    modeOf rawMode = modeOtpYubico := by
  rw [modeOf, List.find?_eq_none.2 fun m hm => by simpa using fun he => h ⟨m, hm, he⟩]
  rfl

theorem modeOf_mem (rawMode : String) : modeOf rawMode ∈ modesMap.map Prod.fst := by
  by_cases h : ∃ m ∈ modesMap, m.2 = rawMode
  · obtain ⟨m, hm, rfl⟩ := h
    rw [modeOf_of_mem m hm]
    exact List.mem_map_of_mem hm
  · rw [modeOf_of_notMem h]
    decide

theorem mode_cases {mode : UInt8} (h : mode ∈ modesMap.map Prod.fst) :
    mode = modeOathHotp ∨ mode = modeChalHmac ∨ mode = modeStaticTicket ∨
      mode = modeChalYubico ∨ mode = modeOtpYubico := by
  simpa [modesMap] using h

/-- A name stands for a mode other than the default one only if it is its own. -/
theorem modeOf_eq_iff {m : UInt8 × String} (hm : m ∈ modesMap) (hne : m.1 ≠ modeOtpYubico)
    {rawMode : String} : modeOf rawMode = m.1 ↔ rawMode = m.2 := by
  refine ⟨fun h => ?_, fun h => h ▸ modeOf_of_mem m hm⟩
  by_cases hn : ∃ n ∈ modesMap, n.2 = rawMode
  · obtain ⟨n, hn, rfl⟩ := hn
    rw [modeOf_of_mem n hn] at h
    have hinj : ∀ m ∈ modesMap, ∀ n ∈ modesMap, n.1 = m.1 → n.2 = m.2 := by decide
    exact hinj m hm n hn h
  · exact absurd (h.symm.trans (modeOf_of_notMem hn)) hne

/-! ## The flags of an import -/

/-- The entry at a place of its table, from its name. -/
theorem eq_of_flagText (field : FlagField) (i : ℕ) {p q : MapSt} (hp : p ∈ flagsMap field)
    (hq : (flagsMap field)[i]? = some q) (h : p.flagText = q.flagText) : p = q :=
  flagText_inj hp (List.mem_of_getElem? hq) h

/-- The flags that an import into a cleared configuration leaves. -/
def Sets (L : JsonC) (mode : UInt8) (options : Json) (c : YkpConfig) (f : FlagField → UInt8) :
    Prop :=
  ∀ field i, bit (f field) i ↔ ∃ p ∈ flagsMap field, Wanted L mode options field p ∧
    p.capability c = true ∧ bit p.flag i

section Bits

variable {L : JsonC} {mode : UInt8} {options : Json} {c : YkpConfig} {f : FlagField → UInt8}

theorem wanted_unlisted {field : FlagField} {p : MapSt} (h : p.jsonText = none) :
    Wanted L mode options field p ↔ ByMode L mode options field p := by
  refine or_iff_left ?_
  rintro ⟨text, ⟨htext, -⟩, -⟩
  simp [h] at htext

theorem byMode_iff (field : FlagField) (p : MapSt) : ByMode L mode options field p ↔
    mode = modeOathHotp ∧ ((field, p.flagText) = (.tkt, "OATH_HOTP") ∨
        DigitsEight L options ∧ (field, p.flagText) = (.cfg, "OATH_HOTP8")) ∨
      mode = modeChalHmac ∧
        ((field, p.flagText) = (.tkt, "CHAL_RESP") ∨ (field, p.flagText) = (.cfg, "CHAL_HMAC")) ∨
      mode = modeChalYubico ∧
        ((field, p.flagText) = (.tkt, "CHAL_RESP") ∨ (field, p.flagText) = (.cfg, "CHAL_YUBICO")) ∨
      mode = modeStaticTicket ∧ (field, p.flagText) = (.cfg, "STATIC_TICKET") := by
  have h1 : modeChalHmac ≠ modeOathHotp := by decide
  have h2 : modeChalYubico ≠ modeOathHotp ∧ modeChalYubico ≠ modeChalHmac := by decide
  have h3 : modeStaticTicket ≠ modeOathHotp ∧ modeStaticTicket ≠ modeChalHmac ∧
    modeStaticTicket ≠ modeChalYubico := by decide
  unfold ByMode modeFlags
  by_cases ho : mode = modeOathHotp
  · simp [ho, h1.symm, h2.1.symm, h3.1.symm]
  by_cases hh : mode = modeChalHmac
  · simp [hh, h1, h2.2.symm, h3.2.1.symm]
  by_cases hy : mode = modeChalYubico
  · simp [hy, h2, h3.2.2.symm]
  by_cases hs : mode = modeStaticTicket
  · simp [hs, h3]
  · simp [ho, hh, hy, hs]

theorem bit_tkt_six (hf : Sets L mode options c f) : bit (f .tkt) 6 ↔
    mode = modeOathHotp ∧ capabilityHasOath c = true ∨
      (mode = modeChalHmac ∨ mode = modeChalYubico) ∧ capabilityHasChalResp c = true := by
  have hnames : ∀ p ∈ ticketFlagsMap, bit p.flag 6 →
      p.flagText = "OATH_HOTP" ∨ p.flagText = "CHAL_RESP" := by decide
  rw [hf]
  constructor
  · rintro ⟨p, hp, hw, hc, hb⟩
    rcases hnames p hp hb with ht | ht
    · obtain rfl := eq_of_flagText .tkt 7 hp rfl ht
      rw [wanted_unlisted rfl, byMode_iff] at hw
      exact .inl ⟨by simpa using hw, hc⟩
    · obtain rfl := eq_of_flagText .tkt 8 hp rfl ht
      rw [wanted_unlisted rfl, byMode_iff] at hw
      exact .inr ⟨by simpa using hw, hc⟩
  · rintro (⟨hm, hc⟩ | ⟨hm, hc⟩)
    · refine ⟨ticketFlagsMap[7], List.getElem_mem _, ?_, hc, by decide⟩
      rw [wanted_unlisted rfl, byMode_iff]
      exact .inl ⟨hm, .inl rfl⟩
    · refine ⟨ticketFlagsMap[8], List.getElem_mem _, ?_, hc, by decide⟩
      rw [wanted_unlisted rfl, byMode_iff]
      rcases hm with hm | hm
      · exact .inr (.inl ⟨hm, .inl rfl⟩)
      · exact .inr (.inr (.inl ⟨hm, .inl rfl⟩))

theorem bit_cfg_five (hf : Sets L mode options c f) (hm : mode ∈ modesMap.map Prod.fst) :
    bit (f .cfg) 5 ↔
      (mode = modeChalHmac ∨ mode = modeChalYubico) ∧ capabilityHasChalResp c = true ∨
        mode = modeStaticTicket ∧ capabilityHasStatic c = true := by
  have hnames : ∀ p ∈ configFlagsMap, bit p.flag 5 → p.flagText = "CHAL_YUBICO" ∨
      p.flagText = "CHAL_HMAC" ∨ p.flagText = "STATIC_TICKET" := by decide
  have hstatic : configFlagsMap[13].isFor mode = true → mode = modeStaticTicket := fun hfor => by
    rcases mode_cases hm with rfl | rfl | rfl | rfl | rfl <;>
      first | rfl | exact absurd hfor (by decide)
  rw [hf]
  constructor
  · rintro ⟨p, hp, hw, hc, hb⟩
    rcases hnames p hp hb with ht | ht | ht
    · obtain rfl := eq_of_flagText .cfg 0 hp rfl ht
      rw [wanted_unlisted rfl, byMode_iff] at hw
      exact .inl ⟨.inr (by simpa using hw), hc⟩
    · obtain rfl := eq_of_flagText .cfg 1 hp rfl ht
      rw [wanted_unlisted rfl, byMode_iff] at hw
      exact .inl ⟨.inl (by simpa using hw), hc⟩
    · obtain rfl := eq_of_flagText .cfg 13 hp rfl ht
      refine .inr ⟨?_, hc⟩
      rcases hw with hw | ⟨text, ⟨-, -, hfor⟩, -⟩
      · rw [byMode_iff] at hw
        simpa using hw
      · exact hstatic hfor
  · rintro (⟨hm | hm, hc⟩ | ⟨hm, hc⟩)
    · refine ⟨configFlagsMap[1], List.getElem_mem _, ?_, hc, by decide⟩
      rw [wanted_unlisted rfl, byMode_iff]
      exact .inr (.inl ⟨hm, .inr rfl⟩)
    · refine ⟨configFlagsMap[0], List.getElem_mem _, ?_, hc, by decide⟩
      rw [wanted_unlisted rfl, byMode_iff]
      exact .inr (.inr (.inl ⟨hm, .inr rfl⟩))
    · refine ⟨configFlagsMap[13], List.getElem_mem _, .inl ?_, hc, by decide⟩
      rw [byMode_iff]
      exact .inr (.inr (.inr ⟨hm, rfl⟩))

/-- The option that shares the bit of eight digits. -/
def ShortTicket (L : JsonC) (mode : UInt8) (options : Json) : Prop :=
  Asked L mode options configFlagsMap[14]

theorem bit_cfg_one (hf : Sets L mode options c f) : bit (f .cfg) 1 ↔
    mode = modeChalHmac ∧ capabilityHasChalResp c = true ∨
      mode = modeOathHotp ∧ DigitsEight L options ∧ capabilityHasOath c = true ∨
        ShortTicket L mode options ∧ capabilityHasStaticExtras c = true := by
  have hnames : ∀ p ∈ configFlagsMap, bit p.flag 1 → p.flagText = "CHAL_HMAC" ∨
      p.flagText = "OATH_HOTP8" ∨ p.flagText = "TICKET_FIRST" ∨ p.flagText = "SHORT_TICKET" := by
    decide
  rw [hf]
  constructor
  · rintro ⟨p, hp, hw, hc, hb⟩
    rcases hnames p hp hb with ht | ht | ht | ht
    · obtain rfl := eq_of_flagText .cfg 1 hp rfl ht
      rw [wanted_unlisted rfl, byMode_iff] at hw
      exact .inl ⟨by simpa using hw, hc⟩
    · obtain rfl := eq_of_flagText .cfg 4 hp rfl ht
      rw [wanted_unlisted rfl, byMode_iff] at hw
      obtain ⟨hm, hd⟩ : mode = modeOathHotp ∧ DigitsEight L options := by simpa using hw
      exact .inr (.inl ⟨hm, hd, hc⟩)
    · obtain rfl := eq_of_flagText .cfg 9 hp rfl ht
      rw [wanted_unlisted rfl, byMode_iff] at hw
      simp at hw
    · obtain rfl := eq_of_flagText .cfg 14 hp rfl ht
      refine .inr (.inr ⟨hw.resolve_left fun hw => ?_, hc⟩)
      rw [byMode_iff] at hw
      simp at hw
  · rintro (⟨hm, hc⟩ | ⟨hm, hd, hc⟩ | ⟨ha, hc⟩)
    · refine ⟨configFlagsMap[1], List.getElem_mem _, ?_, hc, by decide⟩
      rw [wanted_unlisted rfl, byMode_iff]
      exact .inr (.inl ⟨hm, .inr rfl⟩)
    · refine ⟨configFlagsMap[4], List.getElem_mem _, ?_, hc, by decide⟩
      rw [wanted_unlisted rfl, byMode_iff]
      exact .inl ⟨hm, .inr ⟨hd, rfl⟩⟩
    · exact ⟨configFlagsMap[14], List.getElem_mem _, .inr ha, hc, by decide⟩

/-- The capability that a mode needs. -/
def modeCapability (mode : UInt8) : YkpConfig → Bool :=
  if mode = modeOathHotp then capabilityHasOath
  else if mode = modeChalHmac ∨ mode = modeChalYubico then capabilityHasChalResp
  else if mode = modeStaticTicket then capabilityHasStatic
  else vcheckAll

theorem not_bit_cfg_one_of_chalYubico (hf : Sets L modeChalYubico options c f) :
    ¬ bit (f .cfg) 1 := by
  rw [bit_cfg_one hf]
  rintro (⟨hm, -⟩ | ⟨hm, -⟩ | ⟨⟨text, ⟨-, -, hfor⟩, -⟩, -⟩)
  · exact absurd hm (by decide)
  · exact absurd hm (by decide)
  · exact absurd hfor (by decide)

/-- The exporter computes the mode of the document if the firmware has what the mode needs. -/
theorem exportMode_withFlags (hf : Sets L mode options c f) (hm : mode ∈ modesMap.map Prod.fst)
    (c' : YkpConfig) :
    exportMode (c'.withFlags f).ykcoreConfig = mode ↔ modeCapability mode c = true := by
  have h6 := bit_tkt_six hf
  have h5 := bit_cfg_five hf hm
  have hmodes : mode = modeOathHotp ∨ mode = modeChalHmac ∨ mode = modeStaticTicket ∨
      mode = modeChalYubico ∨ mode = modeOtpYubico := by simpa [modesMap] using hm
  rw [exportMode_eq]
  simp only [YkpConfig.withFlags, h6, h5]
  rcases hmodes with rfl | rfl | rfl | rfl | rfl
  · rcases hc : capabilityHasOath c with _ | _ <;>
      simp [modeCapability, modeOathHotp, modeChalHmac, modeStaticTicket, modeChalYubico,
        modeOtpYubico, hc]
  · rcases hc : capabilityHasChalResp c with _ | _
    · simp [modeCapability, modeOathHotp, modeChalHmac, modeStaticTicket, modeChalYubico,
        modeOtpYubico, hc]
    · have h1 : bit (f .cfg) 1 := (bit_cfg_one hf).2 (.inl ⟨rfl, hc⟩)
      simp [modeCapability, modeOathHotp, modeChalHmac, hc, h1]
  · rcases hc : capabilityHasStatic c with _ | _ <;>
      simp [modeCapability, modeOathHotp, modeChalHmac, modeStaticTicket, modeChalYubico,
        modeOtpYubico, hc]
  · have h1 := not_bit_cfg_one_of_chalYubico hf
    rcases hc : capabilityHasChalResp c with _ | _ <;>
      simp [modeCapability, modeOathHotp, modeChalHmac, modeStaticTicket, modeChalYubico,
        modeOtpYubico, hc, h1]
  · simp [modeCapability, vcheckAll, modeOathHotp, modeChalHmac, modeStaticTicket,
      modeChalYubico, modeOtpYubico]

/-! ## The options -/

/-- An entry that an import may set in a mode. -/
def settable (mode : UInt8) (field : FlagField) (p : MapSt) : Bool :=
  (field, p.flagText) ∈ modeFlags mode ||
    (mode = modeOathHotp && field = .cfg && p.flagText = "OATH_HOTP8") ||
    (p.jsonText.isSome && p.isFor mode)

theorem settable_of_wanted {field : FlagField} {p : MapSt} (h : Wanted L mode options field p) :
    settable mode field p = true := by
  rcases h with (h | ⟨hm, -, ht⟩) | ⟨text, ⟨ht, -, hfor⟩, -⟩
  · simp [settable, h]
  · rw [Prod.mk.injEq] at ht
    simp [settable, hm, ht.1, ht.2]
  · simp [settable, ht, hfor]

/-- The entries of a mode share no bit, but for the two. -/
theorem settable_disjoint : ∀ mode ∈ modesMap.map Prod.fst, ∀ field, ∀ p ∈ flagsMap field,
    ∀ q ∈ flagsMap field, p.jsonText.isSome = true → p.isFor mode = true →
      settable mode field q = true → p.flag &&& q.flag ≠ 0 → p.flagText ≠ q.flagText →
        mode = modeOathHotp ∧ p.flagText = "SHORT_TICKET" ∧ q.flagText = "OATH_HOTP8" := by
  have hfields : ∀ field : FlagField, field ∈ [FlagField.tkt, .cfg, .ext] := by
    intro field
    cases field <;> decide
  have htables : ∀ m ∈ modesMap, ∀ field ∈ [FlagField.tkt, .cfg, .ext],
      ∀ p ∈ flagsMap field, ∀ q ∈ flagsMap field, p.jsonText.isSome = true →
        p.isFor m.1 = true → settable m.1 field q = true → p.flag &&& q.flag ≠ 0 →
          p.flagText ≠ q.flagText →
            m.1 = modeOathHotp ∧ p.flagText = "SHORT_TICKET" ∧ q.flagText = "OATH_HOTP8" := by
    decide +kernel
  intro mode hm field
  obtain ⟨m, hmem, rfl⟩ := List.mem_map.1 hm
  exact htables m hmem field (hfields field)

theorem flag_ne_zero (field : FlagField) : ∀ p ∈ flagsMap field, p.flag ≠ 0 := by
  cases field <;> decide

/-- An option that is true is set if and only if the firmware has it, or the digits set its bit. -/
theorem and_flag_iff (hf : Sets L mode options c f) (hm : mode ∈ modesMap.map Prod.fst)
    {field : FlagField} {p : MapSt} (hp : p ∈ flagsMap field) (ha : Asked L mode options p) :
    f field &&& p.flag = p.flag ↔ p.capability c = true ∨
      mode = modeOathHotp ∧ p.flagText = "SHORT_TICKET" ∧ DigitsEight L options ∧
        capabilityHasOath c = true := by
  rw [and_eq_iff]
  constructor
  · intro h
    obtain ⟨i, hi⟩ := exists_bit (flag_ne_zero field p hp)
    obtain ⟨q, hq, hw, hc, hb⟩ := (hf field i).1 (h i hi)
    by_cases ht : p.flagText = q.flagText
    · obtain rfl := flagText_inj hp hq ht
      exact .inl hc
    · obtain ⟨text, ⟨htext, -, hfor⟩, -⟩ := ha
      obtain ⟨ho, hs, h8⟩ := settable_disjoint mode hm field p hp q hq (by simp [htext]) hfor
        (settable_of_wanted hw) (and_ne_zero hi hb) ht
      have hfield : ∀ field, ∀ q ∈ flagsMap field, q.flagText = "OATH_HOTP8" → field = .cfg := by
        intro field
        cases field <;> decide
      obtain rfl := hfield field q hq h8
      obtain rfl := eq_of_flagText .cfg 4 hq rfl h8
      rw [wanted_unlisted rfl, byMode_iff] at hw
      have hd : mode = modeOathHotp ∧ DigitsEight L options := by simpa using hw
      exact .inr ⟨ho, hs, hd.2, hc⟩
  · rintro (hc | ⟨ho, hs, hd, hc⟩) i hi
    · exact (hf field i).2 ⟨p, hp, .inr ha, hc, hi⟩
    · have hfield : ∀ field, ∀ p ∈ flagsMap field, p.flagText = "SHORT_TICKET" → field = .cfg := by
        intro field
        cases field <;> decide
      obtain rfl := hfield field p hp hs
      obtain rfl := eq_of_flagText .cfg 14 hp rfl hs
      refine (hf .cfg i).2 ⟨configFlagsMap[4], List.getElem_mem _, ?_, hc, hi⟩
      rw [wanted_unlisted rfl, byMode_iff]
      exact .inl ⟨ho, .inr ⟨hd, rfl⟩⟩

end Bits

/-! ## The moving factor -/

theorem capabilityHasOathImf_congr {c c' : YkpConfig} (hv : c'.version = c.version) :
    capabilityHasOathImf c' = capabilityHasOathImf c := by
  simp only [YkpConfig.version, Prod.mk.injEq] at hv
  simp only [capabilityHasOathImf, vcheckV22OrGreater, vcheckV2OrGreater, vcheckNeoAfter6,
    vcheckNeo, hv.1, hv.2.1, hv.2.2]

theorem ykpGetOathImf_congr {c c' : YkpConfig} (hv : c'.version = c.version)
    (hu : c'.ykcoreConfig.uid = c.ykcoreConfig.uid) : ykpGetOathImf c' = ykpGetOathImf c := by
  rw [ykpGetOathImf, ykpGetOathImf, capabilityHasOathImf_congr hv, hu]

theorem ykpGetOathImf_withImf {c : YkpConfig} {imf : ℕ} (h : ImfAccepted c imf) :
    ykpGetOathImf (c.withImf imf) = imf := by
  obtain ⟨h1, h2, h3⟩ := h
  have hcap : capabilityHasOathImf (c.withImf imf) = true := h1
  have hhigh : (UInt8.ofNat (imf / 16 / 256)).toNat = imf / 16 / 256 := by
    rw [UInt8.toNat_ofNat']
    omega
  have hlow : (UInt8.ofNat (imf / 16)).toNat = imf / 16 % 256 := UInt8.toNat_ofNat'
  rw [ykpGetOathImf, if_neg (not_not.2 hcap)]
  simp only [YkpConfig.withImf, Vector.getElem_set_ne, Vector.getElem_set_self, ne_eq,
    Nat.reduceEqDiff, not_false_eq_true, hhigh, hlow]
  rw [← Nat.shiftLeft_add_eq_or_of_lt (by omega), Nat.shiftLeft_eq, Nat.shiftLeft_eq]
  omega

theorem sizeT_eq_toInt {n : Int32} (h : sizeT n < 2 ^ 31) : (sizeT n : ℤ) = n.toInt := by
  have hmin := n.minValue_le_toInt
  have hmax := n.toInt_lt
  rw [Int32.toInt_minValue] at hmin
  rw [sizeT] at h ⊢
  omega

/-! ## Documents that are honoured -/

/-- All that the document says is in the configuration. -/
structure Honoured (L : JsonC) (yprod jmode options : Json) (s : YkpState) : Prop where
  mode : ∃ m ∈ modesMap, L.getString jmode = some m.2 ∧ exportMode s.cfg.ykcoreConfig = m.1
  target : ∀ j, yprod.get "targetConfig" = some j →
    ∃ n : ℕ, (ykpConfigNum s).1 = .ok n ∧ (n : ℤ) = (L.getInt j).toInt
  digits : DigitsEight L options →
    s.cfg.ykcoreConfig.cfgFlags &&& cfgflagOathHotp8 = cfgflagOathHotp8
  seed : L.getString jmode = some "oathHOTP" → ∀ j, options.get "fixedSeedvalue" = some j →
    (ykpGetOathImf s.cfg : ℤ) = (L.getInt j).toInt
  flags : ∀ m ∈ modesMap, L.getString jmode = some m.2 → ∀ field, ∀ p ∈ flagsMap field,
    Asked L m.1 options p → s.cfg.ykcoreConfig.flags field &&& p.flag = p.flag

/-- The firmware has all that the document says, and the document says it where it is read. -/
structure Honourable (L : JsonC) (yprod jmode options : Json) (c : YkpConfig) : Prop where
  mode : ∃ m ∈ modesMap, L.getString jmode = some m.2 ∧ modeCapability m.1 c = true
  target : ∀ j, yprod.get "targetConfig" = some j → L.getInt j = 2 →
    commandError c slotConfig2 = none
  digits : DigitsEight L options → L.getString jmode = some "oathHOTP" ∨
    L.getString jmode = some "hmacCR" ∨
      ∃ m ∈ modesMap, L.getString jmode = some m.2 ∧ ShortTicket L m.1 options
  seed : L.getString jmode = some "oathHOTP" → ∀ j, options.get "fixedSeedvalue" = some j →
    (options.get "randomSeed").isSome = true ∧ ImfAccepted c (sizeT (L.getInt j)) ∨
      (ykpGetOathImf c : ℤ) = (L.getInt j).toInt
  flags : ∀ m ∈ modesMap, L.getString jmode = some m.2 → ∀ field, ∀ p ∈ flagsMap field,
    Asked L m.1 options p → p.capability c = true ∨
      m.1 = modeOathHotp ∧ p.flagText = "SHORT_TICKET" ∧ DigitsEight L options

section Document

variable {L : JsonC} {yprod jmode options : Json} {c : YkpConfig}

theorem target_honoured_iff {command : UInt8} (h0 : c.command = 0)
    (hc : importedCommand L yprod c = some command) {s : YkpState} (hs : s.cfg.command = command) :
    (∀ j, yprod.get "targetConfig" = some j →
      ∃ n : ℕ, (ykpConfigNum s).1 = .ok n ∧ (n : ℤ) = (L.getInt j).toInt) ↔
    ∀ j, yprod.get "targetConfig" = some j → L.getInt j = 2 →
      commandError c slotConfig2 = none := by
  refine forall_congr' fun j => imp_congr_right fun hj => ?_
  have hnum : (ykpConfigNum s).1
      = .ok (if command = slotConfig then 1 else if command = slotConfig2 then 2 else 0) := by
    rw [ykpConfigNum, Proc.get_bind_run, hs]
    by_cases h1 : command = slotConfig
    · rw [if_pos h1, if_pos h1]
      rfl
    rw [if_neg h1, if_neg h1]
    by_cases h2 : command = slotConfig2
    · rw [if_pos h2, if_pos h2]
      rfl
    · rw [if_neg h2, if_neg h2]
      rfl
  simp only [importedCommand, hj] at hc
  by_cases h1 : L.getInt j = 1
  · have hone : targetCommand (L.getInt j) = some slotConfig := by rw [h1]; rfl
    have hok : commandError c slotConfig = none := if_pos rfl
    simp only [hone, if_true, h0, hok, Option.some.injEq] at hc
    subst hc
    exact iff_of_true ⟨1, hnum, by rw [h1]; rfl⟩ fun h2 => absurd (h1.symm.trans h2) (by decide)
  by_cases h2 : L.getInt j = 2
  · have htwo : targetCommand (L.getInt j) = some slotConfig2 := by rw [h2]; rfl
    simp only [htwo, if_true, h0, Option.some.injEq] at hc
    by_cases herr : commandError c slotConfig2 = none
    · rw [if_pos herr] at hc
      subst hc
      exact iff_of_true ⟨2, hnum, by rw [h2]; rfl⟩ fun _ => herr
    · rw [if_neg herr] at hc
      subst hc
      refine iff_of_false ?_ fun h => herr (h h2)
      rintro ⟨n, hn, hj⟩
      rw [h2] at hj
      obtain rfl : 0 = n := Ret.ok.inj (hnum.symm.trans hn)
      exact absurd hj (by decide)
  · simp [targetCommand, h1, h2] at hc

variable {rawMode : String} {f : FlagField → UInt8} {command : UInt8} {s : YkpState}

theorem seed_honoured_iff (hs : s.cfg
      = ((c.withCommand command).seeded L (modeOf "oathHOTP") options).withFlags f) :
    (∀ j, options.get "fixedSeedvalue" = some j →
      (ykpGetOathImf s.cfg : ℤ) = (L.getInt j).toInt) ↔
    ∀ j, options.get "fixedSeedvalue" = some j →
      (options.get "randomSeed").isSome = true ∧ ImfAccepted c (sizeT (L.getInt j)) ∨
        (ykpGetOathImf c : ℤ) = (L.getInt j).toInt := by
  refine forall_congr' fun j => imp_congr_right fun hj => ?_
  have hmode : modeOf "oathHOTP" = modeOathHotp := by decide
  have hseed : fixedSeed L options = L.getInt j := by simp [fixedSeed, hj]
  by_cases h : (options.get "randomSeed").isSome = true ∧ ImfAccepted c (sizeT (L.getInt j))
  · have hcfg : s.cfg = ((c.withCommand command).withImf (sizeT (L.getInt j))).withFlags f := by
      rw [hs, YkpConfig.seeded, hseed, if_pos ⟨hmode, h⟩]
    have hget : ykpGetOathImf s.cfg = sizeT (L.getInt j) := by
      rw [hcfg]
      exact ykpGetOathImf_withImf (c := (c.withCommand command).withFlags f) h.2
    refine iff_of_true ?_ (.inl h)
    rw [hget]
    exact sizeT_eq_toInt (lt_of_le_of_lt h.2.2.1 (by decide))
  · have hcfg : s.cfg = (c.withCommand command).withFlags f := by
      rw [hs, YkpConfig.seeded, hseed, if_neg fun h' => h h'.2]
    have hget : ykpGetOathImf s.cfg = ykpGetOathImf c := by
      rw [hcfg]
      exact ykpGetOathImf_congr rfl rfl
    rw [hget, or_iff_right h]

section Named

variable (hm : L.getString jmode = some rawMode)

include hm

theorem modeOf_of_named {m : UInt8 × String} (hmem : m ∈ modesMap)
    (hraw : L.getString jmode = some m.2) : modeOf rawMode = m.1 := by
  rw [← modeOf_of_mem m hmem, Option.some.inj (hm.symm.trans hraw)]

variable (hf : Sets L (modeOf rawMode) options c f)
  (hcap : modeCapability (modeOf rawMode) c = true)

include hf hcap

theorem flags_honoured_iff :
    (∀ m ∈ modesMap, L.getString jmode = some m.2 → ∀ field, ∀ p ∈ flagsMap field,
      Asked L m.1 options p → f field &&& p.flag = p.flag) ↔
    ∀ m ∈ modesMap, L.getString jmode = some m.2 → ∀ field, ∀ p ∈ flagsMap field,
      Asked L m.1 options p → p.capability c = true ∨
        m.1 = modeOathHotp ∧ p.flagText = "SHORT_TICKET" ∧ DigitsEight L options := by
  refine forall₂_congr fun m hmem => forall_congr' fun hraw => forall_congr' fun field =>
    forall₂_congr fun p hp => imp_congr_right fun ha => ?_
  have hmode := modeOf_of_named hm hmem hraw
  rw [← hmode] at ha ⊢
  rw [and_flag_iff hf (modeOf_mem rawMode) hp ha]
  refine or_congr_right ⟨fun h => ⟨h.1, h.2.1, h.2.2.1⟩, fun h => ⟨h.1, h.2.1, h.2.2, ?_⟩⟩
  rwa [h.1, modeCapability, if_pos rfl] at hcap

/-- Eight digits are read in two modes, and are an option of the others. -/
theorem digits_honoured_iff {m : UInt8 × String} (hmem : m ∈ modesMap)
    (hraw : L.getString jmode = some m.2)
    (hset : ∀ p ∈ configFlagsMap, Asked L m.1 options p → f .cfg &&& p.flag = p.flag) :
    (DigitsEight L options → f .cfg &&& cfgflagOathHotp8 = cfgflagOathHotp8) ↔
    (DigitsEight L options → L.getString jmode = some "oathHOTP" ∨
      L.getString jmode = some "hmacCR" ∨
        ∃ m ∈ modesMap, L.getString jmode = some m.2 ∧ ShortTicket L m.1 options) := by
  have hmode := modeOf_of_named hm hmem hraw
  refine imp_congr_right fun hd => ?_
  rw [oathHotp8_iff, bit_cfg_one hf]
  constructor
  · rintro (⟨ho, -⟩ | ⟨ho, -⟩ | ⟨hst, -⟩)
    · have hname := (modeOf_eq_iff (m := (modeChalHmac, "hmacCR")) (by decide) (by decide)).1 ho
      exact .inr (.inl (hm.trans (congrArg some hname)))
    · have hname := (modeOf_eq_iff (m := (modeOathHotp, "oathHOTP")) (by decide) (by decide)).1 ho
      exact .inl (hm.trans (congrArg some hname))
    · rw [hmode] at hst
      exact .inr (.inr ⟨m, hmem, hraw, hst⟩)
  · rintro (ho | ho | ⟨n, hn, hraw', hst⟩)
    · have ho := modeOf_of_named (m := (modeOathHotp, "oathHOTP")) hm (by decide) ho
      rw [ho, modeCapability, if_pos rfl] at hcap
      exact .inr (.inl ⟨ho, hd, hcap⟩)
    · have ho := modeOf_of_named (m := (modeChalHmac, "hmacCR")) hm (by decide) ho
      rw [ho] at hcap
      exact .inl ⟨ho, hcap⟩
    · have hsame : n.1 = m.1 := (modeOf_of_named hm hn hraw').symm.trans hmode
      rw [hsame] at hst
      have h1 := hset configFlagsMap[14] (List.getElem_mem _) hst
      exact (bit_cfg_one hf).1 ((oathHotp8_iff _).1 h1)

end Named

/-- An accepted document is honoured exactly where the firmware has what it says. -/
theorem honoured_iff (h0 : c.command = 0) (hc : importedCommand L yprod c = some command)
    (hm : L.getString jmode = some rawMode)
    (hs : s.cfg = ((c.withCommand command).seeded L (modeOf rawMode) options).withFlags f)
    (hf : Sets L (modeOf rawMode) options c f) :
    Honoured L yprod jmode options s ↔ Honourable L yprod jmode options c := by
  have hcmd : s.cfg.command = command := by rw [hs]; exact YkpConfig.seeded_command _
  have htarget := target_honoured_iff h0 hc hcmd
  have hexport : exportMode s.cfg.ykcoreConfig = modeOf rawMode ↔
      modeCapability (modeOf rawMode) c = true := by
    rw [hs]
    exact exportMode_withFlags hf (modeOf_mem rawMode) _
  have hseed : L.getString jmode = some "oathHOTP" → s.cfg
      = ((c.withCommand command).seeded L (modeOf "oathHOTP") options).withFlags f := fun h => by
    rw [hs, Option.some.inj (hm.symm.trans h)]
  obtain rfl : s.cfg.ykcoreConfig.flags = f := funext fun field => by rw [hs]; simp
  constructor
  · intro h
    obtain ⟨m, hmem, hraw, hx⟩ := h.mode
    have hmode := modeOf_of_named hm hmem hraw
    have hcap := hexport.1 (hx.trans hmode.symm)
    exact ⟨⟨m, hmem, hraw, hmode ▸ hcap⟩, htarget.1 h.target,
      (digits_honoured_iff hm hf hcap hmem hraw (h.flags m hmem hraw .cfg)).1 h.digits,
      fun ho => (seed_honoured_iff (hseed ho)).1 (h.seed ho),
      (flags_honoured_iff hm hf hcap).1 h.flags⟩
  · intro h
    obtain ⟨m, hmem, hraw, hcap⟩ := h.mode
    have hmode := modeOf_of_named hm hmem hraw
    rw [← hmode] at hcap
    have hflags := (flags_honoured_iff hm hf hcap).2 h.flags
    exact ⟨⟨m, hmem, hraw, (hexport.2 hcap).trans hmode⟩, htarget.2 h.target,
      (digits_honoured_iff hm hf hcap hmem hraw (hflags m hmem hraw .cfg)).2 h.digits,
      fun ho => (seed_honoured_iff (hseed ho)).2 (h.seed ho), hflags⟩

end Document

end YkPers
