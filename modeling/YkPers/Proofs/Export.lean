import YkPers.Proofs.LegacyExport

/-!
# What the length of an export says

The legacy export is right about its text unless the text ends where the memory does: the check
forgets the terminator. Where the text is longer it returns -1, which is no error to who asks for 0.
The other export cuts its text and returns what is left of it.
-/

namespace YkPers

section Lengths

variable {Y : Encoders} {L : JsonC}

/-- The call returns. Either the value stands for an error, or the memory holds the whole text and
the value is its length; without room for the text and its terminator, the value stands for an
error. -/
def ReportsWhole {S : Type} (isError : ℤ → Prop) (text : List Char) (len : ℕ)
    (run : Ret (List Char × ℤ) × S) : Prop :=
  ∃ out n, run.1 = .ok (out, n) ∧
    (¬ isError n → CString.read out = some text ∧ n = text.length) ∧
    (len < text.length + 1 → isError n)

theorem reportsWhole_iff {S : Type} {isError : ℤ → Prop} {text : List Char} {len : ℕ} {n : ℤ}
    {out : List Char} {s : S} :
    ReportsWhole isError text len ((.ok (out, n), s) : Ret (List Char × ℤ) × S) ↔
      (¬ isError n → CString.read out = some text ∧ n = text.length) ∧
        (len < text.length + 1 → isError n) := by
  constructor
  · rintro ⟨out', n', hrun, h⟩
    obtain ⟨rfl, rfl⟩ := Prod.mk.inj (Ret.ok.inj hrun)
    exact h
  · intro h
    exact ⟨out, n, rfl, h⟩

/-! ## The legacy export -/

/-- What the lines return, whether or not the last of them is cut. -/
theorem emitLines_snd (len : ℕ) : ∀ (lines : List (List Char)) (buf : List Char) (pos : ℕ),
    pos ≤ len → (emitLines len buf pos lines).2
      = if pos + lines.flatten.length ≤ len then ((pos + lines.flatten.length : ℕ) : ℤ) else -1
  | [], buf, pos, hpos => by
    rw [emitLines, List.flatten_nil, List.length_nil, Nat.add_zero, if_pos hpos]
  | line :: lines, buf, pos, hpos => by
    rw [emitLines, List.flatten_cons, List.length_append, ← Nat.add_assoc]
    by_cases hfits : pos + line.length > len
    · rw [if_pos hfits, if_neg (by omega)]
    · rw [if_neg hfits, emitLines_snd len lines _ _ (by omega)]

/-- The value that the legacy export returns. -/
theorem ykpLegacyExportConfig_value {S : Type} {cfg : YkpConfig}
    (hsize : FixedReadable cfg.ykcoreConfig) {buf : List Char} {len : ℕ} (hbuf : len ≤ buf.length)
    (s : S) : ykpLegacyExportConfig Y cfg buf len s
      = (.ok ((emitLines len buf 0 (legacyLines Y cfg)).1,
        if (legacyLines Y cfg).flatten.length ≤ len then
          ((legacyLines Y cfg).flatten.length : ℤ) else -1), s) := by
  have hvalue := emitLines_snd len (legacyLines Y cfg) buf 0 (Nat.zero_le _)
  rw [Nat.zero_add] at hvalue
  rw [ykpLegacyExportConfig, if_neg (Nat.not_lt.2 hbuf),
    if_neg fun h => hsize.elim h.1 (Nat.not_le.2 h.2), Proc.pure_run, ← hvalue]

theorem ykpLegacyExportConfig_fault {S : Type} {cfg : YkpConfig}
    (hsize : ¬ FixedReadable cfg.ykcoreConfig) (buf : List Char) (len : ℕ) (s : S) :
    (ykpLegacyExportConfig Y cfg buf len s).1 = .fault := by
  obtain ⟨hid, hlong⟩ := not_or.1 hsize
  unfold ykpLegacyExportConfig
  by_cases hbuf : buf.length < len
  · rw [if_pos hbuf]
    rfl
  · rw [if_neg hbuf, if_pos ⟨hid, Nat.not_le.1 hlong⟩]
    rfl

/-- Where -1 is an error, a text that ends with the memory is reported as whole all the same. -/
theorem legacy_reportsWhole_iff {S : Type} (hY : Y.Documented) (cfg : YkpConfig)
    {buf : List Char} {len : ℕ} (hpos : 1 ≤ len) (hbuf : len ≤ buf.length) (s : S) :
    let text := (legacyLines Y cfg).flatten
    let run := ykpLegacyExportConfig Y cfg buf len s
    (ReportsWhole (· = 0) text len run ↔
      FixedReadable cfg.ykcoreConfig ∧ text.length < len) ∧
    (ReportsWhole (· ≤ 0) text len run ↔
      FixedReadable cfg.ykcoreConfig ∧ text.length ≠ len) := by
  intro text run
  by_cases hsize : FixedReadable cfg.ykcoreConfig
  · have hvalue := ykpLegacyExportConfig_value (Y := Y) hsize hbuf s
    have hwhole : text.length < len → ∃ out, run = (.ok (out, (text.length : ℤ)), s) ∧
        CString.read out = some text := fun h => ykpLegacyExportConfig_fits hY hsize hbuf h s
    rw [and_iff_right hsize, and_iff_right hsize]
    rcases Nat.lt_trichotomy text.length len with hlt | heq | hgt
    · obtain ⟨out, hrun, hread⟩ := hwhole hlt
      rw [hrun, reportsWhole_iff, reportsWhole_iff]
      exact ⟨iff_of_true ⟨fun _ => ⟨hread, rfl⟩, fun h => absurd h (by omega)⟩ hlt,
        iff_of_true ⟨fun _ => ⟨hread, rfl⟩, fun h => absurd h (by omega)⟩ (by omega)⟩
    · have hrun : run = (.ok ((emitLines len buf 0 (legacyLines Y cfg)).1,
          (text.length : ℤ)), s) := by
        rw [if_pos (Nat.le_of_eq heq)] at hvalue
        exact hvalue
      rw [hrun, reportsWhole_iff, reportsWhole_iff]
      refine ⟨iff_of_false (fun h => ?_) (by omega), iff_of_false (fun h => ?_) (by omega)⟩
      · have := h.2 (by omega)
        omega
      · have := h.2 (by omega)
        omega
    · have hrun : run = (.ok ((emitLines len buf 0 (legacyLines Y cfg)).1, -1), s) := by
        rw [if_neg (Nat.not_le.2 hgt)] at hvalue
        exact hvalue
      rw [hrun, reportsWhole_iff, reportsWhole_iff]
      refine ⟨iff_of_false (fun h => ?_) (by omega), iff_of_true ⟨?_, fun _ => by omega⟩ (by omega)⟩
      · exact absurd (h.2 (by omega)) (by decide)
      · exact fun h => absurd (show (-1 : ℤ) ≤ 0 by decide) h
  · have hfault : ∀ isError : ℤ → Prop, ¬ ReportsWhole isError text len run := by
      rintro isError ⟨out, n, hrun, -⟩
      have hstop : run.1 = .fault := ykpLegacyExportConfig_fault hsize buf len s
      rw [hstop] at hrun
      cases hrun
    exact ⟨iff_of_false (hfault _) fun h => hsize h.1, iff_of_false (hfault _) fun h => hsize h.1⟩

/-! ## The export as a document -/

theorem json_reportsWhole_iff {S : Type} {cfg : YkpConfig} {buf : List Char} {len : ℕ}
    (hpos : 1 ≤ len) (hbuf : len ≤ buf.length) (s : S) {isError : ℤ → Prop}
    (hzero : isError 0) (herror : ∀ n : ℕ, isError n → n = 0) :
    let text := L.toJsonString (exportDocument Y cfg)
    ReportsWhole isError text len
        ((do
          let p ← ykpJsonExportCfg Y L cfg buf len
          pure (p.1, (p.2 : ℤ)) : Proc S (List Char × ℤ)) s) ↔
      text.length < len ∨ len = 1 := by
  intro text
  obtain ⟨out, hrun, hread⟩ := ykpJsonExportCfg_run L Y cfg hbuf hpos s
  rw [Proc.bind_ok hrun, Proc.pure_run, reportsWhole_iff]
  change CString.read out = some (text.take (len - 1)) at hread
  constructor
  · rintro ⟨-, hshort⟩
    by_contra hbad
    have hzero := herror _ (hshort (by omega))
    change (text.take (len - 1)).length = 0 at hzero
    rw [List.length_take] at hzero
    omega
  · rintro (hfits | rfl)
    · rw [List.take_of_length_le (by omega)] at hread
      refine ⟨fun _ => ⟨hread, ?_⟩, fun h => absurd h (by omega)⟩
      change ((text.take (len - 1)).length : ℤ) = text.length
      rw [List.take_of_length_le (by omega)]
    · exact ⟨fun h => absurd hzero h, fun _ => hzero⟩

/-- An export reports the whole text as far as its text and a terminator fit, and a document also
where nothing but the terminator does; a fixed part must be read within its bounds. Where -1 is an
error too, a legacy text may also be longer than the memory. -/
theorem ykpExportConfig_whole_iff (hY : Y.Documented) {cfg : YkpConfig} {buf : List Char} {len : ℕ}
    (hpos : 1 ≤ len) (hbuf : len ≤ buf.length) (s : YkpState) :
    let json := L.toJsonString (exportDocument Y cfg)
    let legacy := (legacyLines Y cfg).flatten
    let run := fun format => ykpExportConfig Y L cfg buf len format s
    (ReportsWhole (· = 0) json len (run ykpFormatYcfg) ↔ json.length < len ∨ len = 1) ∧
    (ReportsWhole (· = 0) legacy len (run ykpFormatLegacy) ↔
      FixedReadable cfg.ykcoreConfig ∧ legacy.length < len) ∧
    (ReportsWhole (· ≤ 0) json len (run ykpFormatYcfg) ↔ json.length < len ∨ len = 1) ∧
    (ReportsWhole (· ≤ 0) legacy len (run ykpFormatLegacy) ↔
      FixedReadable cfg.ykcoreConfig ∧ legacy.length ≠ len) := by
  intro json legacy run
  have hycfg : run ykpFormatYcfg = (do
      let p ← ykpJsonExportCfg Y L cfg buf len
      pure (p.1, (p.2 : ℤ)) : Proc YkpState (List Char × ℤ)) s := rfl
  have hlegacy : run ykpFormatLegacy = ykpLegacyExportConfig Y cfg buf len s := rfl
  obtain ⟨hstrict, hlenient⟩ := legacy_reportsWhole_iff hY cfg hpos hbuf s
  rw [hycfg, hlegacy]
  refine ⟨json_reportsWhole_iff hpos hbuf s rfl fun n h => ?_, hstrict,
    json_reportsWhole_iff hpos hbuf s (Int.le_refl 0) fun n h => ?_, hlenient⟩
  · exact Int.ofNat_eq_zero.1 h
  · exact Int.ofNat_eq_zero.1 (Int.le_antisymm h (Int.natCast_nonneg n))

end Lengths

section Runs

open ScriptedJson (libyubikey jsonC)

theorem ykpExportConfig_whole_slot :
    let cfg := oathConfig [1, 2]
    ReportsWhole (· = 0) (legacyLines libyubikey cfg).flatten 1024
      (ykpExportConfig libyubikey (jsonC []) cfg (List.replicate 1024 ' ') 1024 ykpFormatLegacy
        ⟨cfg, none⟩) := by
  intro cfg
  have hsize : FixedReadable cfg.ykcoreConfig := .inr (by decide)
  have hbuf : 1024 ≤ (List.replicate 1024 ' ').length := by rw [List.length_replicate]
  have hfits := length_legacyLines_lt documented_libyubikey hsize
  exact (ykpExportConfig_whole_iff documented_libyubikey (L := jsonC []) (by decide) hbuf
    ⟨cfg, none⟩).2.1.2 ⟨hsize, hfits⟩

/-- The last newline is missing from the memory, and counted. -/
theorem legacy_export_cut :
    let cfg := oathConfig [1, 2]
    let text := (legacyLines libyubikey cfg).flatten
    let run := ykpExportConfig libyubikey (jsonC []) cfg (List.replicate text.length ' ')
      text.length ykpFormatLegacy ⟨cfg, none⟩
    (∃ out, run.1 = .ok (out, (text.length : ℤ)) ∧ CString.read out = some text.dropLast) ∧
      ¬ ReportsWhole (· = 0) text text.length run ∧
      ¬ ReportsWhole (· ≤ 0) text text.length run := by
  intro cfg text run
  have hsize : FixedReadable cfg.ykcoreConfig := .inr (by decide)
  have hbuf : text.length ≤ (List.replicate text.length ' ').length := by
    rw [List.length_replicate]
  have hvalue := ykpLegacyExportConfig_value (Y := libyubikey) hsize hbuf
    (⟨cfg, none⟩ : YkpState)
  rw [if_pos (Nat.le_refl _)] at hvalue
  have hread : CString.read (emitLines text.length (List.replicate text.length ' ') 0
      (legacyLines libyubikey cfg)).1 = some text.dropLast := by decide +kernel
  have hpos : 1 ≤ text.length := by decide +kernel
  obtain ⟨hstrict, hlenient⟩ := legacy_reportsWhole_iff documented_libyubikey _ hpos hbuf
    (⟨cfg, none⟩ : YkpState)
  exact ⟨⟨_, congrArg Prod.fst hvalue, hread⟩, fun h => Nat.lt_irrefl _ (hstrict.1 h).2,
    fun h => (hlenient.1 h).2 rfl⟩

end Runs

end YkPers
