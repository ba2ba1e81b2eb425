import Mathlib.Data.List.Flatten
import YkPers.Lib.Hex
import YkPers.ScriptedHost
import YkPers.ScriptedJson
import YkPers.Proofs.RoundTrip
import YkPers.YkpersExport

/-!
# What the legacy export shows

Its lines fit into 1024 bytes (`ykpLegacyExportConfig_ok`), and they can be read off the text. So
two configurations of one version with the same flags and the same text agree on the data that is
written, except for what a token identifier leaves out of the fixed part (`legacy_export_shows`).
-/

namespace YkPers

open CString (nul Plain IsLine)
open Hex (Alphabet)

/-- The encoders write each byte in its alphabet. -/
structure Encoders.Documented (Y : Encoders) : Prop where
  hex : ∀ bs, Y.yubikeyHexEncode bs = Alphabet.hex.encode bs
  modhex : ∀ bs, Y.yubikeyModhexEncode bs = Alphabet.modhex.encode bs

/-! ## The lines -/

section Lines

variable {Y : Encoders}

theorem plain_hex (bs : List UInt8) : Plain (Alphabet.hex.encode bs) :=
  Plain.subset (by decide : Plain Alphabet.hex.chars) fun _ => Hex.Alphabet.mem_encode

theorem plain_modhex (bs : List UInt8) : Plain (Alphabet.modhex.encode bs) :=
  Plain.subset (by decide : Plain Alphabet.modhex.chars) fun _ => Hex.Alphabet.mem_encode

theorem plain_toDigits (n : ℕ) : Plain (Nat.toDigits 16 n) :=
  Plain.subset (by decide : Plain Alphabet.hex.chars) fun _ => Hex.mem_toDigits n

theorem isLine_legacyLine {key : String} {value : List Char} (hkey : Plain key.toList)
    (hvalue : Plain value) : IsLine (legacyLine key value) :=
  ⟨_, (hkey.append (by decide : Plain strKeyValueSeparator.toList)).append hvalue, rfl⟩

theorem legacyLine_inj {key : String} {v w : List Char} (h : legacyLine key v = legacyLine key w) :
    v = w :=
  List.append_cancel_left (List.append_cancel_right h)

theorem length_legacyLine (key : String) (value : List Char) :
    (legacyLine key value).length = key.toList.length + value.length + 3 := by
  have hsep : strKeyValueSeparator.toList.length = 2 := rfl
  rw [legacyLine, List.length_append, List.length_append, List.length_append, hsep,
    List.length_singleton]
  omega

/-! ## The texts of the flags -/

theorem flagTexts_sublist (cfg : YkpConfig) (field : FlagField) :
    (flagTexts cfg field).Sublist ((flagsMap field).map MapSt.flagText) :=
  List.filter_sublist.map _

theorem configFlagTexts_sublist (cfg : YkpConfig) : ∀ (ps : List MapSt) (tFlags : UInt8),
    (configFlagTexts cfg tFlags ps).Sublist (ps.map MapSt.flagText)
  | [], _ => .slnil
  | p :: ps, tFlags => by
    rw [configFlagTexts, List.map_cons]
    split_ifs
    · exact (configFlagTexts_sublist cfg ps _).cons_cons _
    · exact (configFlagTexts_sublist cfg ps _).cons _

theorem length_foldl_appendFlag : ∀ (texts : List String) (buffer : List Char),
    (texts.foldl appendFlag buffer).length
      ≤ buffer.length + (texts.flatMap fun t => '|' :: t.toList).length
  | [], buffer => by simp
  | t :: texts, buffer => by
    have ih := length_foldl_appendFlag texts (appendFlag buffer t)
    have hone : (appendFlag buffer t).length ≤ buffer.length + (t.toList.length + 1) := by
      unfold appendFlag
      split_ifs with h
      · rw [List.nil_append]
        omega
      · have hsep : strFlagsSeparator.toList.length = 1 := rfl
        simp only [List.length_append, hsep]
        omega
    rw [List.foldl_cons, List.flatMap_cons, List.length_append, List.length_cons]
    omega

theorem plain_foldl_appendFlag : ∀ {texts : List String} {buffer : List Char}, Plain buffer →
    (∀ t ∈ texts, Plain t.toList) → Plain (texts.foldl appendFlag buffer)
  | [], _, hbuffer, _ => hbuffer
  | t :: texts, buffer, hbuffer, h => by
    have hone : Plain (appendFlag buffer t) := by
      refine Plain.append ?_ (h t List.mem_cons_self)
      split_ifs
      · exact CString.plain_nil
      · exact hbuffer.append (by decide)
    rw [List.foldl_cons]
    exact plain_foldl_appendFlag hone fun t' ht' => h t' (List.mem_cons_of_mem t ht')

theorem flagTexts_table (field : FlagField) :
    (∀ t ∈ (flagsMap field).map MapSt.flagText, Plain t.toList) ∧
      (((flagsMap field).map MapSt.flagText).flatMap fun t => '|' :: t.toList).length ≤ 240 := by
  cases field <;> decide +kernel

/-- All texts of a table fit into the 256 bytes of the buffer. -/
theorem length_flagTexts_le {texts : List String} {field : FlagField}
    (h : texts.Sublist ((flagsMap field).map MapSt.flagText)) :
    (texts.foldl appendFlag []).length ≤ 240 := by
  have hlen := length_foldl_appendFlag texts []
  have hsub := (h.flatMap fun t => '|' :: t.toList).length_le
  have htable := (flagTexts_table field).2
  rw [List.length_nil, Nat.zero_add] at hlen
  omega

theorem plain_flagTexts {texts : List String} {field : FlagField}
    (h : texts.Sublist ((flagsMap field).map MapSt.flagText)) :
    Plain (texts.foldl appendFlag []) :=
  plain_foldl_appendFlag CString.plain_nil fun t ht => (flagTexts_table field).1 t (h.subset ht)

/-! ## The text -/

variable (hY : Y.Documented)

include hY

theorem encodeIn_eq (modhex : Bool) : encodeIn Y modhex
    = (if modhex then Alphabet.modhex else Alphabet.hex).encode := by
  funext bs
  cases modhex
  · exact hY.hex bs
  · exact hY.modhex bs

theorem plain_encodeIn (modhex : Bool) (bs : List UInt8) : Plain (encodeIn Y modhex bs) := by
  rw [encodeIn_eq hY]
  cases modhex
  · exact plain_hex bs
  · exact plain_modhex bs

theorem plain_legacyOathId (c : YkConfig) : Plain (legacyOathId Y c) :=
  Plain.subset (((plain_encodeIn hY _ _).append (plain_encodeIn hY _ _)).append
    (plain_encodeIn hY _ _)) (List.take_subset 12 _)

theorem isLine_of_mem_legacyLines (cfg : YkpConfig) : ∀ l ∈ legacyLines Y cfg, IsLine l := by
  have hhex : ∀ bs, Plain (Y.yubikeyHexEncode bs) := fun bs => hY.hex bs ▸ plain_hex bs
  have hmodhex : ∀ bs, Plain (Y.yubikeyModhexEncode bs) := fun bs => hY.modhex bs ▸ plain_modhex bs
  have hh : Plain strHexPrefix.toList := by decide
  have hfixed : IsLine (legacyFixed Y cfg.ykcoreConfig) := by
    unfold legacyFixed
    split_ifs
    · exact isLine_legacyLine (by decide) (plain_legacyOathId hY _)
    · exact isLine_legacyLine (by decide) (Plain.append (by decide) (hmodhex _))
  have huid : IsLine (legacyUid Y cfg) := by
    refine isLine_legacyLine (by decide) ?_
    split_ifs
    · decide
    · exact hhex _
  have hkey : IsLine (legacyKey Y cfg) := by
    refine isLine_legacyLine (by decide) ((hh.append (hhex _)).append ?_)
    split_ifs
    · exact hhex _
    · exact CString.plain_nil
  have hacc : IsLine (legacyAccCode Y cfg.ykcoreConfig) :=
    isLine_legacyLine (by decide) (hh.append (hhex _))
  have himf : ∀ l ∈ legacyOathImf cfg, IsLine l := by
    unfold legacyOathImf
    split_ifs
    · rw [List.forall_mem_singleton]
      exact isLine_legacyLine (by decide) (hh.append (plain_toDigits _))
    · exact fun _ h => absurd h List.not_mem_nil
  have hflags : ∀ {key : String} {texts : List String} (field : FlagField), Plain key.toList →
      texts.Sublist ((flagsMap field).map MapSt.flagText) → IsLine (legacyFlags key texts) :=
    fun field hk h => isLine_legacyLine hk (plain_flagTexts h)
  intro l hl
  simp only [legacyLines, List.mem_append, List.mem_cons, List.not_mem_nil, or_false] at hl
  rcases hl with ((rfl | rfl | rfl | rfl) | hl) | rfl | rfl | rfl
  · exact hfixed
  · exact huid
  · exact hkey
  · exact hacc
  · exact himf l hl
  · exact hflags .tkt (by decide) (flagTexts_sublist cfg .tkt)
  · exact hflags .cfg (by decide) (configFlagTexts_sublist cfg _ _)
  · exact hflags .ext (by decide) (flagTexts_sublist cfg .ext)

theorem length_legacyFixed_le {c : YkConfig}
    (hsize : oathIdShown c = true ∨ c.fixedSize.toNat ≤ maxFixedSize) :
    (legacyFixed Y c).length ≤ 42 := by
  unfold legacyFixed
  split_ifs with hid
  · have hkey : strOathId.toList.length = 7 := rfl
    rw [length_legacyLine, hkey, legacyOathId, List.length_take]
    omega
  · have hkey : strFixed.toList.length = 5 := rfl
    have hprefix : strModhexPrefix.toList.length = 2 := rfl
    have hfixed : c.fixedSize.toNat ≤ 16 := hsize.resolve_left hid
    rw [length_legacyLine, hkey, List.length_append, hprefix, hY.modhex,
      Hex.Alphabet.length_encode, List.length_take]
    omega

omit hY in
theorem ykpGetOathImf_lt (cfg : YkpConfig) : ykpGetOathImf cfg < 16 ^ 5 := by
  have hhigh := cfg.ykcoreConfig.uid[4].toNat_lt
  have hlow := cfg.ykcoreConfig.uid[5].toNat_lt
  unfold ykpGetOathImf
  split_ifs
  · rw [← Nat.shiftLeft_add_eq_or_of_lt hlow, Nat.shiftLeft_eq, Nat.shiftLeft_eq]
    omega
  · decide

theorem length_legacyLines_lt {cfg : YkpConfig} (hsize : oathIdShown cfg.ykcoreConfig = true ∨
    cfg.ykcoreConfig.fixedSize.toNat ≤ maxFixedSize) :
    (legacyLines Y cfg).flatten.length < 1024 := by
  have hfixed := length_legacyFixed_le hY hsize
  have hh : strHexPrefix.toList.length = 2 := rfl
  have huid : (legacyUid Y cfg).length ≤ 18 := by
    have hkey : strUid.toList.length = 3 := rfl
    rw [legacyUid, length_legacyLine, hkey]
    split_ifs
    · decide
    · rw [hY.hex, Hex.Alphabet.length_encode, Vector.length_toList, uidSize]
  have hkey : (legacyKey Y cfg).length ≤ 48 := by
    have hkey : strKey.toList.length = 3 := rfl
    rw [legacyKey, length_legacyLine, hkey, List.length_append, List.length_append, hh, hY.hex,
      Hex.Alphabet.length_encode, Vector.length_toList, keySize]
    split_ifs
    · rw [hY.hex, Hex.Alphabet.length_encode, List.length_take]
      omega
    · decide
  have hacc : (legacyAccCode Y cfg.ykcoreConfig).length ≤ 25 := by
    have hkey : strAccCode.toList.length = 8 := rfl
    rw [legacyAccCode, length_legacyLine, hkey, List.length_append, hh, hY.hex,
      Hex.Alphabet.length_encode, Vector.length_toList, accCodeSize]
  have himf : (legacyOathImf cfg).flatten.length ≤ 18 := by
    have hkey : strOathImf.toList.length = 8 := rfl
    have hdigits : (Nat.toDigits 16 (ykpGetOathImf cfg)).length ≤ 5 :=
      (Nat.length_toDigits_le_iff (by decide) (by decide)).2 (ykpGetOathImf_lt cfg)
    unfold legacyOathImf
    split_ifs
    · rw [List.flatten_singleton, length_legacyLine, hkey, List.length_append, hh]
      omega
    · simp
  have hflags : ∀ (key : String) {texts : List String} (field : FlagField),
      texts.Sublist ((flagsMap field).map MapSt.flagText) →
      (legacyFlags key texts).length ≤ key.toList.length + 243 := fun key _ field h => by
    have hlen := length_flagTexts_le h
    rw [legacyFlags, length_legacyLine]
    omega
  have htkt := hflags strTicketFlags .tkt (flagTexts_sublist cfg .tkt)
  have hcfg := hflags strConfigFlags .cfg
    (configFlagTexts_sublist cfg configFlagsMap cfg.ykcoreConfig.cfgFlags)
  have hext := hflags strExtendedFlags .ext (flagTexts_sublist cfg .ext)
  have h1 : strTicketFlags.toList.length = 12 := rfl
  have h2 : strConfigFlags.toList.length = 12 := rfl
  have h3 : strExtendedFlags.toList.length = 14 := rfl
  simp only [legacyLines, List.flatten_append, List.flatten_cons, List.flatten_nil,
    List.length_append, List.length_nil]
  omega

end Lines

/-! ## The memory -/

section Export

variable {S : Type} {Y : Encoders}

/-- While all lines fit, the memory holds those that have been written and a NUL behind them. -/
theorem emitLines_fits {len : ℕ} : ∀ (lines : List (List Char)) (written rest : List Char),
    len ≤ (written ++ nul :: rest).length → written.length + lines.flatten.length < len →
      ∃ rest', emitLines len (written ++ nul :: rest) written.length lines
        = (written ++ lines.flatten ++ nul :: rest', ((written ++ lines.flatten).length : ℤ))
  | [], written, rest, _, _ => ⟨rest, by simp [emitLines]⟩
  | line :: lines, written, rest, hlen, hfits => by
    rw [List.flatten_cons, List.length_append] at hfits
    have hstep := CString.snprintf_append written (nul :: rest)
      (show line.length < len - written.length by omega)
    have hlen' : len ≤ (written ++ line ++ nul :: (nul :: rest).drop (line.length + 1)).length := by
      simp only [List.length_append, List.length_cons, List.length_drop] at hlen ⊢
      omega
    obtain ⟨rest', hrun⟩ := emitLines_fits lines (written ++ line) _ hlen'
      (by rw [List.length_append]; omega)
    refine ⟨rest', ?_⟩
    rw [emitLines, if_neg (by omega), hstep, ← List.length_append, hrun]
    simp only [List.flatten_cons, List.append_assoc]

/-- The fixed part is read within its bounds. -/
def FixedReadable (c : YkConfig) : Prop :=
  oathIdShown c = true ∨ c.fixedSize.toNat ≤ maxFixedSize

/-- Into memory that has room for a NUL behind it, the whole text is written. -/
theorem ykpLegacyExportConfig_fits (hY : Y.Documented) {cfg : YkpConfig}
    (hsize : FixedReadable cfg.ykcoreConfig) {buf : List Char} {len : ℕ} (hbuf : len ≤ buf.length)
    (hfits : (legacyLines Y cfg).flatten.length < len) (s : S) :
    ∃ out, ykpLegacyExportConfig Y cfg buf len s
        = (.ok (out, ((legacyLines Y cfg).flatten.length : ℤ)), s) ∧
      CString.read out = some (legacyLines Y cfg).flatten := by
  have hnul := CString.nul_notMem_flatten (isLine_of_mem_legacyLines hY cfg)
  -- the first line is written over whatever the memory holds
  obtain ⟨line, lines, hlines⟩ : ∃ line lines, legacyLines Y cfg = line :: lines := ⟨_, _, rfl⟩
  rw [hlines] at hfits hnul ⊢
  rw [List.flatten_cons, List.length_append] at hfits
  have hfirst := CString.snprintf_append [] buf (show line.length < len by omega)
  rw [List.nil_append, List.nil_append] at hfirst
  have hlen' : len ≤ (line ++ nul :: buf.drop (line.length + 1)).length := by
    simp only [List.length_append, List.length_cons, List.length_drop]
    omega
  obtain ⟨rest, hrun⟩ := emitLines_fits lines line _ hlen' (by omega)
  have hemit : emitLines len buf 0 (line :: lines) = (line ++ lines.flatten ++ nul :: rest,
      ((line ++ lines.flatten).length : ℤ)) := by
    rw [emitLines, if_neg (by omega), Nat.zero_add, ← hrun]
    exact congrArg (fun mem => emitLines len mem line.length lines) hfirst
  refine ⟨_, ?_, CString.read_append hnul rest⟩
  rw [ykpLegacyExportConfig, if_neg (Nat.not_lt.2 hbuf),
    if_neg fun h => hsize.elim h.1 (Nat.not_le.2 h.2), hlines, hemit, List.flatten_cons,
    Proc.pure_run]

/-- With a fixed part of at most 16 bytes, 1024 bytes are enough. -/
theorem ykpLegacyExportConfig_ok (hY : Y.Documented) {cfg : YkpConfig}
    (hsize : cfg.ykcoreConfig.fixedSize.toNat ≤ maxFixedSize) {buf : List Char}
    (hbuf : 1024 ≤ buf.length) (s : S) : ∃ out, ykpLegacyExportConfig Y cfg buf 1024 s
        = (.ok (out, ((legacyLines Y cfg).flatten.length : ℤ)), s) ∧
      CString.read out = some (legacyLines Y cfg).flatten :=
  ykpLegacyExportConfig_fits hY (.inr hsize) hbuf (length_legacyLines_lt hY (.inr hsize)) s

/-! ## The data -/

/-- The same text comes of the same lines. -/
theorem legacyLines_eq (hY : Y.Documented) {c₁ c₂ : YkpConfig}
    (hsize₁ : c₁.ykcoreConfig.fixedSize.toNat ≤ maxFixedSize)
    (hsize₂ : c₂.ykcoreConfig.fixedSize.toNat ≤ maxFixedSize) {buf₁ buf₂ out₁ out₂ text : List Char}
    (hbuf₁ : 1024 ≤ buf₁.length) (hbuf₂ : 1024 ≤ buf₂.length) {s₁ s₁' s₂ s₂' : S} {n₁ n₂ : ℤ}
    (h₁ : ykpLegacyExportConfig Y c₁ buf₁ 1024 s₁ = (.ok (out₁, n₁), s₁'))
    (h₂ : ykpLegacyExportConfig Y c₂ buf₂ 1024 s₂ = (.ok (out₂, n₂), s₂'))
    (ht₁ : CString.read out₁ = some text) (ht₂ : CString.read out₂ = some text) :
    legacyLines Y c₁ = legacyLines Y c₂ := by
  obtain ⟨out, hrun₁, hread₁⟩ := ykpLegacyExportConfig_ok hY hsize₁ hbuf₁ s₁
  obtain ⟨out', hrun₂, hread₂⟩ := ykpLegacyExportConfig_ok hY hsize₂ hbuf₂ s₂
  obtain rfl : out = out₁ := congrArg Prod.fst (Ret.ok.inj (Prod.mk.inj (hrun₁.symm.trans h₁)).1)
  obtain rfl : out' = out₂ := congrArg Prod.fst (Ret.ok.inj (Prod.mk.inj (hrun₂.symm.trans h₂)).1)
  refine CString.flatten_inj (isLine_of_mem_legacyLines hY c₁) (isLine_of_mem_legacyLines hY c₂) ?_
  rw [Option.some.inj (hread₁.symm.trans ht₁), Option.some.inj (hread₂.symm.trans ht₂)]

end Export

section Data

variable {Y : Encoders}

/-- The twelve characters of a token identifier are those of six bytes. -/
theorem legacyOathId_inj (hY : Y.Documented) {c₁ c₂ : YkConfig} (hcfg : c₁.cfgFlags = c₂.cfgFlags)
    (h : legacyOathId Y c₁ = legacyOathId Y c₂) :
    c₁.fixed.toList.take 6 = c₂.fixed.toList.take 6 := by
  have hid : ∀ {a b d : Alphabet} (l : List UInt8), l.length = 16 →
      (a.encode (l.take 1) ++ b.encode ((l.drop 1).take 1) ++ d.encode ((l.drop 2).take 8)).take 12
        = a.encode (l.take 1) ++ b.encode ((l.drop 1).take 1) ++ d.encode ((l.drop 2).take 4) := by
    intro a b d l hl
    have hfront : (a.encode (l.take 1) ++ b.encode ((l.drop 1).take 1)).length = 4 := by
      simp only [List.length_append, Hex.Alphabet.length_encode, List.length_take,
        List.length_drop, hl]
      rfl
    have htake := d.take_encode 4 ((l.drop 2).take 8)
    rw [List.take_take] at htake
    rw [List.take_append, List.take_of_length_le (by omega), hfront]
    exact congrArg _ htake
  have hl₁ : c₁.fixed.toList.length = 16 := Vector.length_toList
  have hl₂ : c₂.fixed.toList.length = 16 := Vector.length_toList
  simp only [legacyOathId, encodeIn_eq hY, ← hcfg] at h
  rw [hid _ hl₁, hid _ hl₂] at h
  obtain ⟨hfront, hmui⟩ := List.append_inj h (by
    simp only [List.length_append, Hex.Alphabet.length_encode, List.length_take, List.length_drop,
      hl₁, hl₂])
  obtain ⟨hfirst, hsecond⟩ := List.append_inj hfront (by
    simp only [Hex.Alphabet.length_encode, List.length_take, hl₁, hl₂])
  have hsix : ∀ l : List UInt8,
      l.take 6 = l.take 1 ++ ((l.drop 1).take 1 ++ (l.drop 2).take 4) := by
    intro l
    have h2 := List.take_add (l := l.drop 1) (i := 1) (j := 4)
    rw [List.drop_drop] at h2
    rw [← h2, ← List.take_add]
  rw [hsix, hsix, Hex.Alphabet.encode_inj hfirst, Hex.Alphabet.encode_inj hsecond,
    Hex.Alphabet.encode_inj hmui]

/-- Two configurations agree on the data that the text shows. -/
structure SameData (c₁ c₂ : YkpConfig) : Prop where
  fixed : oathIdShown c₁.ykcoreConfig = false →
    c₁.ykcoreConfig.fixedSize = c₂.ykcoreConfig.fixedSize ∧
      c₁.ykcoreConfig.fixed.toList.take c₁.ykcoreConfig.fixedSize.toNat
        = c₂.ykcoreConfig.fixed.toList.take c₁.ykcoreConfig.fixedSize.toNat
  oathId : oathIdShown c₁.ykcoreConfig = true → c₂.ykcoreConfig.fixedSize ≠ 0 ∧
    c₁.ykcoreConfig.fixed.toList.take 6 = c₂.ykcoreConfig.fixed.toList.take 6
  key : c₁.ykcoreConfig.key = c₂.ykcoreConfig.key
  keyBits : ykpGetSupportedKeyLength c₁ = 20 →
    c₁.ykcoreConfig.uid.toList.take 4 = c₂.ykcoreConfig.uid.toList.take 4
  uid : ykpGetSupportedKeyLength c₁ = 16 → c₁.ykcoreConfig.uid = c₂.ykcoreConfig.uid
  accCode : c₁.ykcoreConfig.accCode = c₂.ykcoreConfig.accCode
  oathImf : c₁.ykcoreConfig.tktFlags &&& tktflagOathHotp = tktflagOathHotp →
    capabilityHasOathImf c₁ = true → ykpGetOathImf c₁ = ykpGetOathImf c₂

theorem legacyFixed_eq (hY : Y.Documented) {c₁ c₂ : YkConfig}
    (hcfg : c₁.cfgFlags = c₂.cfgFlags) (hsize₁ : c₁.fixedSize.toNat ≤ maxFixedSize)
    (hsize₂ : c₂.fixedSize.toNat ≤ maxFixedSize) (h : legacyFixed Y c₁ = legacyFixed Y c₂) :
    (oathIdShown c₁ = false → c₁.fixedSize = c₂.fixedSize ∧
      c₁.fixed.toList.take c₁.fixedSize.toNat = c₂.fixed.toList.take c₁.fixedSize.toNat) ∧
    (oathIdShown c₁ = true → c₂.fixedSize ≠ 0 ∧
      c₁.fixed.toList.take 6 = c₂.fixed.toList.take 6) := by
  have hkeys : ∀ v w, legacyLine strOathId v ≠ legacyLine strFixed w := fun v w h =>
    absurd (List.cons.inj h).1 (by decide)
  unfold legacyFixed at h
  rcases h1 : oathIdShown c₁ with _ | _ <;> rcases h2 : oathIdShown c₂ with _ | _ <;>
    simp only [h1, h2, if_true, Bool.false_eq_true, if_false] at h
  · refine ⟨fun _ => ?_, fun h => absurd h (by decide)⟩
    have hbytes := List.append_cancel_left (legacyLine_inj h)
    rw [hY.modhex, hY.modhex] at hbytes
    have htake := Hex.Alphabet.encode_inj hbytes
    have hlen := congrArg List.length htake
    rw [List.length_take, List.length_take, Vector.length_toList, Vector.length_toList,
      Nat.min_eq_left hsize₁, Nat.min_eq_left hsize₂] at hlen
    exact ⟨UInt8.toNat_inj.1 hlen, by rw [htake, hlen]⟩
  · exact absurd h.symm (hkeys _ _)
  · exact absurd h (hkeys _ _)
  · refine ⟨fun h => absurd h (by decide), fun _ => ⟨?_, ?_⟩⟩
    swap
    · exact legacyOathId_inj hY hcfg (legacyLine_inj h)
    simp only [oathIdShown, Bool.and_eq_true, decide_eq_true_eq] at h2
    exact h2.2

/-- Of configurations of one version with the same ticket and configuration flags, the same text
shows the same data; a token identifier shows six bytes of the fixed part, and not how many there
are. -/
theorem legacy_export_shows {S : Type} (hY : Y.Documented) {c₁ c₂ : YkpConfig}
    (hversion : c₁.version = c₂.version)
    (htkt : c₁.ykcoreConfig.tktFlags = c₂.ykcoreConfig.tktFlags)
    (hcfg : c₁.ykcoreConfig.cfgFlags = c₂.ykcoreConfig.cfgFlags)
    (hsize₁ : c₁.ykcoreConfig.fixedSize.toNat ≤ maxFixedSize)
    (hsize₂ : c₂.ykcoreConfig.fixedSize.toNat ≤ maxFixedSize) {buf₁ buf₂ out₁ out₂ text : List Char}
    (hbuf₁ : 1024 ≤ buf₁.length) (hbuf₂ : 1024 ≤ buf₂.length) {s₁ s₁' s₂ s₂' : S} {n₁ n₂ : ℤ}
    (h₁ : ykpLegacyExportConfig Y c₁ buf₁ 1024 s₁ = (.ok (out₁, n₁), s₁'))
    (h₂ : ykpLegacyExportConfig Y c₂ buf₂ 1024 s₂ = (.ok (out₂, n₂), s₂'))
    (ht₁ : CString.read out₁ = some text) (ht₂ : CString.read out₂ = some text) :
    SameData c₁ c₂ := by
  have hlines := legacyLines_eq hY hsize₁ hsize₂ hbuf₁ hbuf₂ h₁ h₂ ht₁ ht₂
  have hget : ∀ (field : FlagField) (flag : UInt8), c₁.ykcoreConfig.flags field
      = c₂.ykcoreConfig.flags field → ykpGetFlag field flag c₁ = ykpGetFlag field flag c₂ :=
    fun field flag h => by rw [ykpGetFlag, ykpGetFlag, h]
  have hkeyLength : ykpGetSupportedKeyLength c₁ = ykpGetSupportedKeyLength c₂ := by
    unfold ykpGetSupportedKeyLength ykpGetTktflagOathHotp ykpGetCfgflagChalYubico
      ykpGetTktflagChalResp ykpGetCfgflagChalHmac
    rw [hget .tkt tktflagOathHotp htkt, hget .cfg cfgflagChalYubico hcfg,
      hget .tkt tktflagChalResp htkt, hget .cfg cfgflagChalHmac hcfg]
  have hbits : keyBitsInUid c₁ = keyBitsInUid c₂ := by rw [keyBitsInUid, hkeyLength, keyBitsInUid]
  have hcap := capabilityHasOathImf_congr hversion
  obtain ⟨hfixed, huid, hkey, hacc, hrest⟩ : legacyFixed Y c₁.ykcoreConfig
      = legacyFixed Y c₂.ykcoreConfig ∧ legacyUid Y c₁ = legacyUid Y c₂ ∧
        legacyKey Y c₁ = legacyKey Y c₂ ∧
        legacyAccCode Y c₁.ykcoreConfig = legacyAccCode Y c₂.ykcoreConfig ∧ _ := by
    simpa only [legacyLines, List.append_assoc, List.cons_append, List.nil_append,
      List.cons.injEq] using hlines
  obtain ⟨hfixedPart, hoathId⟩ := legacyFixed_eq hY hcfg hsize₁ hsize₂ hfixed
  have hkeyChars := List.append_inj (legacyLine_inj hkey) (by
    simp only [List.length_append, hY.hex, Hex.Alphabet.length_encode, Vector.length_toList])
  refine ⟨hfixedPart, hoathId, ?_, fun h20 => ?_, fun h16 => ?_, ?_, fun hoath hhas => ?_⟩
  · have hchars := List.append_cancel_left hkeyChars.1
    rw [hY.hex, hY.hex] at hchars
    exact Vector.toList_inj.1 (Hex.Alphabet.encode_inj hchars)
  · have h1 : keyBitsInUid c₁ = true := decide_eq_true h20
    have hchars := hkeyChars.2
    rw [← hbits, h1, if_pos rfl, if_pos rfl, hY.hex, hY.hex] at hchars
    exact Hex.Alphabet.encode_inj hchars
  · have h1 : keyBitsInUid c₁ = false := decide_eq_false (by rw [h16]; decide)
    have hchars := legacyLine_inj huid
    rw [← hbits, h1, if_neg Bool.false_ne_true, if_neg Bool.false_ne_true, hY.hex, hY.hex] at hchars
    exact Vector.toList_inj.1 (Hex.Alphabet.encode_inj hchars)
  · have hchars := List.append_cancel_left (legacyLine_inj hacc)
    rw [hY.hex, hY.hex] at hchars
    exact Vector.toList_inj.1 (Hex.Alphabet.encode_inj hchars)
  · have himf₁ : legacyOathImf c₁ = [legacyLine strOathImf
        (strHexPrefix.toList ++ Nat.toDigits 16 (ykpGetOathImf c₁))] := if_pos ⟨hoath, hhas⟩
    have himf₂ : legacyOathImf c₂ = [legacyLine strOathImf
        (strHexPrefix.toList ++ Nat.toDigits 16 (ykpGetOathImf c₂))] :=
      if_pos ⟨htkt ▸ hoath, hcap ▸ hhas⟩
    rw [himf₁, himf₂, List.cons_append, List.cons_append] at hrest
    exact Hex.toDigits_inj _ _ (List.append_cancel_left (legacyLine_inj (List.cons.inj hrest).1))

end Data

section Runs

open ScriptedHost (env)
open ScriptedJson (libyubikey)

theorem documented_libyubikey : libyubikey.Documented := ⟨fun _ => rfl, fun _ => rfl⟩

/-- A one-time password of a key 2.4.0 with a fixed part. -/
def oathConfig (fixed : List UInt8) : YkpConfig :=
  ((do
    ykpSetTktflagOathHotp true
    ykpSetFixed fixed : Proc YkpState Unit) (allocated (env 2 4 0).st none)).2.cfg

/-- Two configurations with the same lines and memory. -/
theorem ykpLegacyExportConfig_congr {c₁ c₂ : YkpConfig}
    (hsize₁ : c₁.ykcoreConfig.fixedSize.toNat ≤ maxFixedSize)
    (hsize₂ : c₂.ykcoreConfig.fixedSize.toNat ≤ maxFixedSize)
    (hlines : legacyLines libyubikey c₁ = legacyLines libyubikey c₂) {buf : List Char}
    (hbuf : 1024 ≤ buf.length) : ∃ out text,
      ykpLegacyExportConfig libyubikey c₁ buf 1024 () = (.ok (out, (text.length : ℤ)), ()) ∧
      ykpLegacyExportConfig libyubikey c₂ buf 1024 () = (.ok (out, (text.length : ℤ)), ()) ∧
      CString.read out = some text := by
  obtain ⟨out, hrun, hread⟩ := ykpLegacyExportConfig_ok documented_libyubikey hsize₁ hbuf ()
  refine ⟨out, _, hrun, ?_, hread⟩
  rw [← hrun, ykpLegacyExportConfig, if_neg (Nat.not_lt.2 hbuf),
    if_neg fun h => Nat.not_lt.2 hsize₂ h.2, ykpLegacyExportConfig, if_neg (Nat.not_lt.2 hbuf),
    if_neg fun h => Nat.not_lt.2 hsize₁ h.2, hlines]

theorem legacy_export_shows_slots : SameData ((oathConfig [1, 2]).withCommand slotConfig)
    ((oathConfig [1, 2]).withCommand slotConfig2) := by
  have hbuf : 1024 ≤ (List.replicate 1024 ' ').length := by rw [List.length_replicate]
  obtain ⟨out, text, hrun, hrun', hread⟩ := ykpLegacyExportConfig_congr
    (show ((oathConfig [1, 2]).withCommand slotConfig).ykcoreConfig.fixedSize.toNat
      ≤ maxFixedSize by decide)
    (show ((oathConfig [1, 2]).withCommand slotConfig2).ykcoreConfig.fixedSize.toNat
      ≤ maxFixedSize by decide) (by decide +kernel) hbuf
  exact legacy_export_shows documented_libyubikey rfl rfl rfl (by decide) (by decide) hbuf hbuf
    hrun hrun' hread hread

/-- The seventh byte is not in the text, and neither is how many there are. -/
theorem legacy_export_hides :
    let c₁ := oathConfig [1, 2, 3, 4, 5, 6, 7]
    let c₂ := oathConfig [1, 2, 3, 4, 5, 6]
    let run (c : YkpConfig) :=
      (ykpLegacyExportConfig libyubikey c (List.replicate 1024 ' ') 1024 ()).1
    c₁.version = c₂.version ∧ c₁.ykcoreConfig.tktFlags = c₂.ykcoreConfig.tktFlags ∧
      c₁.ykcoreConfig.cfgFlags = c₂.ykcoreConfig.cfgFlags ∧
      (∃ out text, run c₁ = .ok (out, (text.length : ℤ)) ∧ run c₂ = .ok (out, (text.length : ℤ)) ∧
        CString.read out = some text) ∧
      c₁.ykcoreConfig.fixedSize = 7 ∧ c₂.ykcoreConfig.fixedSize = 6 ∧
      c₁.ykcoreConfig.fixed.toList.take 7 ≠ c₂.ykcoreConfig.fixed.toList.take 7 := by
  intro c₁ c₂ run
  have hbuf : 1024 ≤ (List.replicate 1024 ' ').length := by rw [List.length_replicate]
  obtain ⟨out, text, hrun, hrun', hread⟩ := ykpLegacyExportConfig_congr
    (show c₁.ykcoreConfig.fixedSize.toNat ≤ maxFixedSize by decide)
    (show c₂.ykcoreConfig.fixedSize.toNat ≤ maxFixedSize by decide) (by decide +kernel) hbuf
  exact ⟨rfl, by decide, by decide, ⟨out, text, congrArg Prod.fst hrun, congrArg Prod.fst hrun',
    hread⟩, by decide, by decide, by decide⟩

end Runs

end YkPers
