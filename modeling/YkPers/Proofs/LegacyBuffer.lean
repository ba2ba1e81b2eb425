import Mathlib.Data.List.Forall2
import YkPers.Proofs.Calls
import YkPers.Proofs.LegacyExport

/-!
# The buffer of the legacy export

In a buffer of 255 characters, each part of a line comes to be what the export shows of it
(`Assembles`), so that no `strncat` ever has a line of 256 characters with its NUL, whatever its
bound says. A configuration that a program comes to by calls has a fixed part that can be shown,
and its text fits into the memory of `ykp_write_config` (`legacy_export_fits`).
-/

namespace YkPers

open CString (nul Holds)
open Hex (Alphabet)

/-- In any memory of `room` characters, the function comes to its end and leaves the string. -/
def Assembles (room : ℕ) (f : List Char → Option (List Char)) (s : List Char) : Prop :=
  ∀ mem, mem.length = room → ∃ out, f mem = some out ∧ Holds room out s

/-- The line of a part, of what its function leaves. -/
def Gives (room : ℕ) (p : LegacyPart) (line : List Char) : Prop :=
  ∃ s, Assembles room p.assemble s ∧ line = legacyLine p.key (p.start.toList ++ s)

/-! ## Flags -/

section Flags

variable {room : ℕ}

theorem length_le_appendFlag (buffer : List Char) (t : String) :
    buffer.length + t.toList.length ≤ (appendFlag buffer t).length := by
  unfold appendFlag
  split_ifs with h
  · simp [h]
  · simp only [List.length_append]
    omega

theorem length_le_foldl_appendFlag : ∀ (texts : List String) (buffer : List Char),
    buffer.length ≤ (texts.foldl appendFlag buffer).length
  | [], _ => Nat.le_refl _
  | t :: texts, buffer => by
    have ih := length_le_foldl_appendFlag texts (appendFlag buffer t)
    have hone := length_le_appendFlag buffer t
    rw [List.foldl_cons]
    omega

theorem concatFlag_holds {mem shown : List Char} {t : String} (h : Holds room mem shown)
    (ht : nul ∉ t.toList) (hfits : (appendFlag shown t).length < room)
    (hbound : (appendFlag shown t).length ≤ 256) :
    ∃ out, concatFlag mem t = some out ∧ Holds room out (appendFlag shown t) := by
  unfold appendFlag at hfits hbound ⊢
  by_cases hshown : shown = []
  · subst hshown
    rw [if_pos rfl, List.nil_append] at hfits hbound ⊢
    obtain ⟨out, hrun, hout⟩ := h.strncat (n := 256) ht (by omega)
      (by rw [List.length_nil]; omega)
    refine ⟨out, ?_, hout⟩
    simp only [concatFlag, h.read, Option.bind_eq_bind, Option.bind_some, if_pos, Option.pure_def]
    exact hrun
  · rw [if_neg hshown] at hfits hbound ⊢
    have hsep : strFlagsSeparator.toList.length = 1 := rfl
    simp only [List.length_append, hsep] at hfits hbound
    obtain ⟨mid, hrun, hmid⟩ := h.strncat (n := 256 - shown.length)
      (by decide : nul ∉ strFlagsSeparator.toList) (by omega) (by omega)
    obtain ⟨out, hrun', hout⟩ := hmid.strncat
      (n := 256 - (shown ++ strFlagsSeparator.toList).length) ht
      (by rw [List.length_append, hsep]; omega) (by rw [List.length_append, hsep]; omega)
    refine ⟨out, ?_, hout⟩
    simp only [concatFlag, h.read, Option.bind_eq_bind, Option.bind_some, if_neg hshown, hrun,
      hmid.read]
    exact hrun'

theorem foldlM_concatFlag : ∀ (texts : List String) {mem shown : List Char},
    Holds room mem shown → (∀ t ∈ texts, nul ∉ t.toList) →
    (texts.foldl appendFlag shown).length < room → (texts.foldl appendFlag shown).length ≤ 256 →
    ∃ out, texts.foldlM concatFlag mem = some out ∧
      Holds room out (texts.foldl appendFlag shown)
  | [], mem, _, h, _, _, _ => ⟨mem, rfl, h⟩
  | t :: texts, mem, shown, h, htexts, hfits, hbound => by
    rw [List.foldl_cons] at hfits hbound ⊢
    have hle := length_le_foldl_appendFlag texts (appendFlag shown t)
    obtain ⟨mid, hrun, hmid⟩ := concatFlag_holds h (htexts t List.mem_cons_self)
      (by omega) (by omega)
    obtain ⟨out, hrun', hout⟩ := foldlM_concatFlag texts hmid
      (fun t' ht' => htexts t' (List.mem_cons_of_mem t ht')) hfits hbound
    refine ⟨out, ?_, hout⟩
    rw [List.foldlM_cons, hrun]
    exact hrun'

/-- All flags of a table stay below 255 characters. -/
theorem assembles_concatFlags {texts : List String} {field : FlagField}
    (h : texts.Sublist ((flagsMap field).map MapSt.flagText)) (hroom : 255 ≤ room) :
    Assembles room (concatFlags texts) (texts.foldl appendFlag []) := by
  intro mem hmem
  have hlen := length_flagTexts_le h
  exact foldlM_concatFlag texts (CString.holds_empty hmem (by omega))
    (fun t ht => ((flagTexts_table field).1 t (h.subset ht)).nul_notMem) (by omega) (by omega)

/-- The flags of the three lines. -/
def shownFlags (cfg : YkpConfig) : List (List String) :=
  [flagTexts cfg .tkt, configFlagTexts cfg cfg.ykcoreConfig.cfgFlags configFlagsMap,
    flagTexts cfg .ext]

/-- However many of its flags a line has come to, it stays below 256 with its NUL. -/
theorem concatFlags_below {cfg : YkpConfig} {texts done : List String}
    (h : texts ∈ shownFlags cfg) (hdone : done <+: texts) {buffer : List Char}
    (hbuffer : buffer.length = 256) : ∃ out line, concatFlags done buffer = some out ∧
      CString.read out = some line ∧ line.length + 1 < 256 := by
  obtain ⟨field, hsub⟩ : ∃ field, texts.Sublist ((flagsMap field).map MapSt.flagText) := by
    simp only [shownFlags, List.mem_cons, List.not_mem_nil, or_false] at h
    rcases h with rfl | rfl | rfl
    · exact ⟨.tkt, flagTexts_sublist cfg .tkt⟩
    · exact ⟨.cfg, configFlagTexts_sublist cfg configFlagsMap _⟩
    · exact ⟨.ext, flagTexts_sublist cfg .ext⟩
  have hsub' := hdone.sublist.trans hsub
  obtain ⟨out, hrun, hout⟩ := assembles_concatFlags hsub' (by decide) buffer hbuffer
  have hlen := length_flagTexts_le hsub'
  exact ⟨out, _, hrun, hout.read, by omega⟩

end Flags

/-! ## Data -/

section Data

variable {Y : Encoders} (hY : Y.Documented) {room : ℕ} (hroom : 255 ≤ room)

theorem assembles_put {text : List Char} (htext : nul ∉ text) (hfits : text.length < room) :
    Assembles room (fun buffer => CString.put buffer 0 text) text :=
  fun _ hmem => CString.holds_put_zero hmem htext hfits

theorem nul_notMem_hex (bs : List UInt8) : nul ∉ Alphabet.hex.encode bs :=
  (plain_hex bs).nul_notMem

include hY

theorem length_encodeIn (modhex : Bool) (bs : List UInt8) :
    (encodeIn Y modhex bs).length = 2 * bs.length := by
  rw [encodeIn_eq hY]
  cases modhex <;> exact Hex.Alphabet.length_encode _ _

include hroom

/-- Eight bytes of the last part stand behind the twelve characters that are kept. -/
theorem assembles_oathId (c : YkConfig) : Assembles room (oathIdInto Y c) (legacyOathId Y c) := by
  intro mem hmem
  unfold oathIdInto legacyOathId
  dsimp only
  generalize hfirst : encodeIn Y _ (c.fixed.toList.take 1) = first
  generalize hsecond : encodeIn Y _ ((c.fixed.toList.drop 1).take 1) = second
  generalize hmui : encodeIn Y _ ((c.fixed.toList.drop 2).take 8) = mui
  have hlen : c.fixed.toList.length = maxFixedSize := Vector.length_toList
  have hlen1 : first.length = 2 := by
    rw [← hfirst, length_encodeIn hY, List.length_take, hlen, maxFixedSize]
    rfl
  have hlen2 : second.length = 2 := by
    rw [← hsecond, length_encodeIn hY, List.length_take, List.length_drop, hlen, maxFixedSize]
    rfl
  have hlen3 : mui.length = 16 := by
    rw [← hmui, length_encodeIn hY, List.length_take, List.length_drop, hlen, maxFixedSize]
    rfl
  have hplain1 : nul ∉ first := hfirst ▸ (plain_encodeIn hY _ _).nul_notMem
  have hplain2 : nul ∉ second := hsecond ▸ (plain_encodeIn hY _ _).nul_notMem
  have hplain3 : nul ∉ mui := hmui ▸ (plain_encodeIn hY _ _).nul_notMem
  obtain ⟨m₁, hrun1, h1⟩ := CString.holds_put_zero hmem hplain1 (by omega)
  obtain ⟨m₂, hrun2, h2⟩ := h1.put hlen1.symm hplain2 (by omega)
  obtain ⟨m₃, hrun3, h3⟩ := h2.put
    (show 4 = (first ++ second).length by rw [List.length_append]; omega) hplain3
    (by rw [List.length_append]; omega)
  refine ⟨m₃.set 12 nul, ?_, h3.cut (by rw [List.length_append, List.length_append]; omega)⟩
  simp only [hrun1, hrun2, hrun3, Option.bind_eq_bind, Option.bind_some, Option.pure_def]

theorem assembles_key (cfg : YkpConfig) : Assembles room (keyInto Y cfg)
    (Y.yubikeyHexEncode cfg.ykcoreConfig.key.toList ++
      if keyBitsInUid cfg then Y.yubikeyHexEncode (cfg.ykcoreConfig.uid.toList.take 4)
      else []) := by
  intro mem hmem
  have hkey : (Alphabet.hex.encode cfg.ykcoreConfig.key.toList).length = 32 := by
    rw [Hex.Alphabet.length_encode, Vector.length_toList, keySize]
  obtain ⟨mid, hrun, hmid⟩ := CString.holds_put_zero hmem (nul_notMem_hex _)
    (show (Alphabet.hex.encode cfg.ykcoreConfig.key.toList).length < room by omega)
  unfold keyInto
  rw [hY.hex, hrun]
  split_ifs
  · rw [hY.hex]
    exact hmid.put (by rw [hkey, keySize]) (nul_notMem_hex _) (by
      rw [hkey, Hex.Alphabet.length_encode, List.length_take]
      omega)
  · rw [List.append_nil]
    exact ⟨mid, rfl, hmid⟩

theorem gives_uid (cfg : YkpConfig) : Gives room ⟨strUid, "", uidInto Y cfg⟩ (legacyUid Y cfg) := by
  refine ⟨if keyBitsInUid cfg then "n/a".toList
    else Y.yubikeyHexEncode cfg.ykcoreConfig.uid.toList, ?_, rfl⟩
  unfold uidInto
  split_ifs
  · exact assembles_put (by decide) (Nat.lt_of_lt_of_le (by decide) hroom)
  · rw [hY.hex]
    refine assembles_put (nul_notMem_hex _) ?_
    rw [Hex.Alphabet.length_encode, Vector.length_toList, uidSize]
    omega

theorem gives_accCode (c : YkConfig) :
    Gives room ⟨strAccCode, strHexPrefix, accCodeInto Y c⟩ (legacyAccCode Y c) := by
  refine ⟨_, ?_, rfl⟩
  unfold accCodeInto
  rw [hY.hex]
  refine assembles_put (nul_notMem_hex _) ?_
  rw [Hex.Alphabet.length_encode, Vector.length_toList, accCodeSize]
  omega

theorem gives_key (cfg : YkpConfig) :
    Gives room ⟨strKey, strHexPrefix, keyInto Y cfg⟩ (legacyKey Y cfg) :=
  ⟨_, assembles_key hY hroom cfg, congrArg (legacyLine strKey) (List.append_assoc _ _ _)⟩

theorem gives_fixed (c : YkConfig) : Gives room (fixedPart Y c) (legacyFixed Y c) := by
  unfold fixedPart legacyFixed
  split_ifs
  · exact ⟨_, assembles_oathId hY hroom c, rfl⟩
  · refine ⟨_, assembles_put ?_ ?_, rfl⟩ <;> rw [hY.modhex]
    · exact (plain_modhex _).nul_notMem
    · -- at most 16 bytes are encoded
      rw [Hex.Alphabet.length_encode, List.length_take, Vector.length_toList, maxFixedSize]
      omega

end Data

/-! ## Lines -/

section Lines

variable {room : ℕ}

/-- The lines of the parts, whatever each part has left in the buffer. -/
theorem assembleLines_run : ∀ {parts : List LegacyPart} {lines : List (List Char)},
    List.Forall₂ (Gives room) parts lines → ∀ {buffer : List Char}, buffer.length = room →
      ∃ out, assembleLines parts buffer = some (lines, out) ∧ out.length = room
  | [], [], .nil, buffer, h => ⟨buffer, rfl, h⟩
  | p :: ps, line :: lines, .cons ⟨v, hp, hline⟩ hps, buffer, h => by
    obtain ⟨mid, hrun, hmid⟩ := hp buffer h
    obtain ⟨out, hrest, hout⟩ := assembleLines_run hps hmid.length
    refine ⟨out, ?_, hout⟩
    simp only [assembleLines, hrun, hmid.read, hrest, Option.bind_eq_bind, Option.bind_some,
      Option.pure_def, hline]

theorem gives_flags {key : String} {texts : List String} {field : FlagField}
    (h : texts.Sublist ((flagsMap field).map MapSt.flagText)) (hroom : 255 ≤ room) :
    Gives room ⟨key, "", concatFlags texts⟩ (legacyFlags key texts) :=
  ⟨_, assembles_concatFlags h hroom, rfl⟩

/-- In a buffer of 255 characters come about the lines that the export shows. -/
theorem bufferedLines_eq {Y : Encoders} (hY : Y.Documented) (cfg : YkpConfig) {buffer : List Char}
    (hbuffer : 255 ≤ buffer.length) : bufferedLines Y cfg buffer = some (legacyLines Y cfg) := by
  have hdata : List.Forall₂ (Gives buffer.length) (legacyDataParts Y cfg) _ :=
    .cons (gives_fixed hY hbuffer _) <| .cons (gives_uid hY hbuffer cfg) <|
      .cons (gives_key hY hbuffer cfg) <| .cons (gives_accCode hY hbuffer _) .nil
  have hcfg : (configFlagTexts cfg cfg.ykcoreConfig.cfgFlags configFlagsMap).Sublist
      ((flagsMap .cfg).map MapSt.flagText) := configFlagTexts_sublist cfg _ _
  have hflags : List.Forall₂ (Gives buffer.length) (legacyFlagParts cfg) _ :=
    .cons (gives_flags (flagTexts_sublist cfg .tkt) hbuffer) <|
      .cons (gives_flags hcfg hbuffer) <|
      .cons (gives_flags (flagTexts_sublist cfg .ext) hbuffer) .nil
  obtain ⟨mid, hfront, hmid⟩ := assembleLines_run hdata rfl
  obtain ⟨out, hback, -⟩ := assembleLines_run hflags hmid
  simp only [bufferedLines, hfront, hback, Option.bind_eq_bind, Option.bind_some, Option.pure_def]
  rfl

end Lines

/-! ## Configurations that a program comes to -/

/-- No `strncat` makes a line of 256 characters, no write of `char buffer[256]` reaches its last
character, and the text comes whole into 1024 bytes. -/
theorem legacy_export_fits {D : HexDecoder} {Y : Encoders} (hY : Y.Documented) {cfg : YkpConfig}
    (h : Reachable D cfg) :
    FixedPadded cfg.ykcoreConfig ∧
    (∀ texts ∈ shownFlags cfg, ∀ done, done <+: texts → ∀ buffer : List Char,
      buffer.length = 256 → ∃ out line, concatFlags done buffer = some out ∧
        CString.read out = some line ∧ line.length + 1 < 256) ∧
    (∀ buffer : List Char, 255 ≤ buffer.length →
      bufferedLines Y cfg buffer = some (legacyLines Y cfg)) ∧
    ∀ {S : Type} (buf : List Char) (s : S), 1024 ≤ buf.length → ∃ out text,
      ykpLegacyExportConfig Y cfg buf 1024 s = (.ok (out, (text.length : ℤ)), s) ∧
      CString.read out = some text ∧ text = (legacyLines Y cfg).flatten ∧
      0 < text.length ∧ text.length < 1024 ∧ ykpWriteConfig Y cfg buf s = (.ok text, s) := by
  have hpadded := h.fixedPadded
  refine ⟨hpadded, fun texts h done hdone buffer => concatFlags_below h hdone,
    fun buffer => bufferedLines_eq hY cfg, fun buf s hbuf => ?_⟩
  obtain ⟨out, hrun, hread⟩ := ykpLegacyExportConfig_ok hY hpadded.size hbuf s
  have hpos : 0 < (legacyLines Y cfg).flatten.length := by
    have hline := length_legacyLine strAccCode
      (strHexPrefix.toList ++ Y.yubikeyHexEncode cfg.ykcoreConfig.accCode.toList)
    simp only [legacyLines, legacyAccCode, List.flatten_append, List.flatten_cons,
      List.length_append, hline]
    omega
  refine ⟨out, _, hrun, hread, rfl, hpos, length_legacyLines_lt hY (.inr hpadded.size), ?_⟩
  rw [ykpWriteConfig, Proc.bind_ok hrun]
  dsimp only
  rw [if_pos (by omega), hread]
  rfl

/-- A token identifier with all flags of a one-time password, on a key 2.4.0. -/
theorem legacy_export_fits_oath :
    let cfg := (ykpSetFixed [0x1f, 0x2e, 3] (ykpSetTktflagOathHotp true
      (ykpConfigureVersion ⟨2, 4, 0, 0, 0⟩ ⟨ykpAlloc, none⟩).2).2).2.cfg
    FixedPadded cfg.ykcoreConfig ∧ cfg.ykcoreConfig.tktFlags = tktflagOathHotp ∧
    (∀ buffer : List Char, 255 ≤ buffer.length → bufferedLines ScriptedJson.libyubikey cfg buffer
      = some (legacyLines ScriptedJson.libyubikey cfg)) ∧
    ∃ out text, ykpLegacyExportConfig ScriptedJson.libyubikey cfg (List.replicate 1024 ' ') 1024 ()
        = (.ok (out, (text.length : ℤ)), ()) ∧
      CString.read out = some text ∧ 0 < text.length ∧ text.length < 1024 ∧
      ykpWriteConfig ScriptedJson.libyubikey cfg (List.replicate 1024 ' ') () = (.ok text, ()) := by
  intro cfg
  have hreach : Reachable hexDecoder cfg :=
    .call (.call (.call .alloc (.configureVersion ⟨2, 4, 0, 0, 0⟩) none ⟨by decide, by decide⟩)
      (.setFlag .tkt ticketFlagsMap[7] (List.getElem_mem _) true) none ⟨by decide, by decide⟩)
      (.setFixed [0x1f, 0x2e, 3]) none ⟨by decide, by decide⟩
  obtain ⟨hpadded, -, hbuffer, hexport⟩ := legacy_export_fits documented_libyubikey hreach
  obtain ⟨out, text, hrun, hread, -, hpos, hlt, hwrite⟩ := hexport (List.replicate 1024 ' ') ()
    (by rw [List.length_replicate])
  exact ⟨hpadded, rfl, hbuffer, out, text, hrun, hread, hpos, hlt, hwrite⟩

end YkPers
