import YkPers.Proofs.Consent
import YkPers.Proofs.HexModhex
import YkPers.Proofs.Ndef

/-!
# What becomes of the strings of the command line

The loop keeps the last string of each kind, cut to what its buffer holds (`TextsSaid`), and what is
behind it leaves the strings alone. A string that has been cut is too long for a record and for an
identifier, so that what is written says the whole of it (`strings_not_cut`). With `-c` no record is
written (`no_record_with_code`): the code is stored, but a result of 0 is taken for a failure.
-/

namespace YkPers

open Proc (Moves)

/-! ## What the options say -/

/-- The argument of `-n` and of `-t`. -/
def ndefOption : Getopt.Scanned → Option (List Char)
  | .arg 'n' optarg => some optarg
  | .arg 't' optarg => some optarg
  | _ => none

def isText : Getopt.Scanned → Bool
  | .arg 't' _ => true
  | _ => false

/-- A `-t` makes texts of the arguments of `-n` as well. -/
def ndefKind (os : List Getopt.Scanned) : Char := if os.any isText then 'T' else 'U'

def ndefSource (os : List Getopt.Scanned) (str : List Char) : NdefSource :=
  if os.any isText then .text str "en".toList false else .uri str

def IsOathId (optarg : List Char) : Prop :=
  optarg.take 8 = "oath-id=".toList ∨ optarg = "oath-id".toList

instance (optarg : List Char) : Decidable (IsOathId optarg) := inferInstanceAs (Decidable (_ ∨ _))

/-- The argument of `-ooath-id=` and of `-ooath-id`. -/
def oathIdOption : Getopt.Scanned → Option (List Char)
  | .arg 'o' optarg => if IsOathId optarg then some optarg else none
  | _ => none

theorem givesNdef_eq (o : Getopt.Scanned) : givesNdef o = (ndefOption o).isSome := by
  cases o with
  | arg c optarg =>
    by_cases hn : c = 'n'
    · rw [hn]
      rfl
    by_cases ht : c = 't'
    · rw [ht]
      rfl
    · simp [givesNdef, ndefOption, hn, ht]
  | _ => rfl

/-! ## Options that leave a string alone -/

section Frames

variable {β : Type} {f : ArgsState → β} (hf : ∀ s s', SameTexts s s' → f s' = f s)

include hf

theorem textFrame : CaseFrame (fun _ _ => True) fun s s' => f s' = f s where
  transYkp _ _ _ _ _ := trivial
  cfg _ _ _ := trivial
  trans _ _ _ h k := k.trans h
  same _ _ h := hf _ _ h.toSameTexts
  ykp _ _ _ := hf _ _ ⟨rfl, rfl, rfl, rfl, rfl⟩
  command _ _ _ := trivial
  any _ _ h := hf _ _ h.toSameTexts

/-- An option that may set none of what `f` is about leaves it alone. -/
theorem handle_text {E : ArgsEnv} {o : Getopt.Scanned}
    (hcode : givesCode o = true → ∀ s code, f { s with accessCode := code } = f s)
    (hndef : givesNdef o = true → ∀ s type ndef, f { s with ndefType := type, ndef := ndef } = f s)
    (hnew : ∀ s code, f { s with newAccessCode := code } = f s)
    (hid : (oathIdOption o).isSome = true → ∀ s oathid, f { s with oathid := oathid } = f s) :
    Moves (fun s s' => f s' = f s) (handle E o) := by
  have hF := textFrame hf
  refine hF.handle E (fun h s => hf _ _ ?_) (fun h s => hf _ _ ?_) hcode hndef
    (fun _ _ _ _ _ _ => hf _ _ ⟨rfl, rfl, rfl, rfl, rfl⟩) (fun _ _ _ _ _ _ _ => trivial) ?_
  · unfold gates at h
    split at h
    · exact ⟨rfl, rfl, rfl, rfl, rfl⟩
    · exact ⟨rfl, rfl, rfl, rfl, rfl⟩
    · exact ⟨rfl, rfl, rfl, rfl, rfl⟩
    · cases h
  · unfold givesKey at h
    split at h
    · rename_i optarg
      change SameTexts s (caseA optarg s).2
      unfold caseA
      split_ifs <;> exact ⟨rfl, rfl, rfl, rfl, rfl⟩
    · exact ⟨rfl, rfl, rfl, rfl, rfl⟩
    · cases h
  · rintro optarg rfl
    refine hF.bind (hF.modeOption optarg fun _ => trivial) fun _ => ?_
    have hsome : IsOathId optarg → (oathIdOption (.arg 'o' optarg)).isSome = true := fun ho => by
      rw [oathIdOption, if_pos ho]
      rfl
    exact hF.caseO_of E optarg hnew (fun ho => hid (hsome ho))
      (fun _ _ => trivial) (fun _ => hF.optionUid E optarg fun _ _ => trivial)
      (fun _ => hF.optionOathImf _ fun _ _ => trivial) fun _ _ _ _ _ => trivial

end Frames

/-! ## Options that set a string -/

section Options

variable {E : ArgsEnv} {os : List Getopt.Scanned} {o : Getopt.Scanned} {s s' : ArgsState}
  {optarg : List Char}

theorem caseN_stores (h : caseN E optarg s = (.ok ⟨⟩, s')) :
    s'.ndef = copyString E.ndefLen s.ndef optarg ∧
      s'.ndefType = some (s.ndefType.getD 'U') := by
  rw [caseN, Proc.modify_bind_run, Proc.get_bind_run] at h
  obtain ⟨_, t, ht, h⟩ := Proc.bind_eq_ok.1 h
  obtain rfl := (rejectIf_ok ht).2
  obtain ⟨_, u, hu, h⟩ := Proc.bind_eq_ok.1 h
  obtain rfl := (Prod.mk.inj hu).2
  obtain rfl := (Prod.mk.inj h).2
  exact ⟨rfl, rfl⟩

theorem caseT_stores (h : caseT E optarg s = (.ok ⟨⟩, s')) :
    s'.ndef = copyString E.ndefLen s.ndef optarg ∧ s'.ndefType = some 'T' := by
  rw [caseT, Proc.modify_bind_run] at h
  exact caseN_stores h

theorem promptAccessCode_stores (h : promptAccessCode s = (.ok ⟨⟩, s')) :
    s'.accessCode.isSome = true := by
  obtain ⟨p, t, -, h⟩ := Proc.bind_eq_ok.1 h
  rw [Proc.modify_bind_run] at h
  split_ifs at h
  · cases (Prod.mk.inj h).1
  · obtain rfl := (Prod.mk.inj h).2
    rfl

theorem caseC_stores (h : caseC optarg s = (.ok ⟨⟩, s')) : s'.accessCode.isSome = true := by
  unfold caseC at h
  split_ifs at h
  · obtain ⟨_, t, -, h⟩ := Proc.bind_eq_ok.1 h
    exact promptAccessCode_stores h
  · obtain rfl := (Prod.mk.inj h).2
    rfl

theorem givesCode_ok (ho : givesCode o = true) (h : handle E o s = (.ok ⟨⟩, s')) :
    s'.accessCode.isSome = true := by
  unfold givesCode at ho
  split at ho
  · exact caseC_stores h
  · exact promptAccessCode_stores h
  · cases ho

theorem IsOathId.take_seven (h : IsOathId optarg) : optarg.take 7 = "oath-id".toList := by
  rcases h with h | rfl
  · rw [← Nat.min_eq_left (show 7 ≤ 8 by decide), ← List.take_take, h]
    rfl
  · rfl

/-- No flag is called so. -/
theorem IsOathId.findFlag (h : IsOathId optarg) :
    findFlag (tktflagOptions ++ cfgflagOptions) optarg = none := by
  have hnames : ∀ name ∈ (tktflagOptions ++ cfgflagOptions).map Prod.fst,
      name.toList.take 7 ≠ "oath-id".toList ∧ ('-' :: name.toList).take 7 ≠ "oath-id".toList := by
    decide
  rcases hf : YkPers.findFlag (tktflagOptions ++ cfgflagOptions) optarg with _ | x
  · rfl
  · obtain ⟨p, hp, ⟨rfl, -⟩ | ⟨rfl, -⟩⟩ := findFlag_some hf
    · exact absurd h.take_seven (hnames _ (List.mem_map_of_mem hp)).1
    · exact absurd h.take_seven (hnames _ (List.mem_map_of_mem hp)).2

theorem IsOathId.caseO_ok (ho : IsOathId optarg) (h : caseO E optarg s = (.ok ⟨⟩, s')) :
    s'.oathid = copyString E.oathidLen s.oathid optarg := by
  have hseven := ho.take_seven
  have htake : ∀ n ≤ 7, optarg.take n = "oath-id".toList.take n := fun n hn => by
    rw [← hseven, List.take_take, Nat.min_eq_left hn]
  have himf : optarg.take 9 ≠ "oath-imf=".toList := fun h9 => by
    have h7 := congrArg (List.take 7) h9
    rw [List.take_take, Nat.min_eq_left (by decide), hseven] at h7
    exact absurd h7 (by decide)
  have hkind : optarg.take 8 = "oath-id=".toList ∨ optarg = "oath-id".toList := ho
  unfold caseO at h
  rw [Proc.get_bind_run] at h
  obtain ⟨_, t, ht, h'⟩ := Proc.bind_eq_ok.1 h
  obtain rfl := (rejectIf_ok ht).2
  rw [htake 6 (by decide), if_neg (by decide), htake 3 (by decide), if_neg (by decide),
    htake 7 (by decide), if_neg (by decide), if_neg (by decide), ho.findFlag] at h'
  dsimp only at h'
  rw [if_neg himf, if_pos hkind] at h'
  obtain rfl := (Prod.mk.inj h').2
  rfl

theorem isOathId_of_last (h : lastOf oathIdOption os = some optarg) : IsOathId optarg := by
  obtain ⟨o, -, ho⟩ := lastOf_mem h
  unfold oathIdOption at ho
  split at ho
  · split_ifs at ho with hoath
    obtain rfl := Option.some.inj ho
    exact hoath
  · cases ho

theorem IsOathId.length_of_ne (h : IsOathId optarg) (hne : optarg ≠ "oath-id".toList) :
    8 ≤ optarg.length := by
  have htake := h.resolve_right hne
  have hlen : min 8 optarg.length = 8 := by
    rw [← List.length_take, htake]
    rfl
  omega

/-! ## What the loop keeps -/

/-- The strings are those of the options so far. -/
structure TextsSaid (os : List Getopt.Scanned) (s : ArgsState) : Prop where
  noNdef : lastOf ndefOption os = none → s.ndefType = none
  ndef : ∀ str, lastOf ndefOption os = some str →
    s.ndef = str.take 127 ∧ s.ndefType = some (ndefKind os)
  code : (∃ o ∈ os, givesCode o = true) → s.accessCode.isSome = true
  oathid : ∀ opt, lastOf oathIdOption os = some opt → s.oathid = opt.take 127

theorem TextsSaid.of_same (h : TextsSaid os s) (hs : SameTexts s s') : TextsSaid os s' where
  noNdef hnone := hs.ndefType.trans (h.noNdef hnone)
  ndef str hstr := ⟨hs.ndef.trans (h.ndef str hstr).1, hs.ndefType.trans (h.ndef str hstr).2⟩
  code hcode := by rw [hs.accessCode, h.code hcode]
  oathid opt hopt := hs.oathid.trans (h.oathid opt hopt)

theorem ndefOption_of_isText (h : isText o = true) : (ndefOption o).isSome = true := by
  unfold isText at h
  split at h
  · rfl
  · cases h

theorem ndefKind_concat (ho : isText o = false) : ndefKind (os ++ [o]) = ndefKind os := by
  simp [ndefKind, ho]

theorem ndefKind_of_none (h : lastOf ndefOption os = none) : ndefKind os = 'U' := by
  have hall := lastOf_eq_none.1 h
  refine if_neg fun hany => ?_
  obtain ⟨o, ho, htext⟩ := List.any_eq_true.1 hany
  have hsome := ndefOption_of_isText htext
  rw [hall o ho] at hsome
  cases hsome

/-- A record is asked for as before. -/
theorem handle_sameNdef (ho : ndefOption o = none) :
    Moves (fun s s' => (s'.ndefType, s'.ndef) = (s.ndefType, s.ndef)) (handle E o) := by
  refine handle_text (f := fun s => (s.ndefType, s.ndef)) (fun s s' h => ?_) (fun _ _ _ => rfl)
    (fun h => ?_) (fun _ _ => rfl) fun _ _ _ => rfl
  · rw [h.ndefType, h.ndef]
  · rw [givesNdef_eq, ho] at h
    cases h

theorem handle_sameCode (ho : givesCode o = false) :
    Moves (fun s s' => s'.accessCode = s.accessCode) (handle E o) := by
  refine handle_text (fun _ _ h => h.accessCode) (fun h => ?_) (fun _ _ _ _ => rfl)
    (fun _ _ => rfl) fun _ _ _ => rfl
  rw [ho] at h
  cases h

theorem handle_sameOathId (ho : oathIdOption o = none) :
    Moves (fun s s' => s'.oathid = s.oathid) (handle E o) := by
  refine handle_text (fun _ _ h => h.oathid) (fun _ _ _ => rfl) (fun _ _ _ _ => rfl)
    (fun _ _ => rfl) fun h => ?_
  rw [ho] at h
  cases h

theorem copyString_take (dst src : List Char) : copyString 128 dst src = src.take 127 := rfl

theorem TextsSaid.handled_ndef (hE : E.ndefLen = 128) (hs : TextsSaid os s)
    (h : handle E o s = (.ok ⟨⟩, s')) {str : List Char} (ho : ndefOption o = some str) :
    s'.ndef = str.take 127 ∧ s'.ndefType = some (ndefKind (os ++ [o])) := by
  unfold ndefOption at ho
  split at ho
  · obtain rfl := Option.some.inj ho
    obtain ⟨hndef, htype⟩ := caseN_stores h
    rw [hE, copyString_take] at hndef
    refine ⟨hndef, htype.trans ?_⟩
    rw [ndefKind_concat rfl]
    rcases hlast : lastOf ndefOption os with _ | last
    · rw [hs.noNdef hlast, ndefKind_of_none hlast]
      rfl
    · rw [(hs.ndef last hlast).2]
      rfl
  · obtain rfl := Option.some.inj ho
    obtain ⟨hndef, htype⟩ := caseT_stores h
    rw [hE, copyString_take] at hndef
    refine ⟨hndef, htype.trans ?_⟩
    simp [ndefKind, isText]
  · cases ho

theorem TextsSaid.handled (hE : E.ndefLen = 128) (hid : E.oathidLen = 128) (hs : TextsSaid os s)
    (h : handle E o s = (.ok ⟨⟩, s')) : TextsSaid (os ++ [o]) s' where
  noNdef hnone := by
    rcases ho : ndefOption o with _ | str
    · rw [lastOf_concat_none ho] at hnone
      have hsame := (handle_sameNdef ho).of_eq_ok h
      exact (Prod.mk.inj hsame).1.trans (hs.noNdef hnone)
    · rw [lastOf_concat_some ho] at hnone
      cases hnone
  ndef str hstr := by
    rcases ho : ndefOption o with _ | str'
    · rw [lastOf_concat_none ho] at hstr
      have hnot : isText o = false := by
        rw [← Bool.not_eq_true]
        intro htext
        have hsome := ndefOption_of_isText htext
        rw [ho] at hsome
        cases hsome
      have hsame := Prod.mk.inj ((handle_sameNdef ho).of_eq_ok h)
      obtain ⟨h1, h2⟩ := hs.ndef str hstr
      rw [ndefKind_concat hnot]
      exact ⟨hsame.2.trans h1, hsame.1.trans h2⟩
    · rw [lastOf_concat_some ho] at hstr
      obtain rfl := Option.some.inj hstr
      exact hs.handled_ndef hE h ho
  code hcode := by
    rcases ho : givesCode o with _ | _
    · obtain ⟨o', ho', hgives⟩ := hcode
      have hmem : o' ∈ os := (List.mem_append.1 ho').resolve_right fun hlast => by
        rw [List.mem_singleton.1 hlast, ho] at hgives
        cases hgives
      have hsame := (handle_sameCode ho).of_eq_ok h
      rw [hsame]
      exact hs.code ⟨o', hmem, hgives⟩
    · exact givesCode_ok ho h
  oathid opt hopt := by
    rcases ho : oathIdOption o with _ | opt'
    · rw [lastOf_concat_none ho] at hopt
      exact ((handle_sameOathId ho).of_eq_ok h).trans (hs.oathid opt hopt)
    · rw [lastOf_concat_some ho] at hopt
      obtain rfl := Option.some.inj hopt
      unfold oathIdOption at ho
      split at ho
      · split_ifs at ho with hoath
        obtain rfl := Option.some.inj ho
        obtain ⟨_, t, -, h⟩ := Proc.bind_eq_ok.1 h
        rw [hoath.caseO_ok h, hid, copyString_take]
      · cases ho

end Options

/-- The strings that an accepted command line leaves are those of its last options. -/
theorem argsToConfig_texts {E : ArgsEnv} (hE : E.ndefLen = 128) (hid : E.oathidLen = 128)
    {fuel : ℕ} {argv : List (List Char)} {stdin : List Char} {scanCodes deviceInfo : List UInt8}
    {s : ArgsState}
    (h : argsToConfig E fuel (.fresh argv stdin scanCodes deviceInfo) = (.ok ⟨⟩, s)) :
    TextsSaid (scans fuel (Getopt.start argv)) s := by
  obtain ⟨t, u, v, ht, hu, hv, h⟩ := argsToConfig_parts h
  have hnil : TextsSaid [] { ArgsState.fresh argv stdin scanCodes deviceInfo with
      ykp := (ykpConfigureVersion E.st ⟨ykpAlloc, none⟩).2 } :=
    ⟨fun _ => rfl, by simp [lastOf], by simp, by simp [lastOf]⟩
  have hsaid := optionLoop_scans (P := TextsSaid)
    (fun _ _ _ hs => hs.of_same ⟨rfl, rfl, rfl, rfl, rfl⟩)
    (fun _ _ _ _ hs h => hs.handled hE hid h) fuel [] hnil ht
  have hsection : Moves SameTexts (keySection E fuel) :=
    sameTexts.keySection E (fun _ _ _ => ⟨rfl, rfl, rfl, rfl, rfl⟩) (fun _ _ _ => trivial) fuel
  exact hsaid.of_same (steps_behindLoop sameTexts hsection hu hv h)

/-! ## Records and identifiers -/

/-- A record that says what it is made of. -/
def NdefSource.Says : NdefSource → YkNdef → Prop
  | .uri str, r => SaysUri r str
  | .text str lang isutf16, r =>
    nfcText r = some (isutf16, lang.map charByte, str.map charByte)

/-- A record that is made of this and nothing else, and says it. -/
structure Encodes (src : NdefSource) (record : YkNdef) : Prop where
  built : record = ykpAllocNdef.filled src.type src.bytes
  reads : src.Says record

/-- A string that a record has room for is shorter than the buffer of the command line. -/
theorem ndefSource_short {os : List Getopt.Scanned} {str : List Char}
    (h : (ndefSource os str).bytes.length ≤ ndefDataSize) : str.length ≤ 79 := by
  unfold ndefSource at h
  by_cases htext : os.any isText = true
  · rw [if_pos htext, length_text_bytes] at h
    have h54 : str.length + 2 + 1 ≤ 54 := h
    omega
  · rw [if_neg htext, length_uri_bytes] at h
    have h54 : str.length - (identifier (identifierCode str)).length + 1 ≤ 54 := h
    have hidentifier := length_identifier_le (identifierCode str)
    omega

theorem BuildsRecord.encodes {os : List Getopt.Scanned} {s : ArgsState} {record : YkNdef}
    {str : List Char} (h : BuildsRecord s record) (hndef : s.ndef = str.take 127)
    (htype : s.ndefType = some (ndefKind os)) :
    Encodes (ndefSource os str) record ∧ str.length < 128 := by
  have hconstruct : ∃ y y', (ndefSource os (str.take 127)).construct ykpAllocNdef y
      = (.ok record, y') := by
    obtain ⟨y, y', hbuilt⟩ := h.built
    refine ⟨y, y', ?_⟩
    rw [hndef] at hbuilt
    unfold ndefKind at htype
    unfold ndefSource
    rcases hbuilt with ⟨hu, hrun⟩ | ⟨ht, hrun⟩
    · have hnot : ¬ os.any isText = true := fun htext => by
        rw [if_pos htext, hu] at htype
        exact absurd htype (by decide)
      rw [if_neg hnot]
      exact hrun
    · have htext : os.any isText = true := by
        by_contra hnot
        rw [if_neg hnot, ht] at htype
        exact absurd htype (by decide)
      rw [if_pos htext]
      exact hrun
  obtain ⟨y, y', hrun⟩ := hconstruct
  obtain ⟨hlen, hrecord⟩ := construct_record hrun
  have hshort := ndefSource_short hlen
  rw [List.length_take] at hshort
  -- nothing has been cut
  have hwhole : str.take 127 = str := List.take_of_length_le (by omega)
  rw [hwhole] at hrecord hlen
  refine ⟨⟨hrecord, ?_⟩, by omega⟩
  rw [hrecord]
  unfold ndefSource at hlen ⊢
  split_ifs at hlen ⊢
  · rw [length_text_bytes] at hlen
    exact nfcText_built hlen _
  · exact saysUri_filled hlen

/-- An identifier that is set from what the buffer holds of an argument is the whole of it. -/
theorem setOathId_whole {σ : Type} {E : ArgsEnv} {H : Host σ} {opt : List Char} {s s' : Session σ}
    (hlen : 8 ≤ opt.length) (h : setOathId E H (opt.take 127) s = (.ok ⟨⟩, s')) :
    ∃ bytes, (hexModhexDecode E (opt.drop 8) 0 32 true).Gives bytes ∧
      s'.args.ykp.cfg.ykcoreConfig.fixed.toList
        = bytes ++ List.replicate (16 - bytes.length) 0 ∧
      s'.args.ykp.cfg.ykcoreConfig.fixedSize.toNat = bytes.length ∧ opt.length < 128 := by
  have hlong : 7 < (opt.take 127).length := by
    rw [List.length_take]
    omega
  obtain ⟨hrc, hfixed, hsize⟩ := setOathId_supplied _ _ _ hlong h
  obtain ⟨bytes, hgives, h16, h34⟩ := gives_of_rc hrc
  rw [List.length_drop, List.length_take] at h34
  -- nothing has been cut
  have hwhole : opt.take 127 = opt := List.take_of_length_le (by omega)
  rw [hwhole] at hgives hfixed hsize
  rw [hgives.resultlen, Option.getD_some, hgives.stored] at hfixed hsize
  refine ⟨bytes, hgives, ?_, ?_, by omega⟩
  · rw [hfixed]
    exact toList_charfield_of_le (show bytes.length ≤ 16 by omega)
  · rw [hsize, Nat.min_eq_left (show bytes.length ≤ 16 by omega)]
    exact UInt8.toNat_ofNat_of_lt' (show bytes.length < 256 by omega)

/-! ## Runs -/

section Results

variable {σ : Type} (U : Usb σ) (M : MainEnv) (fuel : ℕ) (argv : List (List Char))
  (stdin : List Char) (scanCodes deviceInfo accessCode : List UInt8) (data : List Char) (dev : σ)

/-- A record that a run writes is made of the strings of the last options, and there is no `-c`. -/
theorem record_written {record : YkNdef} {confnum : ℤ}
    (h : Act.program (.ndef record confnum) ∈ (ykpersonalize U M fuel
      (.start argv stdin scanCodes deviceInfo accessCode data dev)).2.acts) :
    ∃ s, TextsSaid (scans fuel (Getopt.start argv)) s ∧ BuildsRecord s record := by
  rcases ykpersonalize_outcome U M fuel
    (.start argv stdin scanCodes deviceInfo accessCode data dev) with
    hgrows | ⟨keyIndex, inf, v, u, answers, call, hrun⟩
  · cases hgrows.none rfl _ h
  · obtain rfl := (hrun.call_mem rfl).1 h
    obtain ⟨st, t, ht, -, htexts, -⟩ := hrun.atCommit.said
    have hsaid := argsToConfig_texts (E := M.argsEnv st) rfl rfl (parseOptions_ok ht).1
    exact ⟨u.session.args, hsaid.of_same htexts, hrun.fits.ndef record confnum rfl⟩

/-- A run with `-c` writes no record. -/
theorem no_record_with_code
    (hcode : ∃ o ∈ scans fuel (Getopt.start argv), givesCode o = true) :
    ∀ record confnum, Act.program (.ndef record confnum) ∉ (ykpersonalize U M fuel
      (.start argv stdin scanCodes deviceInfo accessCode data dev)).2.acts := by
  intro record confnum h
  obtain ⟨s, hsaid, hbuilds⟩ := record_written U M fuel argv stdin scanCodes deviceInfo accessCode
    data dev h
  have hsome := hsaid.code hcode
  rw [hbuilds.accessCode] at hsome
  cases hsome

section Examples

open ScriptedMain

theorem no_record_with_code_neo :
    Act.program (.ndef (ykpAllocNdef.filled 'U' [3, 0x61]) 1) ∉ (ykpersonalize usb (env [] []) 20
      (startNeo ["ykpersonalize", "-1", "-nhttp://a", "-c000000000000", "-y"] 8)).2.acts := by
  have hcode : ∃ o ∈ scans 20 (Getopt.start (["ykpersonalize", "-1", "-nhttp://a",
      "-c000000000000", "-y"].map String.toList)), givesCode o = true := by decide +kernel
  unfold startNeo
  exact no_record_with_code usb (env [] []) 20 _ [] (List.replicate 46 0) (List.replicate 128 0)
    (List.replicate 256 0) (List.replicate 1024 CString.nul) _ hcode _ _

/-- A key that accepts the record is not asked to, as soon as there is a code. -/
theorem record_not_written_with_code :
    let run := ykpersonalize usb (env [] []) 20
      (startNeo ["ykpersonalize", "-1", "-nhttp://a", "-c000000000000", "-y"] 8)
    run.1 = .ok 2 ∧ run.2.acts = [.step .argsToConfig true, .step .accessCode true,
      .report none none] ∧
    (ykpersonalize usb (env [] []) 20
      (startNeo ["ykpersonalize", "-1", "-nhttp://a", "-y"] 8)).2.acts
        = [.step .argsToConfig true, .program (.ndef (ykpAllocNdef.filled 'U' [3, 0x61]) 1)] := by
  decide +kernel

end Examples

/-- A record that is written says the whole of the last argument of `-n` and `-t`, and an identifier
that is set is the whole of the last one that was given. -/
theorem strings_not_cut :
    let m : MainState σ := .start argv stdin scanCodes deviceInfo accessCode data dev
    let given := scans fuel (Getopt.start argv)
    (∀ record confnum, Act.program (.ndef record confnum) ∈ (ykpersonalize U M fuel m).2.acts →
      ∃ str, lastOf ndefOption given = some str ∧ Encodes (ndefSource given str) record ∧
        str.length < 128) ∧
    (∀ keyIndex st t t' opt, parseOptions U M fuel keyIndex m = (.ok st, t) →
      applyOathId U M st t = (.ok ⟨⟩, t') → Act.step .setOathId true ∈ t'.acts →
      lastOf oathIdOption given = some opt → opt ≠ "oath-id".toList →
      ∃ bytes, (hexModhexDecode (M.argsEnv st) (opt.drop 8) 0 32 true).Gives bytes ∧
        t'.cfg.ykcoreConfig.fixed.toList = bytes ++ List.replicate (16 - bytes.length) 0 ∧
        t'.cfg.ykcoreConfig.fixedSize.toNat = bytes.length ∧ opt.length < 128) := by
  intro m given
  refine ⟨fun record confnum h => ?_, ?_⟩
  · obtain ⟨s, hsaid, hbuilds⟩ := record_written U M fuel argv stdin scanCodes deviceInfo
      accessCode data dev h
    rcases hlast : lastOf ndefOption given with _ | str
    · have hnone := hsaid.noNdef hlast
      obtain ⟨y, y', ⟨hu, -⟩ | ⟨ht, -⟩⟩ := hbuilds.built
      · rw [hnone] at hu
        cases hu
      · rw [hnone] at ht
        cases ht
    · obtain ⟨hndef, htype⟩ := hsaid.ndef str hlast
      exact ⟨str, rfl, hbuilds.encodes hndef htype⟩
  · intro keyIndex st t t' opt ht hid hstep hlast hne
    obtain ⟨hargs, hacts⟩ := parseOptions_ok ht
    have hopt := (argsToConfig_texts (E := M.argsEnv st) rfl rfl hargs).oathid opt hlast
    have hlen : 8 ≤ opt.length := (isOathId_of_last hlast).length_of_ne hne
    have hfirst : Act.step .setOathId true ∉ t.acts := by
      rw [hacts]
      simp [m, MainState.start]
    rcases applyOathId_ok hid with ⟨-, rfl⟩ | ⟨-, r, s, hset, rfl⟩
    · exact absurd hstep hfirst
    have hr := (List.mem_append.1 hstep).resolve_left hfirst
    rw [List.mem_singleton, Act.step.injEq] at hr
    obtain ⟨_, rfl⟩ := Option.isSome_iff_exists.1 hr.2.symm
    have hrun := Proc.of_attempt_ok hset
    rw [hopt] at hrun
    exact setOathId_whole hlen hrun

end Results

end YkPers
