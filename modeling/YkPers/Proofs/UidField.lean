import YkPers.Proofs.Decodes
import YkPers.Proofs.HexModhex
import YkPers.Proofs.Honoured
import YkPers.Proofs.KeyGeneration

/-!
# The key, the private identifier and the moving factor

`uid` is the private identifier, or the last four bytes of a key of 20 bytes in front of the moving
factor. The options store each without regard to the others. Along the loop the mode bit tells
what `uid` holds (`Parted`): the bit is set by the first `-o` only, before there is an identifier,
and an identifier is refused as long as it is set. The key comes last, and goes where the mode has
left room for it.
-/

namespace YkPers

open Guards (Marked)
open Proc (Moves)

/-! ## What the options say -/

/-- `-aK` gives the key `K`; without an argument, or with one that is an option, `-a` asks for
it. -/
def keyOption : Getopt.Scanned → Option (Option (List Char))
  | .arg 'a' optarg => some (if isOption optarg then none else some optarg)
  | .missing 'a' => some none
  | _ => none

/-- The argument of `-ouid=U` and of `-ouid`. -/
def uidOption : Getopt.Scanned → Option (List Char)
  | .arg 'o' optarg => if optarg.take 3 = "uid".toList then some optarg else none
  | _ => none

/-- The value of `-ooath-imf=`. -/
def imfOption : Getopt.Scanned → Option ℕ
  | .arg 'o' optarg =>
    if optarg.take 9 = "oath-imf=".toList then scanUnsignedLong (optarg.drop 9) else none
  | _ => none

/-- Behind its prefix, the string has two digits for each of the bytes, and they are decoded to
them. -/
def DecodesTo (E : ArgsEnv) (str : List Char) (bytes : List UInt8) : Prop :=
  let p := stripPrefix str false
  p.1.length = 2 * bytes.length ∧
    if p.2 then E.yubikeyModhexP p.1 = true ∧
      bytes = (E.yubikeyModhexDecode p.1 p.1.length).toList.take bytes.length
    else E.yubikeyHexP p.1 = true ∧
      bytes = (E.yubikeyHexDecode p.1 p.1.length).toList.take bytes.length

instance (E : ArgsEnv) (str : List Char) (bytes : List UInt8) : Decidable (DecodesTo E str bytes) :=
  inferInstanceAs (Decidable (_ ∧ _))

def bigEndian16 (n : ℕ) : List UInt8 := [UInt8.ofNat (n / 256), UInt8.ofNat n]

/-- What is decoded where exactly `n` bytes are asked for. -/
theorem decodesTo_of_rc (E : ArgsEnv) (str : List Char) (n : ℕ) {d : Decoded}
    (hd : hexModhexDecode E str (n * 2) (n * 2) false = d) (h : 0 < d.rc) :
    ∃ bytes, d.stored.take (d.resultlen.getD 0) = bytes ∧ bytes.length = n ∧
      DecodesTo E str bytes := by
  subst hd
  rw [hexModhexDecode_eq] at h ⊢
  obtain ⟨hgood, haccepts, hd⟩ := decodeDigits_of_rc h
  rw [hd, Option.getD_some]
  unfold DecodesTo
  generalize stripPrefix str false = p at hgood haccepts
  have hhalf : 2 * (p.1.length / 2) = p.1.length ∧ p.1.length / 2 = n := by
    unfold BadLength at hgood
    omega
  have hlen : ((E.decode p.2 p.1 p.1.length).toList.take (p.1.length / 2)).length
      = p.1.length / 2 := by
    rw [List.length_take, Vector.length_toList]
    omega
  refine ⟨_, rfl, hlen.trans hhalf.2, ?_⟩
  simp only [hlen, hhalf.1]
  refine ⟨trivial, ?_⟩
  rcases p with ⟨digits, _ | _⟩ <;> exact ⟨haccepts, rfl⟩

/-! ## The options beside `-o` -/

def SameCore (y y' : YkpState) : Prop := y'.cfg.ykcoreConfig = y.cfg.ykcoreConfig

def SameUid (y y' : YkpState) : Prop := y'.cfg.ykcoreConfig.uid = y.cfg.ykcoreConfig.uid

def SameKey (s s' : ArgsState) : Prop := s'.keylocation = s.keylocation ∧ s'.aeshash = s.aeshash

theorem sameCore : CaseFrame SameCore fun s s' => SameCore s.ykp s'.ykp where
  transYkp _ _ _ h k := k.trans h
  cfg _ _ h := by rw [SameCore, h]
  trans _ _ _ h k := k.trans h
  same _ _ h := by rw [SameCore, h.ykp]
  ykp _ _ h := h
  command _ _ _ := rfl
  any _ _ h := by rw [SameCore, h.ykp]

theorem sameUid : CaseFrame SameUid fun s s' => SameUid s.ykp s'.ykp where
  transYkp _ _ _ h k := k.trans h
  cfg _ _ h := by rw [SameUid, h]
  trans _ _ _ h k := k.trans h
  same _ _ h := by rw [SameUid, h.ykp]
  ykp _ _ h := h
  command _ _ _ := rfl
  any _ _ h := by rw [SameUid, h.ykp]

theorem sameUid_flagClosed : FlagClosed SameUid := fun field _ _ _ _ _ => by cases field <;> rfl

theorem sameKey : CaseFrame (fun _ _ => True) SameKey where
  transYkp _ _ _ _ _ := trivial
  cfg _ _ _ := trivial
  trans _ _ _ h k := ⟨k.1.trans h.1, k.2.trans h.2⟩
  same _ _ h := ⟨h.keylocation, h.aeshash⟩
  ykp _ _ _ := ⟨rfl, rfl⟩
  command _ _ _ := trivial
  any _ _ h := ⟨h.keylocation, h.aeshash⟩

section Cases

variable {E : ArgsEnv} {o : Getopt.Scanned} {s s' : ArgsState}

theorem givesKey_ykp (ho : givesKey o = true) (s : ArgsState) : (handle E o s).2.ykp = s.ykp := by
  unfold givesKey at ho
  split at ho
  · rename_i optarg
    change (caseA optarg s).2.ykp = s.ykp
    unfold caseA
    split_ifs <;> rfl
  · rfl
  · cases ho

/-- Beside `-o` and the slot, no option changes what will be written. -/
theorem handle_core (ho : optionKind o ≠ .option) (hslot : (optionKind o).isSlot = false) :
    Moves (fun s s' => SameCore s.ykp s'.ykp) (handle E o) := by
  refine sameCore.handle E (fun h s => ?_) (fun h s => ?_) (fun _ _ _ => rfl)
    (fun _ _ _ _ => rfl) (fun _ _ _ _ _ _ => rfl) (fun h => ?_) ?_
  · exact congrArg (fun y => y.cfg.ykcoreConfig) (gates_ykp h s)
  · exact congrArg (fun y => y.cfg.ykcoreConfig) (givesKey_ykp h s)
  · rw [hslot] at h
    cases h
  · rintro optarg rfl
    exact absurd rfl ho

theorem handle_uid (ho : optionKind o ≠ .option) :
    Moves (fun s s' => SameUid s.ykp s'.ykp) (handle E o) := by
  refine sameUid.handle E (fun h s => ?_) (fun h s => ?_) (fun _ _ _ => rfl)
    (fun _ _ _ _ => rfl) (fun _ _ _ _ _ _ => rfl) (fun _ => sameUid_flagClosed) ?_
  · exact congrArg (fun y => y.cfg.ykcoreConfig.uid) (gates_ykp h s)
  · exact congrArg (fun y => y.cfg.ykcoreConfig.uid) (givesKey_ykp h s)
  · rintro optarg rfl
    exact absurd rfl ho

/-! ## The key that is given -/

theorem handle_sameKey (ho : keyOption o = none) : Moves SameKey (handle E o) := by
  refine sameKey.handle E (fun h s => ?_) (fun h => ?_) (fun _ _ _ => ⟨rfl, rfl⟩)
    (fun _ _ _ _ => ⟨rfl, rfl⟩) (fun _ _ _ _ _ _ => ⟨rfl, rfl⟩) (fun _ _ _ _ _ _ _ => trivial) ?_
  · unfold gates at h
    split at h
    · exact ⟨rfl, rfl⟩
    · exact ⟨rfl, rfl⟩
    · exact ⟨rfl, rfl⟩
    · cases h
  · unfold givesKey at h
    split at h
    · cases ho
    · cases ho
    · cases h
  · rintro optarg rfl
    exact sameKey.bind (sameKey.modeOption optarg fun _ => trivial) fun _ =>
      sameKey.caseO E optarg ⟨fun _ _ _ _ _ => trivial, fun _ _ _ => trivial⟩
        (fun _ _ _ _ _ _ => trivial) fun _ _ _ _ _ _ => ⟨rfl, rfl⟩

/-- The key that the last `-a` gives is the one that will be decoded. -/
def KeyTracked (os : List Getopt.Scanned) (s : ArgsState) : Prop :=
  ∀ key, lastOf keyOption os = some (some key) → s.keylocation = 1 ∧ s.aeshash = some key

theorem keyTracked_handle {os : List Getopt.Scanned} (h : KeyTracked os s)
    (hs : handle E o s = (.ok ⟨⟩, s')) : KeyTracked (os ++ [o]) s' := by
  intro key hkey
  rcases ho : keyOption o with _ | k
  · rw [lastOf_concat_none ho] at hkey
    obtain ⟨h1, h2⟩ := h key hkey
    have hsame := (handle_sameKey ho).of_eq_ok hs
    exact ⟨hsame.1.trans h1, hsame.2.trans h2⟩
  · rw [lastOf_concat_some ho] at hkey
    obtain rfl := Option.some.inj hkey
    unfold keyOption at ho
    split at ho
    · rename_i optarg
      split_ifs at ho with hopt
      · cases ho
      obtain rfl := Option.some.inj (Option.some.inj ho)
      have hcase : caseA optarg s = (.ok ⟨⟩, s') := hs
      rw [caseA, if_neg hopt] at hcase
      obtain rfl := (Prod.mk.inj hcase).2
      exact ⟨rfl, rfl⟩
    · cases ho
    · cases ho

end Cases

/-! ## `-o` -/

/-- The bit that OATH-HOTP and challenge-response share. -/
def YkpState.InMode (y : YkpState) : Prop := bit y.cfg.ykcoreConfig.tktFlags 6

def IsMode (optarg : List Char) : Prop :=
  optarg = "oath-hotp".toList ∨ optarg = "chal-resp".toList

instance : DecidablePred IsMode := fun _ => inferInstanceAs (Decidable (_ ∨ _))

/-- `uid` is as before, and the mode bit is set only if it was, or a mode is chosen. -/
structure Keeps (M : Prop) (y y' : YkpState) : Prop where
  uid : SameUid y y'
  mode : y'.InMode → y.InMode ∨ M

theorem keeps (M : Prop) : StepFrame (Keeps M) fun s s' => Keeps M s.ykp s'.ykp where
  transYkp _ _ _ h k := ⟨k.uid.trans h.uid, fun hm => (k.mode hm).elim h.mode .inr⟩
  cfg _ _ h := ⟨by rw [SameUid, h], fun hm => .inl (by rwa [YkpState.InMode, h] at hm)⟩
  trans _ _ _ h k := ⟨k.uid.trans h.uid, fun hm => (k.mode hm).elim h.mode .inr⟩
  same _ _ h := ⟨by rw [SameUid, h.ykp], fun hm => .inl (by rwa [h.ykp] at hm)⟩
  ykp _ _ h := h

theorem keeps_store {M : Prop} {f : YkConfig → YkConfig} (huid : ∀ c, (f c).uid = c.uid)
    (htkt : ∀ c, (f c).tktFlags = c.tktFlags) : Moves (Keeps M) (ykpStore f) := fun y =>
  ⟨huid _, fun hm => .inl ((congrArg (bit · 6) (htkt y.cfg.ykcoreConfig)).mp hm)⟩

theorem keeps_setFixed {M : Prop} (input : List UInt8) : Moves (Keeps M) (ykpSetFixed input) :=
  .get_bind fun _ => .ite (keeps_store (fun _ => rfl) fun _ => rfl) fun _ => ⟨rfl, .inl⟩

theorem keeps_setter {M : Prop} {field : FlagField} {p : MapSt} (hp : p ∈ flagsMap field)
    {state : Bool} (h : field = .tkt → state = true → bit p.flag 6 → M) :
    Moves (Keeps M) (p.setter state) := by
  rw [setter_eq field p hp]
  refine .get_bind fun _ => .ite (fun y => ⟨by cases field <;> rfl, fun hm => ?_⟩)
    fun _ => ⟨rfl, .inl⟩
  cases field with
  | tkt =>
    cases state with
    | true => exact ((bit_or _ _ _).1 hm).imp_right (h rfl rfl)
    | false => exact .inl ((bit_and _ _ _).1 hm).1
  | cfg => exact .inl hm
  | ext => exact .inl hm

/-- The setters of the mode bit are those of the two modes. -/
theorem mode_of_tktflag {p : String × (Bool → Proc YkpState Unit)} (hp : p ∈ tktflagOptions) :
    ∃ q ∈ flagsMap .tkt, p.2 = q.setter ∧ (bit q.flag 6 → IsMode p.1.toList) := by
  obtain ⟨i, hi, rfl⟩ := List.getElem_of_mem hp
  have hsetters : tktflagOptions.map Prod.snd = ticketFlagsMap.map MapSt.setter := rfl
  have hnames : ∀ i : Fin 9,
      bit (ticketFlagsMap[i]).flag 6 → IsMode (tktflagOptions[i]).1.toList := by decide
  refine ⟨ticketFlagsMap[i], List.getElem_mem _, ?_, hnames ⟨i, hi⟩⟩
  have h := List.getElem_of_eq hsetters ((List.length_map _).symm ▸ hi)
  rwa [List.getElem_map, List.getElem_map] at h

theorem keeps_findFlag {table : List (String × (Bool → Proc YkpState Unit))}
    (ht : table ⊆ tktflagOptions ++ cfgflagOptions ++ extflagOptions) {optarg : List Char}
    {x : Proc YkpState Unit} (hx : findFlag table optarg = some x) :
    Moves (Keeps (IsMode optarg)) x := by
  obtain ⟨p, hp, hcases⟩ := findFlag_some hx
  simp only [List.subset_def, List.mem_append] at ht
  rcases ht hp with (hp | hp) | hp
  · obtain ⟨q, hq, hset, hmode⟩ := mode_of_tktflag hp
    rcases hcases with ⟨ho, rfl⟩ | ⟨-, rfl⟩ <;> rw [hset]
    · exact keeps_setter hq fun _ _ hb => ho ▸ hmode hb
    · exact keeps_setter hq fun _ h => nomatch h
  · obtain ⟨q, hq, hset⟩ := cfgflagOptions_setters p.2 (List.mem_map_of_mem hp)
    rcases hcases with ⟨-, rfl⟩ | ⟨-, rfl⟩ <;> rw [hset] <;> exact keeps_setter hq nofun
  · obtain ⟨q, hq, hset⟩ := extflagOptions_setters p.2 (List.mem_map_of_mem hp)
    rcases hcases with ⟨-, rfl⟩ | ⟨-, rfl⟩ <;> rw [hset] <;> exact keeps_setter hq nofun

theorem keeps_caseO (E : ArgsEnv) {optarg : List Char} (huid : optarg.take 3 ≠ "uid".toList)
    (himf : optarg.take 9 ≠ "oath-imf=".toList) :
    Moves (fun s s' => Keeps (IsMode optarg) s.ykp s'.ykp) (caseO E optarg) :=
  (keeps _).caseO_of E optarg (fun s _ => (keeps _).refl s) (fun _ s _ => (keeps _).refl s)
    keeps_setFixed (fun h => absurd h huid) (fun h => absurd h himf)
    fun _ ht _ hx => keeps_findFlag ht hx

section Option

variable {E : ArgsEnv} {optarg : List Char} {s s' : ArgsState}

theorem sameCfg : StepFrame (fun y y' => y'.cfg = y.cfg) fun s s' => s'.ykp.cfg = s.ykp.cfg where
  transYkp _ _ _ h k := k.trans h
  cfg _ _ h := h
  trans _ _ _ h k := k.trans h
  same _ _ h := by rw [h.ykp]
  ykp _ _ h := h

theorem oathHotp_inMode (y : YkpState) : ykpGetTktflagOathHotp y.cfg = true ↔ y.InMode := by
  rw [ykpGetTktflagOathHotp, ykpGetFlag, decide_eq_true_iff]
  exact oathHotp_iff _

theorem uidValue_given (uid : List Char) : uidValue ("uid=".toList ++ uid) = pure uid := by
  have htake : ("uid=".toList ++ uid).take 4 = "uid=".toList := List.take_left' rfl
  have hdrop : ("uid=".toList ++ uid).drop 4 = uid := List.drop_left' rfl
  rw [uidValue, if_pos htake, hdrop]

/-- An identifier is stored outside the modes. -/
theorem optionUid_ok (h : optionUid E optarg s = (.ok ⟨⟩, s')) :
    ¬ s.ykp.InMode ∧ ¬ s'.ykp.InMode ∧ ∀ uid, optarg = "uid=".toList ++ uid →
      DecodesTo E uid s'.ykp.cfg.ykcoreConfig.uid.toList := by
  unfold optionUid at h
  obtain ⟨value, t, ht, h⟩ := Proc.bind_eq_ok.1 h
  have hcfg : t.ykp.cfg = s.ykp.cfg := (sameCfg.uidValue optarg).of_eq_ok ht
  obtain ⟨_, u, hu, h⟩ := Moves.bind_eq_ok (sameCfg.noteDecode _ _) h
  obtain ⟨hrc, h⟩ := rejectIf_bind_ok h
  rw [Proc.get_bind_run] at h
  obtain ⟨hmode, h⟩ := rejectIf_bind_ok h
  obtain rfl := (Prod.mk.inj h).2
  rw [Bool.or_eq_false_iff, Bool.eq_false_iff, Ne, oathHotp_inMode] at hmode
  have hnot : ¬ s.ykp.InMode := by
    rw [YkpState.InMode, ← hcfg, ← hu]
    exact hmode.1
  refine ⟨hnot, hmode.1, ?_⟩
  rintro uid rfl
  rw [uidValue_given, Proc.pure_run] at ht
  obtain rfl := Ret.ok.inj (Prod.mk.inj ht).1
  obtain ⟨bytes, hbytes, hlen, hdecodes⟩ :=
    decodesTo_of_rc E uid 6 rfl (by simpa using hrc)
  have huid : (charfield uidSize bytes).toList = bytes := by
    rw [toList_charfield (Nat.le_of_eq hlen.symm), List.take_of_length_le (Nat.le_of_eq hlen)]
  rw [← huid, ← hbytes] at hdecodes
  exact hdecodes

theorem orExitOne_ok {x : Proc YkpState Unit} (h : orExitOne x s = (.ok ⟨⟩, s')) :
    ∃ y, x s.ykp = (.ok ⟨⟩, y) ∧ s' = { s with ykp := y } := by
  obtain ⟨r, t, hr, h⟩ := Proc.bind_eq_ok.1 h
  obtain ⟨h1, rfl⟩ := Prod.mk.inj hr
  rcases r with _ | ⟨⟩
  · cases (Prod.mk.inj h).1
  · have hx : Proc.attempt x s.ykp = (.ok (some ⟨⟩), (Proc.attempt x s.ykp).2) := Prod.ext h1 rfl
    exact ⟨_, Proc.of_attempt_ok hx, (Prod.mk.inj h).2.symm⟩

theorem toList_set_set (v : Vector UInt8 uidSize) (a b : UInt8) :
    ((v.set 4 a).set 5 b).toList = v.toList.take 4 ++ [a, b] := by
  have hlen : v.toList.length = 6 := Vector.length_toList
  rw [Vector.toList_set, Vector.toList_set]
  generalize v.toList = l at hlen
  match l, hlen with
  | [_, _, _, _, _, _], _ => rfl

/-- A moving factor is stored in the modes. -/
theorem optionOathImf_ok {value : List Char} (h : optionOathImf value s = (.ok ⟨⟩, s')) :
    s.ykp.InMode ∧ s'.ykp.InMode ∧ ∃ imf, scanUnsignedLong value = some imf ∧
      s'.ykp.cfg.ykcoreConfig.uid.toList
        = s.ykp.cfg.ykcoreConfig.uid.toList.take 4 ++ bigEndian16 (imf / 16) := by
  unfold optionOathImf at h
  rw [Proc.get_bind_run] at h
  obtain ⟨hmode, h⟩ := rejectIf_bind_ok h
  have hin : s.ykp.InMode := (oathHotp_inMode _).1 (by simpa using hmode)
  rcases himf : scanUnsignedLong value with _ | imf <;> rw [himf] at h
  · exact (reject_ne_ok h).elim
  obtain ⟨hrange, h⟩ := rejectIf_bind_ok h
  simp only [Bool.or_eq_false_iff, decide_eq_false_iff_not] at hrange
  obtain ⟨y, hy, rfl⟩ := orExitOne_ok h
  rw [ykpSetOathImf, Proc.get_bind_run, if_neg hrange.1, if_neg hrange.2] at hy
  by_cases hcap : capabilityHasOathImf s.ykp.cfg = true
  · rw [if_neg (not_not.2 hcap)] at hy
    obtain rfl := (Prod.mk.inj hy).2
    exact ⟨hin, hin, imf, rfl, toList_set_set _ _ _⟩
  · rw [if_pos hcap] at hy
    cases (Prod.mk.inj hy).1

theorem take_of_take {n m : ℕ} {a b : List Char} (hm : m ≤ n) (h : optarg.take n = a)
    (hb : a.take m = b) : optarg.take m = b := by
  rw [← hb, ← h, List.take_take, Nat.min_eq_left hm]

theorem caseO_uid (h : optarg.take 3 = "uid".toList) {s s' : ArgsState}
    (hs : caseO E optarg s = (.ok ⟨⟩, s')) : optionUid E optarg s = (.ok ⟨⟩, s') := by
  have hfixed : optarg.take 6 ≠ "fixed=".toList := fun h6 =>
    absurd (h.symm.trans (take_of_take (by decide) h6 rfl)) (by decide)
  rw [caseO, Proc.get_bind_run] at hs
  obtain ⟨-, hs⟩ := rejectIf_bind_ok hs
  rwa [if_neg hfixed, if_pos h] at hs

/-- No flag is named like the moving factor. -/
theorem findFlag_imf (h : optarg.take 9 = "oath-imf=".toList) :
    findFlag (tktflagOptions ++ cfgflagOptions) optarg = none := by
  have hnames : ∀ name ∈ (tktflagOptions ++ cfgflagOptions).map Prod.fst,
      name.toList.take 9 ≠ "oath-imf=".toList ∧
        ('-' :: name.toList).take 9 ≠ "oath-imf=".toList := by decide
  by_contra hne
  obtain ⟨x, hx⟩ := Option.ne_none_iff_exists'.1 hne
  obtain ⟨p, hp, ⟨rfl, -⟩ | ⟨rfl, -⟩⟩ := findFlag_some hx
  · exact (hnames p.1 (List.mem_map_of_mem hp)).1 h
  · exact (hnames p.1 (List.mem_map_of_mem hp)).2 h

theorem caseO_imf (h : optarg.take 9 = "oath-imf=".toList) {s s' : ArgsState}
    (hs : caseO E optarg s = (.ok ⟨⟩, s')) :
    optionOathImf (optarg.drop 9) s = (.ok ⟨⟩, s') := by
  have htake : ∀ m ≤ 9, optarg.take m = "oath-imf=".toList.take m := fun m hm =>
    take_of_take hm h rfl
  rw [caseO, Proc.get_bind_run] at hs
  obtain ⟨-, hs⟩ := rejectIf_bind_ok hs
  rw [if_neg, if_neg, if_neg, if_neg, findFlag_imf h] at hs
  · dsimp only at hs
    rwa [if_pos h] at hs
  all_goals rw [htake _ (by decide)]; decide

/-- The first `-o` of a mode clears the flags; otherwise the configuration is as before. -/
theorem modeOption_uid (h : modeOption optarg s = (.ok ⟨⟩, s')) :
    (IsMode optarg → s.optionSeen = false ∧ SameUid s.ykp s'.ykp) ∧
      (¬ IsMode optarg → s'.ykp = s.ykp) := by
  rw [modeOption] at h
  split_ifs at h with hmode
  · rw [Proc.get_bind_run] at h
    obtain ⟨-, h⟩ := rejectIf_bind_ok h
    obtain ⟨hseen, h⟩ := rejectIf_bind_ok h
    obtain rfl := (Prod.mk.inj h).2
    exact ⟨fun _ => ⟨hseen, rfl⟩, fun hno => absurd hmode hno⟩
  · obtain rfl := (Prod.mk.inj h).2
    exact ⟨fun hm => absurd hm hmode, fun _ => rfl⟩

/-! ## What `uid` holds -/

/-- In a mode `uid` ends in the moving factor, and there has been no identifier; outside it is the
identifier that the last `-ouid` gives. -/
structure Parted (E : ArgsEnv) (os : List Getopt.Scanned) (s : ArgsState) : Prop where
  fresh : s.optionSeen = false → s.ykp.cfg.ykcoreConfig.uid = Vector.replicate _ 0 ∧
    lastOf uidOption os = none ∧ lastOf imfOption os = none
  inMode : s.ykp.InMode → lastOf uidOption os = none ∧ s.ykp.cfg.ykcoreConfig.uid.toList
    = List.replicate 4 0 ++ bigEndian16 ((lastOf imfOption os).getD 0 / 16)
  outside : ¬ s.ykp.InMode → ∀ uid, lastOf uidOption os = some ("uid=".toList ++ uid) →
    DecodesTo E uid s.ykp.cfg.ykcoreConfig.uid.toList

variable {os : List Getopt.Scanned}

theorem parted_of_zero (hfresh : s.ykp.cfg.ykcoreConfig.uid = Vector.replicate _ 0 ∧
    lastOf uidOption os = none ∧ lastOf imfOption os = none) : Parted E os s where
  fresh _ := hfresh
  inMode _ := ⟨hfresh.2.1, by rw [hfresh.1, hfresh.2.2]; rfl⟩
  outside _ uid h := by
    rw [hfresh.2.1] at h
    cases h

/-- An option that is not about `uid` leaves it, and does not choose a mode. -/
theorem Parted.keeps (hp : Parted E os s) (hseen : s'.optionSeen = false → s.optionSeen = false)
    (hk : Keeps False s.ykp s'.ykp) {o : Getopt.Scanned} (huid : uidOption o = none)
    (himf : imfOption o = none) : Parted E (os ++ [o]) s' where
  fresh hf := by
    rw [lastOf_concat_none huid, lastOf_concat_none himf, hk.uid]
    exact hp.fresh (hseen hf)
  inMode hm := by
    rw [lastOf_concat_none huid, lastOf_concat_none himf, hk.uid]
    exact hp.inMode ((hk.mode hm).resolve_right not_false)
  outside hm uid hu := by
    rw [lastOf_concat_none huid] at hu
    rw [hk.uid]
    by_cases hs : s.ykp.InMode
    · rw [(hp.inMode hs).1] at hu
      cases hu
    · exact hp.outside hs uid hu

theorem parted_option (hp : Parted E os s) (h : handle E (.arg 'o' optarg) s = (.ok ⟨⟩, s')) :
    Parted E (os ++ [.arg 'o' optarg]) s' := by
  have hseen : s'.optionSeen = true :=
    ((handle_ok h).seen .option).trans (Bool.or_true _)
  have hnot : ¬ s'.optionSeen = false := by simp [hseen]
  obtain ⟨_, t, ht, h⟩ := Proc.bind_eq_ok.1 h
  obtain ⟨hmode, hother⟩ := modeOption_uid ht
  by_cases huid : optarg.take 3 = "uid".toList
  · -- neither mode is called so
    have hm : ¬ IsMode optarg := by
      rintro (rfl | rfl) <;> exact absurd huid (by decide)
    obtain ⟨-, hout, hdecodes⟩ := optionUid_ok (caseO_uid huid h)
    refine ⟨fun hf => absurd hf hnot, fun hin => absurd hin hout, fun _ uid hu => hdecodes uid ?_⟩
    rw [lastOf_concat_some (if_pos huid)] at hu
    exact Option.some.inj hu
  by_cases himf : optarg.take 9 = "oath-imf=".toList
  · have hm : ¬ IsMode optarg := by
      rintro (rfl | rfl) <;> exact absurd himf (by decide)
    obtain ⟨hin, hin', imf, hvalue, hstored⟩ := optionOathImf_ok (caseO_imf himf h)
    rw [hother hm] at hin hstored
    obtain ⟨hnone, hbytes⟩ := hp.inMode hin
    refine ⟨fun hf => absurd hf hnot, fun _ => ⟨?_, ?_⟩, fun hout => absurd hin' hout⟩
    · rw [lastOf_concat_none (if_neg huid), hnone]
    · rw [hstored, hbytes, lastOf_concat_some ((if_pos himf).trans hvalue)]
      rfl
  have hk := (keeps_caseO E huid himf).of_eq_ok h
  by_cases hm : IsMode optarg
  · -- the first `-o`: `uid` is still as it was allocated
    obtain ⟨hfirst, hkept⟩ := hmode hm
    obtain ⟨h1, h2, h3⟩ := hp.fresh hfirst
    refine parted_of_zero ⟨hk.uid.trans (hkept.trans h1), ?_, ?_⟩
    · rw [lastOf_concat_none (if_neg huid), h2]
    · rw [lastOf_concat_none (if_neg himf), h3]
  · rw [hother hm] at hk
    exact hp.keeps (fun hf => absurd hf hnot)
      ⟨hk.uid, fun hin => .inl ((hk.mode hin).resolve_right hm)⟩ (if_neg huid) (if_neg himf)

theorem parted_handle {o : Getopt.Scanned} (hp : Parted E os s)
    (h : handle E o s = (.ok ⟨⟩, s')) : Parted E (os ++ [o]) s' := by
  by_cases ho : optionKind o = .option
  · obtain ⟨optarg, rfl⟩ : ∃ optarg, o = .arg 'o' optarg := by
      unfold optionKind at ho
      split at ho <;> first | exact ⟨_, rfl⟩ | cases ho
    exact parted_option hp h
  have huid : uidOption o = none := by
    unfold uidOption
    split
    · exact absurd rfl ho
    · rfl
  have himf : imfOption o = none := by
    unfold imfOption
    split
    · exact absurd rfl ho
    · rfl
  by_cases hslot : (optionKind o).isSlot = true
  · -- a slot option comes before the first `-o`
    have hfirst : s.optionSeen = false := by
      refine (handle_ok h).clear .option ?_
      generalize optionKind o = k at hslot
      cases k <;> first | decide | cases hslot
    obtain ⟨h1, h2, h3⟩ := hp.fresh hfirst
    have hk : SameUid s.ykp s'.ykp := (handle_uid ho).of_eq_ok h
    refine parted_of_zero ⟨hk.trans h1, ?_, ?_⟩
    · rw [lastOf_concat_none huid, h2]
    · rw [lastOf_concat_none himf, h3]
  · have hcore : SameCore s.ykp s'.ykp :=
      Moves.of_eq_ok (handle_core ho (Bool.eq_false_iff.2 hslot)) h
    refine hp.keeps (fun hf => ?_) ⟨congrArg YkConfig.uid hcore, fun hin => .inl ?_⟩ huid himf
    · have hs := (handle_ok h).seen .option
      exact (Bool.or_eq_false_iff.1 (hs.symm.trans hf)).1
    · rwa [YkpState.InMode, hcore] at hin

/-! ## The loop -/

variable {fuel : ℕ} {argv : List (List Char)} {stdin : List Char}
  {scanCodes deviceInfo : List UInt8}

theorem parted_optionLoop (h : optionLoop E fuel (loopStart E argv stdin scanCodes deviceInfo)
      = (.ok ⟨⟩, s')) :
    Parted E (scans fuel (Getopt.start argv)) s' ∧
      KeyTracked (scans fuel (Getopt.start argv)) s' := by
  exact optionLoop_scans (P := fun os s => Parted E os s ∧ KeyTracked os s)
    (fun os s g hp => ⟨⟨hp.1.fresh, hp.1.inMode, hp.1.outside⟩, hp.2⟩)
    (fun os o s t hp ht => ⟨parted_handle hp.1 ht, keyTracked_handle hp.2 ht⟩) fuel []
    ⟨parted_of_zero ⟨rfl, rfl, rfl⟩, fun _ h => nomatch h⟩ h

/-! ## The key that is stored -/

theorem keyFromRaw_keyed {n : ℕ} (hn : n = 20 ∨ n = 16) {bytes : List UInt8}
    (hlen : bytes.length = n) (y : YkpState) :
    ∃ c, (if n = 20 then ykpHmacKeyFromRaw bytes else ykpAesKeyFromRaw bytes) y
        = (.ok ⟨⟩, { y with cfg.ykcoreConfig := c }) ∧ Keyed y.cfg.ykcoreConfig c n bytes := by
  refine ⟨_, ?_, keyed_store y.cfg.ykcoreConfig hn hlen⟩
  rcases hn with rfl | rfl <;> rfl

theorem keySection_given {key : List Char} (h : keySection E fuel s = (.ok ⟨⟩, s'))
    (hzap : s.zap = false)
    (hcommand : s.ykp.cfg.command = slotConfig ∨ s.ykp.cfg.command = slotConfig2)
    (hlocation : s.keylocation = 1) (hkey : s.aeshash = some key) :
    ∃ bytes c, bytes.length = ykpGetSupportedKeyLength s.ykp.cfg ∧ DecodesTo E key bytes ∧
      s'.ykp.cfg = { s.ykp.cfg with ykcoreConfig := c } ∧
      Keyed s.ykp.cfg.ykcoreConfig c (ykpGetSupportedKeyLength s.ykp.cfg) bytes := by
  rw [keySection_eq_storeGivenKey hzap hcommand hlocation] at h
  obtain ⟨keybuf, t, hd, h⟩ := Proc.bind_eq_ok.1 h
  rw [decodeKey, Proc.get_bind_run, hkey, Option.getD_some] at hd
  obtain ⟨_, u, hu, hd⟩ := Moves.bind_eq_ok (sameCfg.noteDecode _ _) hd
  obtain ⟨hrc, hd⟩ := rejectIf_bind_ok hd
  obtain ⟨hbuf, rfl⟩ := Prod.mk.inj hd
  obtain ⟨bytes, hbytes, hlen, hdecodes⟩ :=
    decodesTo_of_rc E key _ rfl (by simpa using hrc)
  obtain rfl : bytes = keybuf := hbytes.symm.trans (Ret.ok.inj hbuf)
  obtain ⟨c, hrun, hkeyed⟩ :=
    keyFromRaw_keyed (ykpGetSupportedKeyLength_cases s.ykp.cfg) hlen u.ykp
  have hykp : s'.ykp = { u.ykp with cfg.ykcoreConfig := c } := by
    rw [← (Prod.mk.inj h).2]
    exact congrArg Prod.snd hrun
  rw [hu] at hkeyed
  exact ⟨bytes, c, hlen, hdecodes, (congrArg YkpState.cfg hykp).trans
    (congrArg (fun d : YkpConfig => { d with ykcoreConfig := c }) hu), hkeyed⟩

theorem Keyed.flags {c d : YkConfig} {n : ℕ} {bytes : List UInt8} (h : Keyed c d n bytes)
    (field : FlagField) : d.flags field = c.flags field := by
  have hrest := congrArg (YkConfig.flags · field) h.rest
  rw [← hrest]
  cases field <;> rfl

theorem ykpGetSupportedKeyLength_congr {c d : YkpConfig}
    (h : ∀ field, d.ykcoreConfig.flags field = c.ykcoreConfig.flags field) :
    ykpGetSupportedKeyLength d = ykpGetSupportedKeyLength c := by
  have hget : ∀ field flag, ykpGetFlag field flag d = ykpGetFlag field flag c :=
    fun field flag => congrArg (fun x => decide (x &&& flag = flag)) (h field)
  unfold ykpGetSupportedKeyLength ykpGetTktflagOathHotp ykpGetTktflagChalResp
    ykpGetCfgflagChalYubico ykpGetCfgflagChalHmac
  rw [hget, hget, hget, hget]

/-- Keys of 20 bytes are for the modes. -/
theorem inMode_of_supportedKeyLength {y : YkpState} (h : ykpGetSupportedKeyLength y.cfg = 20) :
    y.InMode := by
  by_contra hm
  have hoath : ykpGetTktflagOathHotp y.cfg = false := by
    rwa [Bool.eq_false_iff, Ne, oathHotp_inMode]
  have hchal : ykpGetTktflagChalResp y.cfg = false := hoath
  simp [ykpGetSupportedKeyLength, hoath, hchal] at h

theorem marked_zap {os : List Getopt.Scanned} (h : Marked Kind.mark (os.map optionKind) .zap) :
    .flag 'z' ∈ os := by
  obtain ⟨k, hk, hm⟩ := h
  obtain ⟨o, ho, rfl⟩ := List.mem_map.1 hk
  unfold optionKind at hm
  split at hm <;> first | exact ho | cases hm

/-- `key` and, with a key of 20 bytes, the front of `uid` hold the bytes of the key. Behind 20 bytes
stands the moving factor, and there has been no identifier; beside 16 `uid` is the identifier of the
last `-ouid`. -/
structure KeyStored (E : ArgsEnv) (os : List Getopt.Scanned) (bytes : List UInt8)
    (cfg : YkpConfig) : Prop where
  length : bytes.length = ykpGetSupportedKeyLength cfg
  key : cfg.ykcoreConfig.key.toList = bytes.take 16
  long : ykpGetSupportedKeyLength cfg = 20 → cfg.ykcoreConfig.uid.toList
      = bytes.drop 16 ++ bigEndian16 ((lastOf imfOption os).getD 0 / 16) ∧
    ∀ o ∈ os, uidOption o = none
  short : ykpGetSupportedKeyLength cfg = 16 → ∀ uid,
    lastOf uidOption os = some ("uid=".toList ++ uid) →
      DecodesTo E uid cfg.ykcoreConfig.uid.toList

/-- An accepted command line whose last `-a` gives the key stores all of it, and overwrites neither
the moving factor nor the identifier. -/
theorem argsToConfig_keyStored {key : List Char}
    (h : argsToConfig E fuel (.fresh argv stdin scanCodes deviceInfo) = (.ok ⟨⟩, s'))
    (hcommand : s'.ykp.cfg.command = slotConfig ∨ s'.ykp.cfg.command = slotConfig2)
    (hzap : .flag 'z' ∉ scans fuel (Getopt.start argv))
    (hkey : lastOf keyOption (scans fuel (Getopt.start argv)) = some (some key)) :
    ∃ bytes, DecodesTo E key bytes ∧
      KeyStored E (scans fuel (Getopt.start argv)) bytes s'.ykp.cfg := by
  have htracks := argsToConfig_ok h
  obtain ⟨t, u, v, ht, hu, hv, hs⟩ := argsToConfig_parts h
  obtain ⟨hparted, htracked⟩ := parted_optionLoop ht
  have hq := (quiet.keySection E fuel).of_eq_ok hs
  obtain rfl := checkAction_ok hu
  obtain rfl := checkUpdate_state hv
  have hnozap : v.zap = false := by
    rw [Bool.eq_false_iff]
    intro hz
    refine hzap (marked_zap ?_)
    rw [← options_eq]
    exact (htracks.seen .zap).1 ((congrFun hq.seen .zap).trans hz)
  obtain ⟨hlocation, haeshash⟩ := htracked key hkey
  rw [hq.command] at hcommand
  obtain ⟨bytes, c, hlen, hdecodes, hcfg, hkeyed⟩ :=
    keySection_given hs hnozap hcommand hlocation haeshash
  have hn : ykpGetSupportedKeyLength s'.ykp.cfg = ykpGetSupportedKeyLength v.ykp.cfg := by
    rw [hcfg]
    exact ykpGetSupportedKeyLength_congr hkeyed.flags
  have hcore : s'.ykp.cfg.ykcoreConfig = c := by rw [hcfg]
  have huid := hkeyed.uid
  refine ⟨bytes, hdecodes, hlen.trans hn.symm, by rw [hcore, hkeyed.key],
    fun h20 => ?_, fun h16 uid hu => ?_⟩ <;> rw [hcore]
  · rw [hn] at h20
    obtain ⟨hnone, hbytes⟩ := hparted.inMode (inMode_of_supportedKeyLength h20)
    rw [if_pos h20, hbytes] at huid
    exact ⟨huid, lastOf_eq_none.1 hnone⟩
  · have hout : ¬ v.ykp.InMode := fun hin => by
      rw [(hparted.inMode hin).1] at hu
      cases hu
    rw [if_neg (by omega)] at huid
    rw [huid]
    exact hparted.outside hout uid hu

end Option

section Runs

open ScriptedHost (env start)

theorem argsToConfig_keyStored_oathHotp :
    ∃ bytes, DecodesTo (env 3 0 0) "000102030405060708090a0b0c0d0e0f10111213".toList bytes ∧
      KeyStored (env 3 0 0) (scans 10 (start ["ykpersonalize", "-1", "-ooath-hotp",
          "-ooath-imf=4128", "-a000102030405060708090a0b0c0d0e0f10111213"]).getopt) bytes
        (argsToConfig (env 3 0 0) 10 (start ["ykpersonalize", "-1", "-ooath-hotp",
          "-ooath-imf=4128", "-a000102030405060708090a0b0c0d0e0f10111213"])).2.ykp.cfg :=
  argsToConfig_keyStored (Proc.run_eq (by decide +kernel)) (by decide +kernel)
    (by decide +kernel) (by decide +kernel)

/-- An identifier that is given, and then another one that is asked for. -/
def twoUids : List (List Char) :=
  ["ykpersonalize", "-1", "-ouid=010203040506", "-ouid",
    "-a000102030405060708090a0b0c0d0e0f"].map String.toList

/-- The identifier that is typed takes the place of the one that is given. -/
theorem uid_typed :
    (argsToConfig (env 3 0 0) 10 (.fresh twoUids "0a0b0c0d0e0f\n".toList [] [])).1 = .ok ⟨⟩ ∧
      (argsToConfig (env 3 0 0) 10
        (.fresh twoUids "0a0b0c0d0e0f\n".toList [] [])).2.ykp.cfg.command = slotConfig ∧
      ykpGetSupportedKeyLength (argsToConfig (env 3 0 0) 10
        (.fresh twoUids "0a0b0c0d0e0f\n".toList [] [])).2.ykp.cfg = 16 ∧
      scans 10 (Getopt.start twoUids) = [.flag '1', .arg 'o' "uid=010203040506".toList,
        .arg 'o' "uid".toList, .arg 'a' "000102030405060708090a0b0c0d0e0f".toList] ∧
      ¬ DecodesTo (env 3 0 0) "010203040506".toList (argsToConfig (env 3 0 0) 10
        (.fresh twoUids "0a0b0c0d0e0f\n".toList [] [])).2.ykp.cfg.ykcoreConfig.uid.toList := by
  decide +kernel

end Runs

end YkPers
