import YkPers.ArgsOrder
import YkPers.OathId
import YkPers.YkpersLcl

/-!
# What the functions of the command line leave alone

A frame is a relation between the states before and after that holds wherever nothing it is about
is written. Each function keeps to every frame that allows for its own writes, so that a frame is
proved of all functions at once. The steps that all cases share write strings and the console
(`StepFrame`), and the cases beside `-o` and `-a` what they choose (`CaseFrame`). A frame that says
nothing of the character fields and of the key holds of the rest as well (`Frame`), where it allows
for flags (`FlagClosed`), and so of the whole option loop (`LoopFrame`).
-/

namespace YkPers

open Proc (Moves)

/-! ## Calls on the configuration -/

def YkpConfig.version (c : YkpConfig) : UInt8 × UInt8 × UInt8 :=
  (c.ykMajorVersion, c.ykMinorVersion, c.ykBuildVersion)

theorem flags_congr {c c' : YkConfig} (htkt : c'.tktFlags = c.tktFlags)
    (hcfg : c'.cfgFlags = c.cfgFlags) (hext : c'.extFlags = c.extFlags) (field : FlagField) :
    c'.flags field = c.flags field := by
  cases field
  · exact htkt
  · exact hcfg
  · exact hext

/-- The version, the command and the flags are as before. -/
structure SameFlags (s s' : YkpState) : Prop where
  version : s'.cfg.version = s.cfg.version
  command : s'.cfg.command = s.cfg.command
  flags : ∀ field, s'.cfg.ykcoreConfig.flags field = s.cfg.ykcoreConfig.flags field

structure YkpFrame (Q : YkpState → YkpState → Prop) : Prop where
  trans : ∀ a b c, Q a b → Q b c → Q a c
  same : ∀ a b, SameFlags a b → Q a b

/-- What the setter of an entry stores. -/
def MapSt.stored (p : MapSt) (field : FlagField) (state : Bool) (c : YkConfig) : YkConfig :=
  c.setFlags field (if state then c.flags field ||| p.flag else c.flags field &&& ~~~p.flag)

/-- The frame allows for flags that have their capability. -/
def FlagClosed (Q : YkpState → YkpState → Prop) : Prop :=
  ∀ field, ∀ p ∈ flagsMap field, ∀ (s : YkpState) (state : Bool), p.capability s.cfg = true →
    Q s { s with cfg.ykcoreConfig := p.stored field state s.cfg.ykcoreConfig }

/-- A function is the setter of an entry. -/
def IsSetter (f : Bool → Proc YkpState Unit) : Prop := ∃ field, ∃ p ∈ flagsMap field, f = p.setter

theorem IsSetter.moves {Q : YkpState → YkpState → Prop} {f : Bool → Proc YkpState Unit}
    (hf : IsSetter f) (hcfg : ∀ a b : YkpState, b.cfg = a.cfg → Q a b) (hQ : FlagClosed Q)
    (state : Bool) : Moves Q (f state) := by
  obtain ⟨field, p, hp, rfl⟩ := hf
  rw [setter_eq field p hp]
  intro s
  rcases hc : p.capability s.cfg with _ | _
  · simpa [ykpSetFlag, hc, ykpError] using hcfg s { s with ykpErrno := some .EYUBIKEYVER } rfl
  · simpa [ykpSetFlag, hc, ykpStore, MapSt.stored] using hQ field p hp s state hc

namespace YkpFrame

variable {Q : YkpState → YkpState → Prop} (F : YkpFrame Q)

include F

theorem cfg (a b : YkpState) (h : b.cfg = a.cfg) : Q a b :=
  F.same a b ⟨by rw [h], by rw [h], fun _ => by rw [h]⟩

theorem refl (s : YkpState) : Q s s := F.cfg s s rfl

theorem error (e : YkpErr) : Moves Q (ykpError e) := fun s => F.cfg s _ rfl

theorem store {f : YkConfig → YkConfig} (hf : ∀ c field, (f c).flags field = c.flags field) :
    Moves Q (ykpStore f) := fun s => F.same s _ ⟨rfl, rfl, fun _ => hf _ _⟩

theorem setCharfield (capability : YkpConfig → Bool) {f : List UInt8 → YkConfig → YkConfig}
    (hf : ∀ input c field, (f input c).flags field = c.flags field) (input : List UInt8) :
    Moves Q (ykpSetCharfield capability f input) :=
  .get_bind fun _ => .ite (F.store (hf input)) (F.error _)

theorem setAccessCode (input : List UInt8) : Moves Q (ykpSetAccessCode input) := by
  refine F.setCharfield _ (fun _ _ => ?_) input
  exact flags_congr rfl rfl rfl

theorem setFixed (input : List UInt8) : Moves Q (ykpSetFixed input) := by
  refine F.setCharfield _ (fun _ _ => ?_) input
  exact flags_congr rfl rfl rfl

theorem setUid (input : List UInt8) : Moves Q (ykpSetUid input) := by
  refine F.setCharfield _ (fun _ _ => ?_) input
  exact flags_congr rfl rfl rfl

theorem setOathImf (imf : ℕ) : Moves Q (ykpSetOathImf imf) :=
  .get_bind fun _ => .ite (F.error _) <| .ite (F.error _) <| .ite (F.error _) <|
    F.store fun _ => flags_congr rfl rfl rfl

theorem keyFromRaw (keyBytes : ℕ) (key : List UInt8) :
    Moves Q (if keyBytes = 20 then ykpHmacKeyFromRaw key else ykpAesKeyFromRaw key) :=
  .ite (F.store fun _ => flags_congr rfl rfl rfl) (F.store fun _ => flags_congr rfl rfl rfl)

theorem setter (hQ : FlagClosed Q) {f : Bool → Proc YkpState Unit} (hf : IsSetter f)
    (state : Bool) : Moves Q (f state) := hf.moves F.cfg hQ state

end YkpFrame

/-! ## Setters -/

theorem isSetter_get (field : FlagField) (i : ℕ) {f : Bool → Proc YkpState Unit}
    (h : (flagsMap field)[i]?.map MapSt.setter = some f) : IsSetter f := by
  obtain ⟨p, hp, rfl⟩ := Option.map_eq_some_iff.1 h
  exact ⟨field, p, List.mem_of_getElem? hp, rfl⟩

theorem setters_of_map_eq (field : FlagField) (is : List ℕ)
    {fs : List (Bool → Proc YkpState Unit)}
    (h : fs = is.filterMap fun i => (flagsMap field)[i]?.map MapSt.setter) :
    ∀ f ∈ fs, ∃ p ∈ flagsMap field, f = p.setter := by
  rintro f hf
  rw [h, List.mem_filterMap] at hf
  obtain ⟨i, -, hi⟩ := hf
  obtain ⟨p, hp, rfl⟩ := Option.map_eq_some_iff.1 hi
  exact ⟨p, List.mem_of_getElem? hp, rfl⟩

theorem tktflagOptions_setters :
    ∀ f ∈ tktflagOptions.map Prod.snd, ∃ p ∈ flagsMap .tkt, f = p.setter :=
  setters_of_map_eq .tkt (List.range 9) rfl

/-- The options come in another order than the table. -/
theorem cfgflagOptions_setters :
    ∀ f ∈ cfgflagOptions.map Prod.snd, ∃ p ∈ flagsMap .cfg, f = p.setter :=
  setters_of_map_eq .cfg [8, 9, 10, 11, 12, 13, 14, 15, 16, 17, 4, 5, 6, 7, 0, 1, 2, 3] rfl

theorem extflagOptions_setters :
    ∀ f ∈ extflagOptions.map Prod.snd, ∃ p ∈ flagsMap .ext, f = p.setter :=
  setters_of_map_eq .ext (List.range 8) rfl

theorem flagOptions_isSetter :
    ∀ p ∈ tktflagOptions ++ cfgflagOptions ++ extflagOptions, IsSetter p.2 := by
  intro p hp
  simp only [List.mem_append] at hp
  rcases hp with (hp | hp) | hp
  · exact ⟨.tkt, tktflagOptions_setters p.2 (List.mem_map_of_mem hp)⟩
  · exact ⟨.cfg, cfgflagOptions_setters p.2 (List.mem_map_of_mem hp)⟩
  · exact ⟨.ext, extflagOptions_setters p.2 (List.mem_map_of_mem hp)⟩

/-- What is found is the setter of an entry, for whether the option begins with a `-`. -/
theorem findFlag_some {table : List (String × (Bool → Proc YkpState Unit))} {optarg : List Char}
    {x : Proc YkpState Unit} (h : findFlag table optarg = some x) :
    ∃ p ∈ table, (optarg = p.1.toList ∧ x = p.2 true) ∨
      (optarg = '-' :: p.1.toList ∧ x = p.2 false) := by
  obtain ⟨p, hp, hs⟩ := List.exists_of_findSome?_eq_some h
  refine ⟨p, hp, ?_⟩
  split_ifs at hs with h1 h2
  · exact .inl ⟨h1, (Option.some.inj hs).symm⟩
  · exact .inr ⟨h2, (Option.some.inj hs).symm⟩

/-! ## Steps of the command line -/

/-- What the conflict rules see of the state. -/
def ArgsState.seen (s : ArgsState) : Mark → Bool
  | .slot => s.slotChosen
  | .option => s.optionSeen
  | .swap => s.swapSeen
  | .update => s.updateSeen
  | .ndefRequest => s.ndefSeen
  | .zap => s.zap
  | .usbMode => s.usbModeSeen
  | .scanMap => s.scanMapSeen
  | .deviceInfo => s.deviceInfoSeen

/-- The console, the strings and the arguments of requests aside, the state is as before. -/
structure SameView (s s' : ArgsState) : Prop where
  seen : s'.seen = s.seen
  getopt : s'.getopt = s.getopt
  ykp : s'.ykp = s.ykp
  dryRun : s'.dryRun = s.dryRun
  autocommit : s'.autocommit = s.autocommit
  outfname : s'.outfname = s.outfname

/-- The strings that `main` makes something of are as before. -/
structure SameTexts (s s' : ArgsState) : Prop where
  ndefType : s'.ndefType = s.ndefType
  ndef : s'.ndef = s.ndef
  accessCode : s'.accessCode = s.accessCode
  newAccessCode : s'.newAccessCode = s.newAccessCode
  oathid : s'.oathid = s.oathid

/-- What `-m` stores is as before. -/
structure SameModes (s s' : ArgsState) : Prop where
  usbMode : s'.usbMode = s.usbMode
  crTimeout : s'.crTimeout = s.crTimeout
  autoejectTimeout : s'.autoejectTimeout = s.autoejectTimeout
  numModesSeen : s'.numModesSeen = s.numModesSeen

/-- The key, the strings and the modes are as before as well. -/
structure SameCase (s s' : ArgsState) : Prop extends
    SameView s s', SameTexts s s', SameModes s s' where
  keylocation : s'.keylocation = s.keylocation
  aeshash : s'.aeshash = s.aeshash

/-- The console, the log of the decoders and the format of files are no part of it. -/
theorem SameCase.of_eq {s s' : ArgsState} (h : s' = { s with
    stdin := s'.stdin, stderr := s'.stderr, decodes := s'.decodes, exitCode := s'.exitCode,
    dataFormat := s'.dataFormat }) : SameCase s s' := by
  rw [h]
  exact ⟨⟨rfl, rfl, rfl, rfl, rfl, rfl⟩, ⟨rfl, rfl, rfl, rfl, rfl⟩, ⟨rfl, rfl, rfl, rfl⟩, rfl, rfl⟩

/-- The frame says nothing of the strings. -/
def TextFree (R : ArgsState → ArgsState → Prop) : Prop :=
  ∀ (s : ArgsState) ndefType ndef accessCode newAccessCode oathid, R s { s with
    ndefType := ndefType, ndef := ndef, accessCode := accessCode, newAccessCode := newAccessCode,
    oathid := oathid }

/-- A frame that may say something of every field of the configuration and of the key. -/
structure StepFrame (Q : YkpState → YkpState → Prop) (R : ArgsState → ArgsState → Prop) : Prop where
  transYkp : ∀ a b c, Q a b → Q b c → Q a c
  cfg : ∀ a b, b.cfg = a.cfg → Q a b
  trans : ∀ a b c, R a b → R b c → R a c
  same : ∀ a b, SameCase a b → R a b
  ykp : ∀ s y, Q s.ykp y → R s { s with ykp := y }

namespace StepFrame

variable {Q : YkpState → YkpState → Prop} {R : ArgsState → ArgsState → Prop} (F : StepFrame Q R)
  {α β : Type}

include F

theorem refl (s : ArgsState) : R s s := F.same s s (.of_eq rfl)

theorem pure (a : α) : Moves R (pure a : Proc ArgsState α) := .pure F.refl a

theorem bind {x : Proc ArgsState α} {f : α → Proc ArgsState β} (hx : Moves R x)
    (hf : ∀ a, Moves R (f a)) : Moves R (x >>= f) := .bind F.trans hx hf

theorem modify {f : ArgsState → ArgsState} (hf : ∀ s, SameCase s (f s)) :
    Moves R (Proc.modify f) := fun s => F.same s _ (hf s)

theorem fprintf (msg : String) : Moves R (fprintf msg) :=
  F.modify fun _ => .of_eq rfl

theorem fputsUsage : Moves R fputsUsage :=
  F.modify fun _ => .of_eq rfl

theorem exitOne : Moves R exitOne :=
  F.bind (F.modify fun _ => .of_eq rfl) fun _ => .fail F.refl

theorem reject (msg : String) : Moves R (reject msg) := F.bind (F.fprintf msg) fun _ => F.exitOne

theorem rejectIf (c : Bool) (msg : String) : Moves R (rejectIf c msg) :=
  .ite (F.reject msg) (F.pure _)

theorem run {x : Proc YkpState α} (hx : Moves Q x) :
    Moves R (Proc.zoom ArgsState.ykp (fun y s => { s with ykp := y }) x) :=
  .zoom hx fun s y h => F.ykp s y h

theorem discarding {x : Proc YkpState Unit} (hx : Moves Q x) : Moves R (discarding x) :=
  F.run (.bind F.transYkp hx.attempt fun _ => .pure (fun s => F.cfg s s rfl) _)

theorem orExitOne {x : Proc YkpState Unit} (hx : Moves Q x) : Moves R (orExitOne x) := by
  refine F.bind (F.run hx.attempt) ?_
  rintro (_ | _)
  · exact F.exitOne
  · exact F.pure _

theorem promptForData (question : String) : Moves R (promptForData question) := by
  refine F.bind (F.fprintf _) fun _ => .get_bind fun t => ?_
  rcases fgets 256 t.stdin with _ | ⟨line, rest⟩
  · exact F.bind (F.fprintf _) fun _ =>
      F.bind (F.modify fun _ => .of_eq rfl) fun _ => F.pure _
  · exact F.bind (F.modify fun _ => .of_eq rfl) fun _ => F.pure _

theorem noteDecode (capacity : ℕ) (d : Decoded) : Moves R (noteDecode capacity d) :=
  .ite (F.modify fun _ => .of_eq rfl) (F.pure _)

/-! ## Steps of the option loop -/

section Cases

variable (E : ArgsEnv) (optarg : List Char)

theorem promptAccessCode (hcode : ∀ s code, R s { s with accessCode := code }) :
    Moves R promptAccessCode :=
  F.bind (F.promptForData _) fun _ => F.bind (fun s => hcode s _) fun _ =>
    .ite F.exitOne (F.pure _)

theorem caseF : Moves R (caseF optarg) :=
  .ite (F.modify fun _ => .of_eq rfl) <|
    .ite (F.modify fun _ => .of_eq rfl) (F.reject _)

theorem setFixed (hfixed : ∀ input, Moves Q (ykpSetFixed input)) : Moves R (setFixed E optarg) :=
  F.bind (F.noteDecode _ _) fun _ => .ite (.fail F.refl) (F.discarding (hfixed _))

theorem optionFixed (hfixed : ∀ input, Moves Q (ykpSetFixed input)) :
    Moves R (optionFixed E optarg) := by
  refine F.bind (F.setFixed E optarg hfixed).attempt ?_
  rintro (_ | _)
  · exact F.reject _
  · exact F.pure _

theorem uidValue : Moves R (uidValue optarg) :=
  .ite (F.pure _) <| F.bind (F.promptForData _) fun _ =>
    .ite (F.bind F.exitOne fun _ => F.pure _) (F.pure _)

theorem optionUid (huid : ∀ input, Moves Q (ykpSetUid input)) : Moves R (optionUid E optarg) :=
  F.bind (F.uidValue optarg) fun _ => F.bind (F.noteDecode _ _) fun _ =>
    F.bind (F.rejectIf _ _) fun _ => .get_bind fun _ => F.bind (F.rejectIf _ _) fun _ =>
      F.discarding (huid _)

theorem promptNewAccessCode (hcode : ∀ s code, R s { s with newAccessCode := code }) :
    Moves R promptNewAccessCode :=
  F.bind (F.promptForData _) fun _ => F.bind (fun s => hcode s _) fun _ =>
    .ite F.exitOne (F.pure _)

theorem optionOathImf (himf : ∀ imf, Moves Q (ykpSetOathImf imf)) :
    Moves R (optionOathImf optarg) := by
  refine .get_bind fun _ => F.bind (F.rejectIf _ _) fun _ => ?_
  rcases scanUnsignedLong optarg with _ | imf
  · exact F.reject _
  · exact F.bind (F.rejectIf _ _) fun _ => F.orExitOne (himf _)

theorem rejectUnknown : Moves R (rejectUnknown optarg) :=
  F.bind (F.fprintf _) fun _ => F.bind F.fputsUsage fun _ => F.exitOne

theorem findFlag (hQ : FlagClosed Q) {table : List (String × (Bool → Proc YkpState Unit))}
    (ht : table ⊆ tktflagOptions ++ cfgflagOptions ++ extflagOptions) {x : Proc YkpState Unit}
    (hx : findFlag table optarg = some x) : Moves Q x := by
  obtain ⟨p, hp, ⟨-, rfl⟩ | ⟨-, rfl⟩⟩ := findFlag_some hx <;>
    exact (flagOptions_isSetter p (ht hp)).moves F.cfg hQ _

/-- The frame holds of `-o`, where it does of the calls on the configuration and of the strings. -/
theorem caseO_of (hcode : ∀ s code, R s { s with newAccessCode := code })
    (hid : optarg.take 8 = "oath-id=".toList ∨ optarg = "oath-id".toList →
      ∀ s oathid, R s { s with oathid := oathid })
    (hfixed : ∀ input, Moves Q (ykpSetFixed input))
    (huid : optarg.take 3 = "uid".toList → Moves R (YkPers.optionUid E optarg))
    (himf : optarg.take 9 = "oath-imf=".toList → Moves R (YkPers.optionOathImf (optarg.drop 9)))
    (hset : ∀ table ⊆ tktflagOptions ++ cfgflagOptions ++ extflagOptions, ∀ x,
      YkPers.findFlag table optarg = some x → Moves Q x) : Moves R (caseO E optarg) := by
  refine .get_bind fun _ => F.bind (F.rejectIf _ _) fun _ => ?_
  refine .ite (F.optionFixed E _ hfixed) <| .ite_of huid fun _ =>
    .ite (fun s => hcode s _) <| .ite (F.promptNewAccessCode hcode) ?_
  rcases hf : YkPers.findFlag (tktflagOptions ++ cfgflagOptions) optarg with _ | x
  · refine .ite_of himf fun _ => .ite_of (fun h s => hid h s _) fun _ => ?_
    rcases hg : YkPers.findFlag extflagOptions optarg with _ | x
    · exact F.rejectUnknown _
    · exact F.orExitOne (hset _ (List.subset_append_right _ _) x hg)
  · exact F.orExitOne (hset _ (List.subset_append_left _ _) x hf)

theorem caseO (hY : YkpFrame Q) (hQ : FlagClosed Q) (hR : TextFree R) :
    Moves R (caseO E optarg) :=
  F.caseO_of E optarg (fun s _ => hR s _ _ _ _ _) (fun _ s _ => hR s _ _ _ _ _) hY.setFixed
    (fun _ => F.optionUid E optarg hY.setUid) (fun _ => F.optionOathImf _ hY.setOathImf)
    fun _ ht _ hx => F.findFlag optarg hQ ht hx

theorem caseHelp : Moves R caseHelp :=
  F.bind F.fputsUsage fun _ =>
    F.bind (F.modify fun _ => .of_eq rfl) fun _ => .fail F.refl

end Cases

/-! ## Behind the loop -/

section BehindLoop

variable (E : ArgsEnv)

theorem checkAction : Moves R checkAction :=
  .get_bind fun _ => .ite
    (.ite (F.bind F.fputsUsage fun _ => F.exitOne) (F.bind (F.fprintf _) fun _ => F.exitOne))
    (F.pure _)

theorem checkUpdate : Moves R checkUpdate :=
  .get_bind fun _ => .ite
    (F.bind (F.rejectIf _ _) fun _ => F.bind (F.rejectIf _ _) fun _ => F.rejectIf _ _) (F.pure _)

theorem readRandom (source : ℕ → List UInt8) (keyBytes : ℕ) : ∀ (fuel i : ℕ)
    (keybuf : List UInt8), Moves R (readRandom source keyBytes fuel i keybuf)
  | 0, _, _ => .diverge F.refl
  | fuel + 1, i, _ => .ite (readRandom source keyBytes fuel (i + 1) _) (F.pure _)

theorem randomKey (fuel keyBytes : ℕ) : Moves R (randomKey E fuel keyBytes) := by
  unfold YkPers.randomKey
  split
  · exact F.readRandom _ _ _ _ _
  · refine F.bind (fun s => F.ykp s _ (F.cfg _ _ rfl)) fun _ => ?_
    exact F.bind F.exitOne fun _ => F.pure _

theorem decodeKey (keyBytes : ℕ) : Moves R (decodeKey E keyBytes) :=
  .get_bind fun _ => F.bind (F.noteDecode _ _) fun _ => F.bind (F.rejectIf _ _) fun _ => F.pure _

/-- The key that is asked for is kept as if it had been given. -/
theorem promptKey (hkey : ∀ s key location, R s { s with aeshash := key, keylocation := location })
    (keyBytes : ℕ) : Moves R (promptKey keyBytes) :=
  .get_bind fun _ => .ite
    (F.bind (F.promptForData _) fun _ => .ite F.exitOne fun s => hkey s _ _) (F.pure _)

theorem keySection (hkey : ∀ s key location, R s { s with aeshash := key, keylocation := location })
    (hraw : ∀ keyBytes : ℕ, ∀ key,
      Moves Q (if keyBytes = 20 then ykpHmacKeyFromRaw key else ykpAesKeyFromRaw key))
    (fuel : ℕ) : Moves R (keySection E fuel) := by
  have hstore : ∀ keyBytes keybuf, Moves R (YkPers.onYkp
      (if keyBytes = 20 then ykpHmacKeyFromRaw keybuf else ykpAesKeyFromRaw keybuf)) :=
    fun keyBytes keybuf => F.run (hraw keyBytes keybuf)
  refine .get_bind fun _ => .ite ?_ (F.pure _)
  refine F.bind (F.promptKey hkey _) fun _ => .get_bind fun _ => .ite ?_ ?_
  · exact F.bind (F.randomKey E _ _) fun _ => hstore _ _
  · exact F.bind (F.decodeKey E _) fun _ => hstore _ _

end BehindLoop

end StepFrame

structure Frame (Q : YkpState → YkpState → Prop) (R : ArgsState → ArgsState → Prop) : Prop where
  onYkp : YkpFrame Q
  trans : ∀ a b c, R a b → R b c → R a c
  same : ∀ a b, SameView a b → R a b
  ykp : ∀ s y, Q s.ykp y → R s { s with ykp := y }

namespace Frame

variable {Q : YkpState → YkpState → Prop} {R : ArgsState → ArgsState → Prop} (F : Frame Q R)

include F

theorem steps : StepFrame Q R :=
  ⟨F.onYkp.trans, F.onYkp.cfg, F.trans, fun a b h => F.same a b h.toSameView, F.ykp⟩

theorem refl (s : ArgsState) : R s s := F.steps.refl s

theorem textFree : TextFree R := fun s _ _ _ _ _ => F.same s _ ⟨rfl, rfl, rfl, rfl, rfl, rfl⟩

theorem caseO (E : ArgsEnv) (optarg : List Char) (hQ : FlagClosed Q) :
    Moves R (caseO E optarg) := F.steps.caseO E optarg F.onYkp hQ F.textFree

theorem promptAccessCode : Moves R promptAccessCode :=
  F.steps.promptAccessCode fun s _ => F.textFree s _ _ _ _ _

theorem keySection (E : ArgsEnv) (fuel : ℕ) : Moves R (keySection E fuel) :=
  F.steps.keySection E (fun s _ _ => F.same s _ ⟨rfl, rfl, rfl, rfl, rfl, rfl⟩)
    F.onYkp.keyFromRaw fuel

end Frame

/-! ## The token identifier -/

section OathId

variable {σ α β : Type}

/-- A relation between the variables of the command line, for sessions. -/
def OfArgs (R : ArgsState → ArgsState → Prop) (s s' : Session σ) : Prop := R s.args s'.args

theorem moves_onArgs {R : ArgsState → ArgsState → Prop} {x : Proc ArgsState α} (hx : Moves R x) :
    Moves (OfArgs R : Session σ → Session σ → Prop) (onArgs x) := .zoom hx fun _ _ h => h

namespace StepFrame

variable {Q : YkpState → YkpState → Prop} {R : ArgsState → ArgsState → Prop} (F : StepFrame Q R)
  (E : ArgsEnv) (H : Host σ) (hfixed : ∀ input, Moves Q (ykpSetFixed input))

include F

theorem ofArgs_same {s s' : Session σ} (h : s'.args = s.args) : OfArgs R s s' := by
  rw [OfArgs, h]
  exact F.refl s.args

theorem ofArgs_bind {x : Proc (Session σ) α} {f : α → Proc (Session σ) β}
    (hx : Moves (OfArgs R) x) (hf : ∀ a, Moves (OfArgs R) (f a)) : Moves (OfArgs R) (x >>= f) :=
  .bind (fun a b c h k => F.trans a.args b.args c.args h k) hx hf

theorem failWithText (msg : String) :
    Moves (OfArgs R) (failWithText msg : Proc (Session σ) α) :=
  F.ofArgs_bind (moves_onArgs (F.fprintf msg)) fun _ _ => F.ofArgs_same rfl

include hfixed

theorem setSuppliedId (token : List Char) :
    Moves (OfArgs R) (setSuppliedId E token : Proc (Session σ) Unit) := by
  refine F.ofArgs_bind (moves_onArgs (F.setFixed E token hfixed)).attempt ?_
  rintro (_ | _)
  · exact F.failWithText _
  · exact fun _ => F.ofArgs_same rfl

theorem setSerialId : Moves (OfArgs R) (setSerialId E H) := by
  refine .ite (F.failWithText _) <| F.ofArgs_bind (Moves.attempt fun _ => F.ofArgs_same rfl) ?_
  rintro (_ | serial)
  · exact F.failWithText _
  dsimp only
  split
  · exact F.failWithText _
  refine F.ofArgs_bind (moves_onArgs (F.run (hfixed _))).attempt ?_
  rintro (_ | _)
  · exact F.failWithText _
  · exact fun _ => F.ofArgs_same rfl

theorem setOathId (hQ : FlagClosed Q) (opt : List Char) :
    Moves (OfArgs R) (setOathId E H opt) := by
  have hset : ∀ {f : Bool → Proc YkpState Unit}, IsSetter f →
      Moves (OfArgs R : Session σ → Session σ → Prop) (onArgs (YkPers.onYkp (f true))) :=
    fun hf => moves_onArgs (F.run (hf.moves F.cfg hQ true))
  refine .get_bind fun _ => .ite ?_ (F.failWithText _)
  refine F.ofArgs_bind (hset (isSetter_get .cfg 6 rfl)) fun _ => ?_
  refine F.ofArgs_bind (hset (isSetter_get .ext 2 rfl)) fun _ => ?_
  exact .ite (F.setSuppliedId E hfixed _) (F.setSerialId E H hfixed)

end StepFrame

theorem Frame.setOathId {Q : YkpState → YkpState → Prop} {R : ArgsState → ArgsState → Prop}
    (F : Frame Q R) (E : ArgsEnv) (H : Host σ) (hQ : FlagClosed Q) (opt : List Char) :
    Moves (OfArgs R) (setOathId E H opt) := F.steps.setOathId E H F.onYkp.setFixed hQ opt

end OathId

/-! ## The option loop -/

/-- `-s`, `-d` and `-y`. -/
def gates : Getopt.Scanned → Bool
  | .arg 's' _ => true
  | .flag 'd' => true
  | .flag 'y' => true
  | _ => false

/-- `-a`. -/
def givesKey : Getopt.Scanned → Bool
  | .arg 'a' _ => true
  | .missing 'a' => true
  | _ => false

/-- `-c`. -/
def givesCode : Getopt.Scanned → Bool
  | .arg 'c' _ => true
  | .missing 'c' => true
  | _ => false

/-- `-n` and `-t`. -/
def givesNdef : Getopt.Scanned → Bool
  | .arg 'n' _ => true
  | .arg 't' _ => true
  | _ => false

/-- `-m`. -/
def givesMode : Getopt.Scanned → Bool
  | .arg 'm' _ => true
  | _ => false

theorem gates_ykp {E : ArgsEnv} {o : Getopt.Scanned} (ho : gates o = true) (s : ArgsState) :
    (handle E o s).2.ykp = s.ykp := by
  unfold gates at ho
  split at ho
  · rfl
  · rfl
  · rfl
  · cases ho

/-- The configuration, the key, the strings, the modes and what `main` asks about before it writes
are as before. -/
structure SameStores (s s' : ArgsState) : Prop extends SameTexts s s', SameModes s s' where
  ykp : s'.ykp = s.ykp
  dryRun : s'.dryRun = s.dryRun
  autocommit : s'.autocommit = s.autocommit
  outfname : s'.outfname = s.outfname
  keylocation : s'.keylocation = s.keylocation
  aeshash : s'.aeshash = s.aeshash

theorem SameStores.of_eq {s s' : ArgsState} (h : s' = { s' with
    ykp := s.ykp, dryRun := s.dryRun, autocommit := s.autocommit, outfname := s.outfname,
    keylocation := s.keylocation, aeshash := s.aeshash, ndefType := s.ndefType, ndef := s.ndef,
    accessCode := s.accessCode, newAccessCode := s.newAccessCode, oathid := s.oathid,
    usbMode := s.usbMode, crTimeout := s.crTimeout, autoejectTimeout := s.autoejectTimeout,
    numModesSeen := s.numModesSeen }) :
    SameStores s s' := by
  rw [h]
  exact ⟨⟨rfl, rfl, rfl, rfl, rfl⟩, ⟨rfl, rfl, rfl, rfl⟩, rfl, rfl, rfl, rfl, rfl, rfl⟩

/-- A frame that says nothing of what the options choose, but for what is stored. -/
structure CaseFrame (Q : YkpState → YkpState → Prop) (R : ArgsState → ArgsState → Prop) : Prop
    extends StepFrame Q R where
  command : ∀ s c, commandError s.cfg c = none → Q s { s with cfg.command := c }
  any : ∀ a b, SameStores a b → R a b

namespace CaseFrame

variable {Q : YkpState → YkpState → Prop} {R : ArgsState → ArgsState → Prop}
  (F : CaseFrame Q R) (E : ArgsEnv) (optarg : List Char)

include F

theorem modifyAny {f : ArgsState → ArgsState} (hf : ∀ s, SameStores s (f s)) :
    Moves R (Proc.modify f) := fun s => F.any s _ (hf s)

theorem configureCommand (command : UInt8) : Moves R (onYkp (ykpConfigureCommand command)) := by
  refine F.run fun s => ?_
  rw [ykpConfigureCommand, Proc.get_bind_run]
  rcases hc : commandError s.cfg command with _ | e
  · exact F.command s command hc
  · exact F.cfg s _ rfl

theorem caseU : Moves R caseU :=
  .get_bind fun _ => F.bind (F.rejectIf _ _) fun _ => F.bind (F.rejectIf _ _) fun _ =>
    F.bind (F.rejectIf _ _) fun _ => F.modifyAny fun _ => .of_eq rfl

theorem discardSetter (hQ : FlagClosed Q) {f : Bool → Proc YkpState Unit} (hf : IsSetter f)
    (state : Bool) : Moves R (discarding (f state)) := F.discarding (hf.moves F.cfg hQ state)

theorem slotCommand (hQ : FlagClosed Q) (second : Bool) : Moves R (slotCommand second) := by
  refine .get_bind fun s => .ite ?_ (.ite ?_ (F.pure _))
  · exact F.bind (F.discardSetter hQ (isSetter_get .ext 5 rfl) true) fun _ => F.pure _
  · refine F.bind (F.discardSetter hQ (isSetter_get .cfg 13 rfl) true) fun _ => ?_
    refine F.bind (F.discardSetter hQ (isSetter_get .cfg 15 rfl) true) fun _ => ?_
    refine F.bind (F.discardSetter hQ (isSetter_get .cfg 16 rfl) true) fun _ => ?_
    exact F.bind (F.discardSetter hQ (isSetter_get .cfg 17 rfl) true) fun _ => F.pure _

theorem caseSlot (hQ : FlagClosed Q) (second : Bool) : Moves R (caseSlot second) :=
  .get_bind fun _ => F.bind (F.rejectIf _ _) fun _ => F.bind (F.rejectIf _ _) fun _ =>
    F.bind (F.rejectIf _ _) fun _ =>
      F.bind (F.discardSetter hQ (isSetter_get .tkt 5 rfl) true) fun _ =>
        F.bind (F.slotCommand hQ second) fun _ => F.bind (F.configureCommand _) fun _ =>
          F.modifyAny fun _ => .of_eq rfl

theorem caseX : Moves R caseX :=
  .get_bind fun _ => F.bind (F.rejectIf _ _) fun _ => F.bind (F.configureCommand _) fun _ =>
    F.modifyAny fun _ => .of_eq rfl

theorem caseZ : Moves R caseZ :=
  .get_bind fun _ => F.bind (F.rejectIf _ _) fun _ =>
    F.modifyAny fun _ => .of_eq rfl

theorem caseC (hcode : ∀ s code, R s { s with accessCode := code }) : Moves R (caseC optarg) :=
  .ite (F.bind (F.modifyAny fun _ => .of_eq rfl) fun _ => F.promptAccessCode hcode)
    fun s => hcode s _

section Ndef

variable (hndef : ∀ s type ndef, R s { s with ndefType := type, ndef := ndef })

include hndef

theorem caseN : Moves R (caseN E optarg) :=
  F.bind (fun s => hndef s _ _) fun _ => .get_bind fun _ => F.bind (F.rejectIf _ _) fun _ =>
    F.bind (F.configureCommand _) fun _ => F.bind (fun s => hndef s _ _) fun _ =>
      F.modifyAny fun _ => .of_eq rfl

theorem caseT : Moves R (caseT E optarg) :=
  F.bind (fun s => hndef s _ _) fun _ => F.caseN E optarg hndef

end Ndef

theorem caseM (hmode : ∀ (s : ArgsState) mode crtime autotime n, R s { s with
    usbMode := mode, crTimeout := crtime, autoejectTimeout := autotime, numModesSeen := n }) :
    Moves R (caseM optarg) := by
  refine .get_bind fun _ => F.bind (F.rejectIf _ _) fun _ => ?_
  rcases scanUsbMode optarg with _ | v
  · exact F.reject _
  · refine F.bind (fun s => F.trans _ _ _ (hmode s (storeUsbMode v s).usbMode
      (storeUsbMode v s).crTimeout (storeUsbMode v s).autoejectTimeout
      (storeUsbMode v s).numModesSeen) (F.any _ _ ?_)) fun _ => F.configureCommand _
    rcases v with ⟨m, _ | ⟨c, _ | a⟩⟩ <;> exact .of_eq rfl

theorem caseS : Moves R (caseS E optarg) :=
  .get_bind fun _ => F.bind (F.rejectIf _ _) fun _ => F.bind (F.noteDecode _ _) fun _ =>
    F.bind (F.modifyAny fun _ => .of_eq rfl) fun _ =>
      F.bind (F.rejectIf _ _) fun _ =>
        F.bind (F.modifyAny fun _ => .of_eq rfl) fun _ =>
          F.configureCommand _

theorem caseMissingS : Moves R caseMissingS :=
  .get_bind fun _ => F.bind (F.rejectIf _ _) fun _ =>
    F.bind (F.modifyAny fun _ => .of_eq rfl) fun _ =>
      F.bind (F.modifyAny fun _ => .of_eq rfl) fun _ => F.configureCommand _

theorem caseD : Moves R (caseD E optarg) :=
  .get_bind fun _ => F.bind (F.rejectIf _ _) fun _ => F.bind (F.noteDecode _ _) fun _ =>
    F.bind (F.modifyAny fun _ => .of_eq rfl) fun _ =>
      F.bind (F.rejectIf _ _) fun _ => F.bind (F.configureCommand _) fun _ =>
        F.modifyAny fun _ => .of_eq rfl

theorem modeOption (hclear : Moves Q ykpClearConfig) : Moves R (modeOption optarg) :=
  .ite (.get_bind fun _ => F.bind (F.rejectIf _ _) fun _ => F.bind (F.rejectIf _ _) fun _ =>
      F.bind (F.run hclear) fun _ =>
        F.bind (F.modifyAny fun _ => .of_eq rfl) fun _ =>
          F.modifyAny fun _ => .of_eq rfl)
    (F.modifyAny fun _ => .of_eq rfl)

/-- The frame holds of each option, where it does of those that it may be about. -/
theorem handle {o : Getopt.Scanned} (hgates : gates o = true → Moves R (handle E o))
    (hkey : givesKey o = true → Moves R (YkPers.handle E o))
    (hcode : givesCode o = true → ∀ s code, R s { s with accessCode := code })
    (hndef : givesNdef o = true → ∀ s type ndef, R s { s with ndefType := type, ndef := ndef })
    (hmode : givesMode o = true → ∀ (s : ArgsState) mode crtime autotime n, R s { s with
      usbMode := mode, crTimeout := crtime, autoejectTimeout := autotime, numModesSeen := n })
    (hslot : (optionKind o).isSlot = true → FlagClosed Q)
    (hoption : ∀ optarg, o = .arg 'o' optarg → Moves R (YkPers.handle E o)) :
    Moves R (YkPers.handle E o) := by
  revert hgates hkey hcode hndef hmode hslot hoption
  unfold YkPers.handle
  split <;> intro hgates hkey hcode hndef hmode hslot hoption
  · exact F.caseU
  · exact F.caseSlot (hslot rfl) false
  · exact F.caseSlot (hslot rfl) true
  · exact F.caseX
  · exact F.caseZ
  · exact F.modifyAny fun _ => .of_eq rfl
  · exact hgates rfl
  · exact F.caseF _
  · exact hkey rfl
  · exact F.caseC _ (hcode rfl)
  · exact F.caseT E _ (hndef rfl)
  · exact F.caseN E _ (hndef rfl)
  · exact F.caseM _ (hmode rfl)
  · exact F.caseS E _
  · exact F.caseD E _
  · exact hoption _ rfl
  · exact hgates rfl
  · exact F.modifyAny fun _ => .of_eq rfl
  · exact hgates rfl
  · exact F.pure _
  · exact F.pure _
  · exact F.caseMissingS
  · exact hkey rfl
  · exact F.promptAccessCode (hcode rfl)
  · exact F.caseHelp

end CaseFrame

/-- A frame that says nothing of what the options choose, but for the three that `main` asks about
before it writes to the key. -/
structure LoopFrame (Q : YkpState → YkpState → Prop) (R : ArgsState → ArgsState → Prop) : Prop
    extends Frame Q R where
  flag : FlagClosed Q
  command : ∀ s c, commandError s.cfg c = none → Q s { s with cfg.command := c }
  clear : Moves Q ykpClearConfig
  any : ∀ a b : ArgsState, b.ykp = a.ykp → b.dryRun = a.dryRun → b.autocommit = a.autocommit →
    b.outfname = a.outfname → R a b

namespace LoopFrame

variable {Q : YkpState → YkpState → Prop} {R : ArgsState → ArgsState → Prop}
  (F : LoopFrame Q R) (E : ArgsEnv)

include F

theorem cases : CaseFrame Q R where
  toStepFrame := F.steps
  command := F.command
  any a b h := F.any a b h.ykp h.dryRun h.autocommit h.outfname

theorem caseA (optarg : List Char) : Moves R (caseA optarg) :=
  .ite (F.steps.bind (fun _ => F.any _ _ rfl rfl rfl rfl) fun _ => fun _ =>
      F.any _ _ rfl rfl rfl rfl)
    fun _ => F.any _ _ rfl rfl rfl rfl

theorem handle {o : Getopt.Scanned} (ho : gates o = false) : Moves R (handle E o) := by
  refine F.cases.handle E (fun h => ?_) (fun h => ?_) (fun _ s _ => F.textFree s _ _ _ _ _)
    (fun _ s _ _ => F.textFree s _ _ _ _ _) (fun _ s _ _ _ _ => F.any _ _ rfl rfl rfl rfl)
    (fun _ => F.flag) ?_
  · rw [ho] at h
    cases h
  · unfold givesKey at h
    split at h
    · exact F.caseA _
    · exact fun _ => F.any _ _ rfl rfl rfl rfl
    · cases h
  · rintro optarg rfl
    exact F.steps.bind (F.cases.modeOption _ F.clear) fun _ => F.caseO E _ F.flag

variable {E}

theorem optionLoop (hg : ∀ o, gates o = true → Moves R (YkPers.handle E o)) :
    ∀ fuel, Moves R (optionLoop E fuel)
  | 0 => .diverge F.refl
  | fuel + 1 => by
    refine F.steps.bind (fun _ => F.any _ _ rfl rfl rfl rfl) ?_
    rintro (_ | o)
    · exact F.steps.pure _
    refine F.steps.bind ?_ fun _ => optionLoop hg fuel
    rcases ho : gates o with _ | _
    · exact F.handle E ho
    · exact hg o ho

theorem argsToConfig (hg : ∀ o, gates o = true → Moves R (YkPers.handle E o))
    (hv : Moves Q (ykpConfigureVersion E.st)) (fuel : ℕ) : Moves R (argsToConfig E fuel) :=
  F.steps.bind (fun _ => F.any _ _ rfl rfl rfl rfl) fun _ => F.steps.bind (F.steps.run hv) fun _ =>
    F.steps.bind (F.optionLoop hg fuel) fun _ => F.steps.bind F.steps.checkAction fun _ =>
      F.steps.bind F.steps.checkUpdate fun _ => F.keySection E fuel

end LoopFrame

end YkPers
