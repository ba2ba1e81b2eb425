import YkPers.Lib.Turns
import YkPers.Proofs.HexModhex

/-!
# The turns of the option loop

The option loop handles the options that `getopt` returns one after the other (`optionLoop_eq`).
Beside the options that choose a command, each part of `args_to_config` is neat (`Neat`): it decodes
into buffers that are long enough, makes the console only shorter, and sets the exit code where it
fails and only there. An option that chooses a command fails in one more way: the firmware of the
key refuses the command, and the exit code is left as it is (`handle_fail`).
-/

namespace YkPers

open Proc (Moves)

/-! ## The loop -/

def scanNext (s : ArgsState) : Option Getopt.Scanned × ArgsState :=
  ((s.getopt.getopt optstring).1, { s with getopt := (s.getopt.getopt optstring).2 })

theorem optionLoop_eq (E : ArgsEnv) :
    ∀ fuel, optionLoop E fuel = Turns.loop scanNext (handle E) fuel
  | 0 => rfl
  | fuel + 1 => by
    funext s
    have hn : nextOption s = (.ok (s.getopt.getopt optstring).1,
      { s with getopt := (s.getopt.getopt optstring).2 }) := rfl
    rw [optionLoop, Proc.bind_ok hn]
    simp only [Turns.loop, scanNext]
    rcases s.getopt.getopt optstring with ⟨_ | o, g⟩
    · rfl
    · simp only [optionLoop_eq E fuel]

/-- The heads of the turns from a state, with the options handled before them. -/
abbrev Reaches (E : ArgsEnv) : ArgsState → List Getopt.Scanned → ArgsState → Prop :=
  Turns.Reaches scanNext (handle E)

/-- The variables of `args_to_config` at the first head. -/
def loopStart (E : ArgsEnv) (argv : List (List Char)) (stdin : List Char)
    (scanCodes deviceInfo : List UInt8) : ArgsState :=
  { ArgsState.fresh argv stdin scanCodes deviceInfo with
    ykp := (ykpConfigureVersion E.st ⟨ykpAlloc, none⟩).2 }

def behindLoop (E : ArgsEnv) (fuel : ℕ) : Proc ArgsState Unit := do
  checkAction
  checkUpdate
  keySection E fuel

theorem argsToConfig_eq (E : ArgsEnv) (fuel : ℕ) (argv : List (List Char)) (stdin : List Char)
    (scanCodes deviceInfo : List UInt8) :
    argsToConfig E fuel (.fresh argv stdin scanCodes deviceInfo)
      = (Turns.loop scanNext (handle E) fuel >>= fun _ => behindLoop E fuel)
        (loopStart E argv stdin scanCodes deviceInfo) := by
  rw [← optionLoop_eq]
  rfl

/-! ## The console -/

theorem fgets_length {size : ℕ} {stdin line rest : List Char} (hsize : 1 < size)
    (h : fgets size stdin = some (line, rest)) : rest.length < stdin.length := by
  unfold fgets at h
  split_ifs at h with hs
  simp only [Option.some.injEq, Prod.mk.injEq] at h
  have hsplit := List.takeWhile_append_dropWhile (p := (· ≠ '\n')) (l := stdin)
  have hpos : 0 < (stdin.takeWhile (· ≠ '\n') ++ (stdin.dropWhile (· ≠ '\n')).take 1).length := by
    rw [List.length_pos_iff]
    intro hnil
    rw [List.append_eq_nil_iff] at hnil
    rw [hnil.1, List.nil_append] at hsplit
    rw [hsplit] at hnil
    simp [hs] at hnil
  have hlen := List.length_pos_iff.2 hs
  rw [← h.2, List.length_drop]
  omega

/-- A prompt returns, and takes what it reads from the console. -/
theorem promptForData_run (question : String) (s : ArgsState) :
    ∃ p stderr stdin, promptForData question s
        = (.ok p, { s with stderr := stderr, stdin := stdin })
      ∧ stdin.length ≤ s.stdin.length ∧ (p.1 = 0 → stdin.length < s.stdin.length) := by
  rcases hf : fgets 256 s.stdin with _ | ⟨line, rest⟩
  · refine ⟨(1, []), s.stderr ++ [.text question] ++ [.text "Error reading from stdin\n"]
      ++ [.perror "fgets"], s.stdin, ?_, Nat.le_refl _, by simp⟩
    rw [promptForData, fprintf, Proc.modify_bind_run, Proc.get_bind_run]
    simp only [hf]
    rfl
  · have hlt := fgets_length (by decide) hf
    let read := line.takeWhile (· ≠ '\x00')
    refine ⟨(0, if read.getLast? = some '\n' then read.dropLast else read),
      s.stderr ++ [.text question], rest, ?_, Nat.le_of_lt hlt, fun _ => hlt⟩
    rw [promptForData, fprintf, Proc.modify_bind_run, Proc.get_bind_run]
    simp only [hf]
    rfl

/-! ## Calls on the configuration -/

theorem ykpStore_returns (f : YkConfig → YkConfig) (y : YkpState) :
    Proc.Returns (ykpStore f) y := .of_ok rfl

theorem ykpError_returns (e : YkpErr) (y : YkpState) :
    Proc.Returns (ykpError e : Proc YkpState Unit) y := .of_fail rfl

theorem setCharfield_returns (capability : YkpConfig → Bool)
    (f : List UInt8 → YkConfig → YkConfig) (input : List UInt8) (y : YkpState) :
    Proc.Returns (ykpSetCharfield capability f input) y :=
  .get_bind <| .ite (ykpStore_returns _ _) (ykpError_returns _ _)

theorem setOathImf_returns (imf : ℕ) (y : YkpState) : Proc.Returns (ykpSetOathImf imf) y :=
  .get_bind <| .ite (ykpError_returns _ _) <| .ite (ykpError_returns _ _) <|
    .ite (ykpError_returns _ _) (ykpStore_returns _ _)

theorem setter_returns {f : Bool → Proc YkpState Unit} (hf : IsSetter f) (state : Bool)
    (y : YkpState) : Proc.Returns (f state) y := by
  obtain ⟨field, p, hp, rfl⟩ := hf
  rw [setter_eq field p hp]
  exact .get_bind <| .ite (ykpStore_returns _ _) (ykpError_returns _ _)

theorem findFlag_returns {table : List (String × (Bool → Proc YkpState Unit))}
    (ht : table ⊆ tktflagOptions ++ cfgflagOptions ++ extflagOptions) {optarg : List Char}
    {x : Proc YkpState Unit} (hx : findFlag table optarg = some x) (y : YkpState) :
    Proc.Returns x y := by
  obtain ⟨p, hp, ⟨-, rfl⟩ | ⟨-, rfl⟩⟩ := findFlag_some hx <;>
    exact setter_returns (flagOptions_isSetter p (ht hp)) _ y

/-! ## Neat steps -/

/-- The console is no longer than before, and the buffers have kept their sizes. -/
structure Kept (s s' : ArgsState) : Prop where
  stdin : s'.stdin.length ≤ s.stdin.length
  scanBin : s'.scanBin.length = s.scanBin.length
  deviceInfo : s'.deviceInfo.length = s.deviceInfo.length

/-- What was decoded also fits into its buffer, where the device information has its size. -/
structure Tidy (s s' : ArgsState) : Prop extends Kept s s' where
  decodes : s.deviceInfo.length = 128 →
    ∃ l : List (ℕ × ℕ), s'.decodes = s.decodes ++ l ∧ ∀ p ∈ l, p.2 ≤ p.1

/-- Neither the logs, the console and the buffers nor the exit code have changed. -/
structure SameLogs (s s' : ArgsState) : Prop where
  decodes : s'.decodes = s.decodes
  stdin : s'.stdin = s.stdin
  scanBin : s'.scanBin = s.scanBin
  deviceInfo : s'.deviceInfo = s.deviceInfo
  exitCode : s'.exitCode = s.exitCode

theorem Kept.trans {a b c : ArgsState} (h : Kept a b) (k : Kept b c) : Kept a c :=
  ⟨Nat.le_trans k.stdin h.stdin, k.scanBin.trans h.scanBin, k.deviceInfo.trans h.deviceInfo⟩

theorem SameLogs.tidy {s s' : ArgsState} (h : SameLogs s s') : Tidy s s' where
  stdin := by rw [h.stdin]
  scanBin := by rw [h.scanBin]
  deviceInfo := by rw [h.deviceInfo]
  decodes _ := ⟨[], by simp [h.decodes], by simp⟩

theorem Tidy.refl (s : ArgsState) : Tidy s s := SameLogs.tidy ⟨rfl, rfl, rfl, rfl, rfl⟩

theorem Tidy.trans {a b c : ArgsState} (h : Tidy a b) (k : Tidy b c) : Tidy a c := by
  refine ⟨h.toKept.trans k.toKept, fun hsize => ?_⟩
  obtain ⟨l, hl, hfit⟩ := h.decodes hsize
  obtain ⟨l', hl', hfit'⟩ := k.decodes (h.deviceInfo.trans hsize)
  refine ⟨l ++ l', by rw [hl', hl, List.append_assoc], fun p hp => ?_⟩
  exact (List.mem_append.1 hp).elim (hfit p) (hfit' p)

/-- The exit code is set to 1 where `x` fails, and otherwise `x` returns and keeps it. -/
structure Neat {α : Type} (x : Proc ArgsState α) : Prop where
  tidy : Moves Tidy x
  returns : ∀ s, Proc.Returns x s
  keeps : ∀ s a s', x s = (.ok a, s') → s'.exitCode = s.exitCode
  loud : ∀ s s', x s = (.fail, s') → s'.exitCode = 1

namespace Neat

variable {α β : Type}

theorem pure (a : α) : Neat (pure a : Proc ArgsState α) where
  tidy := .pure Tidy.refl a
  returns _ := .of_ok rfl
  keeps _ _ _ h := by rw [(Prod.mk.inj h).2]
  loud _ _ h := by cases (Prod.mk.inj h).1

theorem bind {x : Proc ArgsState α} {f : α → Proc ArgsState β} (hx : Neat x)
    (hf : ∀ a, Neat (f a)) : Neat (x >>= f) where
  tidy := .bind (fun _ _ _ h k => h.trans k) hx.tidy fun a => (hf a).tidy
  returns s := (hx.returns s).bind fun a t _ => (hf a).returns t
  keeps := Proc.ok_bind (R := fun s s' => ArgsState.exitCode s' = ArgsState.exitCode s) (fun _ _ _ h k => k.trans h)
    hx.keeps fun a => (hf a).keeps
  loud := Proc.Fails.bind hx.loud fun a => (hf a).loud

theorem get_bind {f : ArgsState → Proc ArgsState β} (hf : ∀ t, Neat (f t)) :
    Neat (Proc.get >>= f) where
  tidy := .get_bind fun t => (hf t).tidy
  returns s := (hf s).returns s
  keeps s b s' h := (hf s).keeps s b s' h
  loud s s' h := (hf s).loud s s' h

theorem ite {c : Prop} [Decidable c] {x y : Proc ArgsState α} (hx : Neat x) (hy : Neat y) :
    Neat (if c then x else y) := by
  split_ifs
  · exact hx
  · exact hy

theorem modify {f : ArgsState → ArgsState} (hf : ∀ s, SameLogs s (f s)) :
    Neat (Proc.modify f) where
  tidy s := (hf s).tidy
  returns _ := .of_ok rfl
  keeps s _ _ h := by
    rw [← (Prod.mk.inj h).2]
    exact (hf s).exitCode
  loud _ _ h := by cases (Prod.mk.inj h).1

theorem fprintf (msg : String) : Neat (fprintf msg) := modify fun _ => ⟨rfl, rfl, rfl, rfl, rfl⟩

theorem fputsUsage : Neat fputsUsage := modify fun _ => ⟨rfl, rfl, rfl, rfl, rfl⟩

theorem exitOne : Neat exitOne where
  tidy _ := ⟨⟨Nat.le_refl _, rfl, rfl⟩, fun _ => ⟨[], (List.append_nil _).symm, by simp⟩⟩
  returns _ := .of_fail rfl
  keeps _ _ _ h := by cases (Prod.mk.inj h).1
  loud _ _ h := by rw [← (Prod.mk.inj h).2]

theorem reject (msg : String) : Neat (reject msg) := (fprintf msg).bind fun _ => exitOne

theorem rejectIf (c : Bool) (msg : String) : Neat (rejectIf c msg) := ite (reject msg) (pure _)

/-- A call on the configuration whose failure is not passed on. -/
theorem run {x : Proc YkpState α} (hx : ∀ y, ∃ a y', x y = (.ok a, y')) :
    Neat (Proc.zoom ArgsState.ykp (fun y s => { s with ykp := y }) x) where
  tidy _ := SameLogs.tidy ⟨rfl, rfl, rfl, rfl, rfl⟩
  returns s := by
    obtain ⟨a, y', h⟩ := hx s.ykp
    exact .of_ok (by rw [Proc.zoom_run, h])
  keeps _ _ _ h := by rw [← (Prod.mk.inj h).2]
  loud s _ h := by
    obtain ⟨a, y', hy⟩ := hx s.ykp
    rw [Proc.zoom_run, hy] at h
    cases (Prod.mk.inj h).1

theorem attempt_returns {x : Proc YkpState Unit} {y : YkpState} (hx : Proc.Returns x y) :
    ∃ a y', Proc.attempt x y = (.ok a, y') := by
  rcases hx.attempt.cases with h | ⟨y', h⟩
  · exact h
  · exact (Proc.attempt_ne_fail h).elim

theorem discarding {x : Proc YkpState Unit} (hx : ∀ y, Proc.Returns x y) : Neat (discarding x) :=
  run fun y => by
    obtain ⟨a, y', h⟩ := attempt_returns (hx y)
    rw [Proc.bind_ok h]
    exact ⟨_, _, rfl⟩

theorem orExitOne {x : Proc YkpState Unit} (hx : ∀ y, Proc.Returns x y) :
    Neat (orExitOne x) := by
  refine (run fun y => attempt_returns (hx y)).bind ?_
  rintro (_ | _)
  · exact exitOne
  · exact pure _

theorem promptForData (question : String) : Neat (promptForData question) := by
  refine ⟨fun s => ?_, fun s => ?_, fun s _ _ h => ?_, fun s _ h => ?_⟩ <;>
    obtain ⟨p, stderr, stdin, hrun, hle, -⟩ := promptForData_run question s
  · rw [hrun]
    exact ⟨⟨hle, rfl, rfl⟩, fun _ => ⟨[], (List.append_nil _).symm, by simp⟩⟩
  · exact .of_ok hrun
  · rw [hrun] at h
    rw [← (Prod.mk.inj h).2]
  · rw [hrun] at h
    cases (Prod.mk.inj h).1

theorem attempt {x : Proc ArgsState α} (htidy : Moves Tidy x) (hr : ∀ s, Proc.Returns x s)
    (hkept : Moves (fun s s' => s'.exitCode = s.exitCode) x) : Neat (Proc.attempt x) where
  tidy := htidy.attempt
  returns s := (hr s).attempt
  keeps _ _ _ h := hkept.attempt.of_eq_ok h
  loud _ _ h := (Proc.attempt_ne_fail h).elim

theorem noteDecode {capacity : ℕ} {d : Decoded} (hd : d.rc = 1 → d.stored.length ≤ capacity) :
    Neat (noteDecode capacity d) := by
  unfold YkPers.noteDecode
  split_ifs with hrc
  · refine ⟨fun s => ⟨⟨Nat.le_refl _, rfl, rfl⟩, fun _ => ⟨[(capacity, d.stored.length)], rfl, ?_⟩⟩,
      fun _ => .of_ok rfl, ?_, ?_⟩
    · simpa using hd hrc
    · intro s _ _ h
      rw [← (Prod.mk.inj h).2]
    · intro s _ h
      cases (Prod.mk.inj h).1
  · exact pure _

end Neat

/-! ## The steps -/

section Steps

variable (E : ArgsEnv) (optarg : List Char)

/-- What a decoder is passed: the whole string, which is as long as it is asked to be. -/
theorem decoded_of_rc {str : List Char} {minsize maxsize : ℕ} {modhex : Bool}
    (h : 0 < (hexModhexDecode E str minsize maxsize modhex).rc) :
    (hexModhexDecode E str minsize maxsize modhex).rc = 1
      ∧ minsize ≤ (hexModhexDecode E str minsize maxsize modhex).stored.length
      ∧ (hexModhexDecode E str minsize maxsize modhex).stored.length ≤ maxsize
      ∧ (hexModhexDecode E str minsize maxsize modhex).resultlen
        = some ((hexModhexDecode E str minsize maxsize modhex).stored.length / 2) := by
  rw [hexModhexDecode_eq] at h ⊢
  obtain ⟨hgood, -, hd⟩ := decodeDigits_of_rc h
  rw [hd, Vector.length_toList]
  unfold BadLength at hgood
  exact ⟨rfl, by omega, by omega, rfl⟩

theorem stored_fits {str : List Char} {minsize maxsize capacity : ℕ} {modhex : Bool}
    (hle : maxsize ≤ capacity) (h : (hexModhexDecode E str minsize maxsize modhex).rc = 1) :
    (hexModhexDecode E str minsize maxsize modhex).stored.length ≤ capacity :=
  Nat.le_trans (decoded_of_rc E (by omega)).2.2.1 hle

theorem setFixed_exitCode (opt : List Char) :
    Moves (fun s s' : ArgsState => s'.exitCode = s.exitCode) (setFixed E opt) := by
  refine .bind (fun _ _ _ h k => k.trans h) ?_ fun _ => .ite (.fail fun _ => rfl) ?_
  · exact .ite (fun _ => rfl) (.pure (fun s => Eq.refl s.exitCode) _)
  · exact .zoom (Q := fun _ _ => True) (fun _ => trivial) fun _ _ _ => rfl

namespace Neat

theorem promptAccessCode : Neat promptAccessCode :=
  (promptForData _).bind fun _ => .bind (modify fun _ => ⟨rfl, rfl, rfl, rfl, rfl⟩) fun _ =>
    ite exitOne (pure _)

theorem caseU : Neat caseU :=
  get_bind fun _ => (rejectIf _ _).bind fun _ => (rejectIf _ _).bind fun _ =>
    (rejectIf _ _).bind fun _ => modify fun _ => ⟨rfl, rfl, rfl, rfl, rfl⟩

theorem caseZ : Neat caseZ :=
  get_bind fun _ => (rejectIf _ _).bind fun _ => modify fun _ => ⟨rfl, rfl, rfl, rfl, rfl⟩

theorem caseF : Neat (caseF optarg) :=
  ite (modify fun _ => ⟨rfl, rfl, rfl, rfl, rfl⟩) <|
    ite (modify fun _ => ⟨rfl, rfl, rfl, rfl, rfl⟩) (reject _)

theorem stepBack : Neat stepBack := modify fun _ => ⟨rfl, rfl, rfl, rfl, rfl⟩

theorem caseA : Neat (caseA optarg) :=
  ite (.bind (modify fun _ => ⟨rfl, rfl, rfl, rfl, rfl⟩) fun _ => stepBack)
    (modify fun _ => ⟨rfl, rfl, rfl, rfl, rfl⟩)

theorem caseC : Neat (caseC optarg) :=
  ite (stepBack.bind fun _ => promptAccessCode) (modify fun _ => ⟨rfl, rfl, rfl, rfl, rfl⟩)

/-! ### `-o` -/

theorem modeOption : Neat (modeOption optarg) := by
  have hclear : Neat (onYkp ykpClearConfig) := run fun _ => ⟨_, _, rfl⟩
  exact ite (get_bind fun _ => (rejectIf _ _).bind fun _ => (rejectIf _ _).bind fun _ =>
      hclear.bind fun _ => .bind (modify fun _ => ⟨rfl, rfl, rfl, rfl, rfl⟩) fun _ =>
        modify fun _ => ⟨rfl, rfl, rfl, rfl, rfl⟩)
    (modify fun _ => ⟨rfl, rfl, rfl, rfl, rfl⟩)

/-- `_set_fixed` leaves the exit code to its caller. -/
theorem attemptSetFixed : Neat (Proc.attempt (setFixed E optarg)) := by
  have hnote : Neat (YkPers.noteDecode 256 (hexModhexDecode E optarg 0 32 true)) :=
    noteDecode (stored_fits E (by decide))
  have hset : ∀ input, Neat (YkPers.discarding (ykpSetFixed input)) := fun input =>
    discarding (setCharfield_returns _ _ input)
  refine .attempt (.bind (fun _ _ _ h k => h.trans k) hnote.tidy fun _ => ?_) (fun s => ?_)
    (setFixed_exitCode E optarg)
  · exact .ite (.fail Tidy.refl) (hset _).tidy
  · refine (hnote.returns s).bind fun _ t _ => ?_
    exact .ite (.of_fail rfl) ((hset _).returns t)

theorem optionFixed : Neat (optionFixed E optarg) := by
  refine (attemptSetFixed E optarg).bind ?_
  rintro (_ | _)
  · exact reject _
  · exact pure _

theorem uidValue : Neat (uidValue optarg) :=
  ite (pure _) <| (promptForData _).bind fun _ => ite (exitOne.bind fun _ => pure _) (pure _)

theorem optionUid : Neat (optionUid E optarg) :=
  (uidValue optarg).bind fun _ => (noteDecode (stored_fits E (by decide))).bind fun _ =>
    (rejectIf _ _).bind fun _ => get_bind fun _ => (rejectIf _ _).bind fun _ =>
      discarding (setCharfield_returns _ _ _)

theorem promptNewAccessCode : Neat promptNewAccessCode :=
  (promptForData _).bind fun _ => .bind (modify fun _ => ⟨rfl, rfl, rfl, rfl, rfl⟩) fun _ =>
    ite exitOne (pure _)

theorem optionOathImf : Neat (optionOathImf optarg) := by
  refine get_bind fun _ => (rejectIf _ _).bind fun _ => ?_
  rcases scanUnsignedLong optarg with _ | imf
  · exact reject _
  · exact (rejectIf _ _).bind fun _ => orExitOne (setOathImf_returns _)

theorem rejectUnknown : Neat (rejectUnknown optarg) :=
  (fprintf _).bind fun _ => fputsUsage.bind fun _ => exitOne

theorem caseO : Neat (caseO E optarg) := by
  refine get_bind fun _ => (rejectIf _ _).bind fun _ => ?_
  refine ite (optionFixed E _) <| ite (optionUid E _) <|
    ite (modify fun _ => ⟨rfl, rfl, rfl, rfl, rfl⟩) <| ite promptNewAccessCode ?_
  rcases hf : findFlag (tktflagOptions ++ cfgflagOptions) optarg with _ | x
  · refine ite (optionOathImf _) <| ite (modify fun _ => ⟨rfl, rfl, rfl, rfl, rfl⟩) ?_
    rcases hg : findFlag extflagOptions optarg with _ | x
    · exact rejectUnknown _
    · exact orExitOne (findFlag_returns (List.subset_append_right _ _) hg)
  · exact orExitOne (findFlag_returns (List.subset_append_left _ _) hf)

/-! ### Behind the loop -/

theorem checkAction : Neat checkAction :=
  get_bind fun _ => ite
    (ite (fputsUsage.bind fun _ => exitOne) ((fprintf _).bind fun _ => exitOne)) (pure _)

theorem checkUpdate : Neat checkUpdate :=
  get_bind fun _ => ite
    ((rejectIf _ _).bind fun _ => (rejectIf _ _).bind fun _ => rejectIf _ _) (pure _)

theorem promptKey (keyBytes : ℕ) : Neat (promptKey keyBytes) :=
  get_bind fun _ => ite
    ((promptForData _).bind fun _ => ite exitOne (modify fun _ => ⟨rfl, rfl, rfl, rfl, rfl⟩))
    (pure _)

theorem keyFromRaw (keyBytes : ℕ) (key : List UInt8) :
    Neat (onYkp (if keyBytes = 20 then ykpHmacKeyFromRaw key else ykpAesKeyFromRaw key)) :=
  run fun y => by split_ifs <;> exact ⟨_, _, rfl⟩

end Neat

end Steps

end YkPers
