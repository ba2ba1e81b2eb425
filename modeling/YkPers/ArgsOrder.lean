import Mathlib.Data.List.Induction
import Mathlib.Data.List.TakeWhile
import Mathlib.Logic.Function.Iterate
import YkPers.Lib.Guards
import YkPers.YkpersArgs

/-!
# What the order of the options decides

The options as the conflict rules of the command line see them: the mark each leaves, the marks
it is guarded against, and the command it chooses. An accepted command line is a sequence of
options that the guards admit, and its command is the last one chosen.
-/

namespace YkPers

open Guards (Marked Admitted Exclusive Gap)

/-- What `args_to_config` remembers of the options so far. -/
inductive Mark where
  | slot | option | swap | update | ndefRequest | zap | usbMode | scanMap | deviceInfo
  deriving DecidableEq

/-- The options by the part they take in the conflict rules; `-n` and `-t` are `ndefRequest`, and
`scanReset` is `-S` without an argument. -/
inductive Kind where
  | update | slot1 | slot2 | swap | zap | ndefRequest | usbMode | scanMap | scanReset | deviceInfo
  | option | other
  deriving DecidableEq

namespace Kind

def mark : Kind → Option Mark
  | update => some .update
  | slot1 => some .slot
  | slot2 => some .slot
  | swap => some .swap
  | zap => some .zap
  | ndefRequest => some .ndefRequest
  | usbMode => some .usbMode
  | scanMap => some .scanMap
  | scanReset => some .scanMap
  | deviceInfo => some .deviceInfo
  | option => some .option
  | other => none

/-- The marks that make an option an error. -/
def guards : Kind → List Mark
  | update => [.slot, .swap, .ndefRequest]
  | slot1 => [.slot, .option, .swap]
  | slot2 => [.slot, .option, .swap]
  | swap => [.slot, .option, .update, .ndefRequest, .zap, .usbMode, .scanMap, .deviceInfo]
  | zap => [.swap, .update, .ndefRequest, .usbMode, .scanMap, .deviceInfo]
  | ndefRequest => [.swap, .update, .option, .zap, .usbMode, .scanMap, .deviceInfo]
  | usbMode => [.slot, .swap, .update, .option, .ndefRequest, .zap, .scanMap, .deviceInfo]
  | scanMap => [.slot, .swap, .update, .option, .ndefRequest, .zap, .usbMode, .deviceInfo]
  | scanReset => [.slot, .swap, .update, .option, .ndefRequest, .zap, .usbMode]
  | deviceInfo => [.slot, .swap, .update, .option, .ndefRequest, .zap, .usbMode, .scanMap]
  | option => [.zap]
  | other => []

/-- The command behind an option, from whether `-u` came before it and the command so far. -/
def command (updated : Bool) (c : UInt8) : Kind → UInt8
  | slot1 => if updated then slotUpdate1 else slotConfig
  | slot2 => if updated then slotUpdate2 else slotConfig2
  | swap => slotSwap
  | ndefRequest => ndefCommand c
  | usbMode => slotDeviceConfig
  | scanMap => slotScanMap
  | scanReset => slotScanMap
  | deviceInfo => slotYk4SetDeviceInfo
  | _ => c

def isSlot (k : Kind) : Bool := k = slot1 || k = slot2

end Kind

def optionKind : Getopt.Scanned → Kind
  | .flag 'u' => .update
  | .flag '1' => .slot1
  | .flag '2' => .slot2
  | .flag 'x' => .swap
  | .flag 'z' => .zap
  | .arg 't' _ => .ndefRequest
  | .arg 'n' _ => .ndefRequest
  | .arg 'm' _ => .usbMode
  | .arg 'S' _ => .scanMap
  | .missing 'S' => .scanReset
  | .arg 'D' _ => .deviceInfo
  | .arg 'o' _ => .option
  | _ => .other

/-- Where the scan goes on behind an option: an argument of `-a` or `-c` that is an option itself
is scanned once more. -/
def resume (g : Getopt) : Getopt.Scanned → Getopt
  | .arg 'a' optarg => if isOption optarg then g.stepBack else g
  | .arg 'c' optarg => if isOption optarg then g.stepBack else g
  | _ => g

/-- What `getopt` returns from where the scan stands, as often as the fuel allows. -/
def scans : ℕ → Getopt → List Getopt.Scanned
  | 0, _ => []
  | fuel + 1, g =>
    match g.getopt optstring with
    | (none, _) => []
    | (some o, g') => o :: scans fuel (resume g' o)

/-- The options from where the scan stands, as many as the fuel allows. -/
def options : ℕ → Getopt → List Kind
  | 0, _ => []
  | fuel + 1, g =>
    match g.getopt optstring with
    | (none, _) => []
    | (some o, g') => optionKind o :: options fuel (resume g' o)

theorem options_eq : ∀ (fuel : ℕ) (g : Getopt), options fuel g = (scans fuel g).map optionKind
  | 0, _ => rfl
  | fuel + 1, g => by
    rw [options, scans]
    rcases g.getopt optstring with ⟨_ | o, g'⟩
    · rfl
    · exact congrArg (optionKind o :: ·) (options_eq fuel (resume g' o))

structure Plan where
  updated : Bool
  command : UInt8

def Plan.next (p : Plan) (k : Kind) : Plan :=
  ⟨p.updated || k = .update, k.command p.updated p.command⟩

/-- The plan of a sequence, from a fresh configuration. -/
def plan (ks : List Kind) : Plan := ks.foldl Plan.next ⟨false, 0⟩

theorem plan_concat (ks : List Kind) (k : Kind) : plan (ks ++ [k]) = (plan ks).next k := by
  rw [plan, List.foldl_concat]
  rfl

theorem plan_updated (ks : List Kind) :
    (plan ks).updated = true ↔ Marked Kind.mark ks .update := by
  induction ks using List.reverseRecOn with
  | nil => simp [plan, Marked]
  | append_singleton ks k ih =>
    rw [plan_concat, Guards.marked_concat, ← ih]
    cases k <;> simp [Plan.next, Kind.mark]

/-! ## The record of an NDEF request -/

/-- The number of `-n` and `-t` behind the slot option. -/
def ndefsAfterSlot (ks : List Kind) : ℕ := (ks.dropWhile (!·.isSlot)).count .ndefRequest

/-- Behind `-1` there is a `-n` or `-t`, behind `-2` exactly one. -/
def KeepsNdef (ks : List Kind) : Prop :=
  (.slot1 ∈ ks → 0 < ndefsAfterSlot ks) ∧ (.slot2 ∈ ks → ndefsAfterSlot ks = 1)

def Kind.besideNdef (k : Kind) : Bool := k = .ndefRequest || k = .option || k = .other

theorem iterate_ndefCommand_ne {c : UInt8} (h1 : c ≠ slotConfig) (h2 : c ≠ slotConfig2) :
    ∀ n : ℕ, ndefCommand^[n + 1] c = slotNdef
  | 0 => by simp [ndefCommand, h1, h2]
  | n + 1 => by
    rw [Function.iterate_succ_apply', iterate_ndefCommand_ne h1 h2 n]
    decide

theorem iterate_ndefCommand_slotConfig (n : ℕ) :
    ndefCommand^[n] slotConfig = slotNdef ↔ 0 < n := by
  rcases n with _ | n
  · decide
  · have h : ndefCommand^[n + 1] slotConfig = slotNdef := by
      rcases n with _ | n
      · decide
      · rw [Function.iterate_succ_apply]
        exact iterate_ndefCommand_ne (by decide) (by decide) n
    simp [h]

theorem iterate_ndefCommand_slotConfig2 (n : ℕ) :
    ndefCommand^[n] slotConfig2 = slotNdef2 ↔ n = 1 := by
  rcases n with _ | _ | n
  · decide
  · decide
  · rw [Function.iterate_succ_apply, iterate_ndefCommand_ne (by decide) (by decide) n]
    exact iff_of_false (by decide) (by omega)

/-- Beside `-n`, only the `-n` and `-t` change the plan. -/
theorem foldl_besideNdef {ks : List Kind} (p : Plan) (h : ∀ k ∈ ks, k.besideNdef = true) :
    ks.foldl Plan.next p = ⟨p.updated, ndefCommand^[ks.count .ndefRequest] p.command⟩ := by
  induction ks generalizing p with
  | nil => rfl
  | cons k ks ih =>
    rw [List.foldl_cons, ih _ fun j hj => h j (List.mem_cons_of_mem k hj)]
    have hk := h k List.mem_cons_self
    cases k <;> simp_all [Kind.besideNdef, Plan.next, Kind.command]

/-- `-n` and the marks that never stand beside it. -/
def ndefApart (m n : Mark) : Prop :=
  (m = .ndefRequest ∧ n ∉ [Mark.ndefRequest, .slot, .option]) ∨
    (n = .ndefRequest ∧ m ∉ [Mark.ndefRequest, .slot, .option])

theorem besideNdef_of_admitted {ks : List Kind} (ha : Admitted Kind.mark Kind.guards ks)
    (hn : Kind.ndefRequest ∈ ks) : ∀ k ∈ ks, k.besideNdef = true ∨ k.isSlot = true := by
  have hx : Exclusive ndefApart Kind.mark ks := by
    -- each of these pairs is guarded in both orders
    refine ha.exclusive (fun _ _ => Or.symm) ?_ ?_
    · rintro m (⟨rfl, h⟩ | ⟨rfl, h⟩) <;> simp at h
    · intro e l
      cases e <;> cases l <;> decide
  intro k hk
  have h : ∀ m, k.mark = some m → ¬ ndefApart .ndefRequest m := fun m hm =>
    hx .ndefRequest m ⟨_, hn, rfl⟩ ⟨k, hk, hm⟩
  cases k <;> simp_all [Kind.mark, Kind.besideNdef, Kind.isSlot, ndefApart]

/-- Nothing but `-n`, `-o` and the like comes behind the slot option. -/
theorem besideNdef_after_slot {ks : List Kind} {k : Kind} (hk : k.isSlot = true)
    (ha : Admitted Kind.mark Kind.guards (k :: ks))
    (hb : ∀ j ∈ ks, j.besideNdef = true ∨ j.isSlot = true) :
    ∀ j ∈ ks, j.besideNdef = true := by
  intro j hj
  refine (hb j hj).resolve_right fun hs => ?_
  have hkm : k.mark = some .slot := by cases k <;> simp_all [Kind.isSlot, Kind.mark]
  have h := (List.pairwise_cons.1 ha).1 j hj .slot hkm
  cases j <;> simp_all [Kind.isSlot, Kind.guards]

theorem isSlot_of_besideNdef {k : Kind} (h : k.besideNdef = true) : k.isSlot = false := by
  cases k <;> simp_all [Kind.besideNdef, Kind.isSlot]

theorem command_ndef_iff {ks : List Kind} (ha : Admitted Kind.mark Kind.guards ks)
    (hn : Kind.ndefRequest ∈ ks) :
    (plan ks).command = (if Kind.slot2 ∈ ks then slotNdef2 else slotNdef) ↔ KeepsNdef ks := by
  have hb := besideNdef_of_admitted ha hn
  have hpre : ∀ k ∈ ks.takeWhile (!·.isSlot), k.besideNdef = true := by
    intro k hk
    have h1 : k.isSlot = false := by simpa using List.mem_takeWhile_imp hk
    exact (hb k ((List.takeWhile_prefix _).subset hk)).resolve_right (by simp [h1])
  have hks := List.takeWhile_append_dropWhile (p := fun k : Kind => !k.isSlot) (l := ks)
  generalize ks.takeWhile (!·.isSlot) = pre at hpre hks
  rcases hpost : ks.dropWhile (!·.isSlot) with _ | ⟨k, post⟩ <;> rw [hpost] at hks
  · -- no slot option
    rw [List.append_nil] at hks
    subst hks
    have hno : ∀ k ∈ pre, k.isSlot = false := fun k hk => isSlot_of_besideNdef (hpre k hk)
    have h1 : Kind.slot1 ∉ pre := fun h => by simpa [Kind.isSlot] using hno _ h
    have h2 : Kind.slot2 ∉ pre := fun h => by simpa [Kind.isSlot] using hno _ h
    obtain ⟨n, hcount⟩ := Nat.exists_eq_succ_of_ne_zero (List.count_pos_iff.2 hn).ne'
    rw [plan, foldl_besideNdef _ hpre, hcount, if_neg h2]
    exact iff_of_true (iterate_ndefCommand_ne (by decide) (by decide) n)
      ⟨fun h => absurd h h1, fun h => absurd h h2⟩
  · -- the slot option `k`, and only `-n`, `-o` and the like before and behind it
    have hk : k.isSlot = true := by
      simpa [hpost] using List.head?_dropWhile_not (!·.isSlot) ks
    have hpost' : ∀ j ∈ post, j.besideNdef = true := by
      refine besideNdef_after_slot hk ?_ fun j hj => hb j ?_
      · rw [← hks, Admitted, List.pairwise_append] at ha
        exact ha.2.1
      · exact hks ▸ List.mem_append_right pre (List.mem_cons_of_mem k hj)
    have hslot : ∀ j : Kind, j.isSlot = true → (j ∈ ks ↔ j = k) := by
      intro j hj
      have h1 : j ∉ pre := fun h => by simp [isSlot_of_besideNdef (hpre j h)] at hj
      have h2 : j ∉ post := fun h => by simp [isSlot_of_besideNdef (hpost' j h)] at hj
      simp [← hks, h1, h2]
    have hcount : ndefsAfterSlot ks = post.count .ndefRequest := by
      rw [ndefsAfterSlot, hpost]
      cases k <;> simp_all [Kind.isSlot]
    have hplan : (plan ks).command = ndefCommand^[post.count .ndefRequest] (k.command false
        (ndefCommand^[pre.count .ndefRequest] 0)) := by
      rw [← hks, plan, List.foldl_append, foldl_besideNdef _ hpre, List.foldl_cons,
        foldl_besideNdef _ hpost']
      rfl
    rw [KeepsNdef, hplan, hcount, hslot .slot1 rfl]
    simp only [hslot .slot2 rfl]
    cases k <;> simp [Kind.isSlot] at hk
    · simpa [Kind.command] using iterate_ndefCommand_slotConfig (post.count .ndefRequest)
    · simpa [Kind.command] using iterate_ndefCommand_slotConfig2 (post.count .ndefRequest)

/-! ## Actions that exclude each other -/

/-- Swap, USB mode, scan map and device information. -/
def Mark.isAction (m : Mark) : Bool :=
  m = .swap || m = .usbMode || m = .scanMap || m = .deviceInfo

def Mark.command : Mark → UInt8
  | swap => slotSwap
  | usbMode => slotDeviceConfig
  | scanMap => slotScanMap
  | deviceInfo => slotYk4SetDeviceInfo
  | _ => 0

/-- An action with another one, with a slot, `-u`, `-z` or `-n`; and `-z` with `-u`, `-n` or
`-o`. -/
def Mark.clashes (m n : Mark) : Bool :=
  (m.isAction && n.isAction && m ≠ n) ||
    (m.isAction && (n = .slot || n = .update || n = .zap || n = .ndefRequest)) ||
    (m = .zap && (n = .update || n = .ndefRequest || n = .option))

def Conflict (m n : Mark) : Prop := m.clashes n = true ∨ n.clashes m = true

instance : DecidableRel Conflict := fun _ _ => inferInstanceAs (Decidable (_ ∨ _))

/-- The pairs of options that conflict but are refused in the other order only: a slot option or
`-u` behind an action other than `-x`, `-S` without an argument behind `-D`, `-u` behind `-z`,
and `-z` behind `-o`. -/
def Kind.unguarded (e l : Kind) : Bool :=
  ((e = usbMode || e = scanMap || e = scanReset || e = deviceInfo) &&
      (l = slot1 || l = slot2 || l = update)) ||
    (e = deviceInfo && l = scanReset) || (e = zap && l = update) || (e = option && l = zap)

theorem gap_iff (e l : Kind) :
    Gap Conflict Kind.mark Kind.guards e l ↔ e.unguarded l = true := by
  cases e <;> cases l <;> decide

theorem conflict_symm (m n : Mark) : Conflict m n → Conflict n m := Or.symm

theorem conflict_irrefl (m : Mark) : ¬ Conflict m m := by
  cases m <;> decide

theorem exclusive_iff {ks : List Kind} (ha : Admitted Kind.mark Kind.guards ks) :
    Exclusive Conflict Kind.mark ks ↔ ks.Pairwise fun e l => e.unguarded l = false := by
  rw [ha.exclusive_iff conflict_symm conflict_irrefl]
  simp only [gap_iff, Bool.not_eq_true]

/-- The other options of an exclusive sequence with an action leave its command alone. -/
theorem command_of_action {m : Mark} (hm : m.isAction = true) {ks : List Kind}
    (h : ∀ k ∈ ks, k.mark = some m ∨ k = .option ∨ k = .other) :
    Marked Kind.mark ks m → (plan ks).command = m.command := by
  induction ks using List.reverseRecOn with
  | nil => simp [Marked]
  | append_singleton ks k ih =>
    intro hmark
    have hk := h k (by simp)
    have ih' := ih fun j hj => h j (List.mem_append_left [k] hj)
    rw [Guards.marked_concat] at hmark
    rw [plan_concat]
    cases m <;> simp [Mark.isAction] at hm <;> cases k <;>
      simp_all [Kind.mark, Plan.next, Kind.command, Mark.command]

theorem command_of_exclusive {ks : List Kind} (hx : Exclusive Conflict Kind.mark ks) {m : Mark}
    (hm : m.isAction = true) (h : Marked Kind.mark ks m) : (plan ks).command = m.command := by
  refine command_of_action hm (fun k hk => ?_) h
  have hkm : ∀ n, k.mark = some n → ¬ Conflict m n := fun n hn => hx m n h ⟨k, hk, hn⟩
  cases m <;> simp [Mark.isAction] at hm <;> cases k <;>
    simp_all [Kind.mark, Conflict, Mark.clashes, Mark.isAction]

end YkPers
