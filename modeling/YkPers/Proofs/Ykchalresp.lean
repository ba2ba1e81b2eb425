import YkPers.Lib.Decimal
import YkPers.Proofs.ToolFrame
import YkPers.Proofs.WriteToKey
import YkPers.Proofs.Ykpersonalize
import YkPers.ScriptedMain
import YkPers.Ykchalresp

/-!
# Time-based codes

The options are folded into variables, of which the last `-t` or `-Y` and the last digit option
count. The counter that makes the challenge starts with NUL bytes, so that as a string it is empty:
decoded as hexadecimal it is lost, and without `-x` it is what the key is sent.
-/

namespace YkPers

namespace Ykchalresp

open Getopt (except_bind_eq_ok)
open Proc (Alone get modify fail attempt)

/-! ## The options -/

/-- The flag that an option is, if it is one of `cs`. -/
def flagOf (cs : List Char) : Getopt.Scanned → Option Char
  | .flag c => if c ∈ cs then some c else none
  | _ => none

/-- The last of the options that is one of the flags `cs`. -/
def lastFlag (cs : List Char) (opts : List Getopt.Scanned) : Option Char :=
  opts.reverse.findSome? (flagOf cs)

theorem lastFlag_concat (cs : List Char) (opts : List Getopt.Scanned) (o : Getopt.Scanned) :
    lastFlag cs (opts ++ [o]) = (flagOf cs o).or (lastFlag cs opts) := by
  rw [lastFlag, List.reverse_append, List.reverse_singleton, List.singleton_append,
    List.findSome?_cons]
  cases flagOf cs o <;> rfl

/-- What the variables hold behind the options. -/
structure Reads (opts : List Getopt.Scanned) (v : Vars) : Prop where
  totp : v.totp = true ↔ lastFlag ['t', 'Y'] opts = some 't'
  hmac : v.totp = true → v.hmac = true
  hexEncoded : v.hexEncoded = true ↔ .flag 'x' ∈ opts
  verbose : lastFlag ['v'] opts = none → v.verbose = false
  six : lastFlag ['6', '8'] opts = some '6' → v.digits = 6
  eight : lastFlag ['6', '8'] opts = some '8' → v.digits = 8
  slot : v.slot = 1 ∨ v.slot = 2

section Parse

variable {E : Env}

theorem reads_start : Reads [] Vars.start where
  totp := by simp [lastFlag, Vars.start]
  hmac := by simp [Vars.start]
  hexEncoded := by simp [Vars.start]
  verbose := fun _ => rfl
  six := by simp [lastFlag]
  eight := by simp [lastFlag]
  slot := .inl rfl

theorem Reads.parseOption {opts : List Getopt.Scanned} {v v' : Vars} {o : Getopt.Scanned}
    (h : Reads opts v) (ho : parseOption E v o = .ok v') : Reads (opts ++ [o]) v' := by
  obtain ⟨htotp, hhmac, hhex, hverbose, hsix, height, hslot⟩ := h
  unfold Ykchalresp.parseOption at ho
  split at ho
  all_goals try split_ifs at ho
  -- an option that ends the program returns no variables
  all_goals cases ho <;> constructor <;> simp_all [lastFlag_concat, flagOf]

theorem reads_options {opts : List Getopt.Scanned} {v : Vars}
    (h : opts.foldlM (Ykchalresp.parseOption E) Vars.start = .ok v) : Reads opts v :=
  Getopt.foldlM_ok reads_start Reads.parseOption h

/-! ## The challenge -/

/-- `k` in `n` bytes, the highest first. -/
def bigEndian (n k : ℕ) : List UInt8 :=
  (List.range n).reverse.map fun i => UInt8.ofNat (k / 256 ^ i)

theorem shiftRight_and_255 (n s : ℕ) : (n >>> s &&& 255) % 256 = n / 2 ^ s % 256 := by
  rw [Nat.shiftRight_eq_div_pow, show 255 = 2 ^ 8 - 1 from rfl, Nat.and_two_pow_sub_one_eq_mod,
    Nat.mod_mod]

theorem bytes_of_masks (t : UInt32) :
    [((t &&& 0xff000000) >>> 24).toUInt8, ((t &&& 0x00ff0000) >>> 16).toUInt8,
      ((t &&& 0x0000ff00) >>> 8).toUInt8, (t &&& 0x000000ff).toUInt8] = bigEndian 4 t.toNat := by
  have hrange : (List.range 4).reverse = [3, 2, 1, 0] := rfl
  simp only [bigEndian, hrange, List.map_cons, List.map_nil, List.cons.injEq, and_true,
    ← UInt8.toNat_inj]
  simp only [UInt32.toNat_toUInt8, UInt32.toNat_shiftRight, UInt32.toNat_and,
    Nat.shiftRight_and_distrib, UInt8.toNat_ofNat']
  refine ⟨shiftRight_and_255 _ 24, shiftRight_and_255 _ 16, shiftRight_and_255 _ 8, ?_⟩
  simpa using shiftRight_and_255 t.toNat 0

/-- The counter of a time fits in four bytes. -/
theorem bigEndian_eight {k : ℕ} (hk : k < 2 ^ 31) :
    bigEndian 8 k = [0, 0, 0, 0] ++ bigEndian 4 k := by
  have hrange : (List.range 8).reverse = [7, 6, 5, 4] ++ (List.range 4).reverse := rfl
  have hhigh : ∀ i, 4 ≤ i → k / 256 ^ i = 0 := by
    intro i hi
    apply Nat.div_eq_of_lt
    calc k < 256 ^ 4 := by omega
      _ ≤ 256 ^ i := Nat.pow_le_pow_right (by decide) hi
  rw [bigEndian, hrange, List.map_append]
  simp only [List.map_cons, List.map_nil, hhigh 7 (by decide), hhigh 6 (by decide),
    hhigh 5 (by decide), hhigh 4 (by decide)]
  rfl

theorem totpChallenge_eq {time : ℕ} (h : time < 2 ^ 31) :
    totpChallenge time = ⟨bigEndian 8 (time / 30), 8⟩ := by
  have ht : (UInt32.ofInt (time : ℤ) / 30).toNat = time / 30 := by
    simp [UInt32.ofInt]
    omega
  have hbytes := bytes_of_masks (UInt32.ofInt (time : ℤ) / 30)
  rw [ht] at hbytes
  rw [bigEndian_eight (by omega), ← hbytes]
  rfl

/-- The string at the counter is empty. -/
theorem cString_totpChallenge (time : ℤ) : cString (totpChallenge time).mem = [] := rfl

theorem parseArgs_ok {argv : List (List Char)} {v : Vars} {c : Challenge}
    (h : parseArgs E argv = .ok (v, c)) :
    Reads (options argv) v ∧ ∃ arg raw, rawChallenge E v arg = .ok raw
      ∧ if v.hexEncoded then hexChallenge E raw = .ok c else c = raw := by
  unfold parseArgs at h
  obtain ⟨u, hu, h⟩ := except_bind_eq_ok.1 h
  simp only [] at h
  split_ifs at h with hnone hx
  all_goals
    obtain ⟨raw, hraw, h⟩ := except_bind_eq_ok.1 h
    obtain ⟨d, hd, h⟩ := except_bind_eq_ok.1 h
    obtain ⟨rfl, rfl⟩ := Prod.mk.inj (Except.ok.inj h)
    refine ⟨reads_options hu, _, raw, hraw, ?_⟩
  · rw [if_pos hx, hd]
  · rw [if_neg hx, ← Except.ok.inj hd]

/-- With `-t`, the challenge is the counter, or what is decoded of an empty string, at half of its
length. -/
theorem parseArgs_totp {time : ℕ} (htime : time < 2 ^ 31) (hnow : E.time = time)
    {argv : List (List Char)} {v : Vars} {c : Challenge} (h : parseArgs E argv = .ok (v, c))
    (htotp : lastFlag ['t', 'Y'] (options argv) = some 't') :
    (.flag 'x' ∉ options argv → c = ⟨bigEndian 8 (time / 30), 8⟩)
      ∧ (.flag 'x' ∈ options argv → c = ⟨(E.yubikeyHexDecode [] sha1MaxBlockSize).toList, 4⟩) := by
  obtain ⟨hreads, arg, raw, hraw, hc⟩ := parseArgs_ok h
  have ht := hreads.totp.2 htotp
  have hraw' : raw = totpChallenge E.time := by
    rw [rawChallenge, ht, hreads.hmac ht] at hraw
    exact (Except.ok.inj hraw).symm
  rw [← hreads.hexEncoded]
  constructor
  · intro hx
    rw [if_neg hx] at hc
    rw [hc, hraw', hnow, totpChallenge_eq htime]
  · intro hx
    have hlen : (totpChallenge E.time).len = 8 := rfl
    rw [if_pos hx, hraw', hexChallenge, cString_totpChallenge, hlen] at hc
    split_ifs at hc
    exact (Except.ok.inj hc).symm

end Parse

/-! ## The code -/

/-- The number that bytes denote, the highest first. -/
def bigEndianValue (bytes : List UInt8) : ℕ := bytes.foldl (fun n b => 256 * n + b.toNat) 0

/-- Four bytes of a 20-byte response, at an offset that its last byte says, without the sign. -/
def dynamicTruncation (response : List UInt8) : ℕ :=
  bigEndianValue ((response.drop ((response.getD 19 0).toNat % 16)).take 4) % 2 ^ 31

/-- The bytes do not overlap, and a byte is a number below 256. -/
theorem or_of_bytes {a b c d : ℕ} (hb : b < 256) (hc : c < 256) (hd : d < 256) :
    a <<< 24 ||| b <<< 16 ||| c <<< 8 ||| d = 256 * (256 * (256 * a + b) + c) + d := by
  have hcd : 2 ^ 8 * c ||| d = 2 ^ 8 * c + d := (Nat.two_pow_add_eq_or_of_lt (by omega) c).symm
  have hbcd : 2 ^ 16 * b ||| (2 ^ 8 * c + d) = 2 ^ 16 * b + (2 ^ 8 * c + d) :=
    (Nat.two_pow_add_eq_or_of_lt (by omega) b).symm
  have habcd : 2 ^ 24 * a ||| (2 ^ 16 * b + (2 ^ 8 * c + d))
      = 2 ^ 24 * a + (2 ^ 16 * b + (2 ^ 8 * c + d)) :=
    (Nat.two_pow_add_eq_or_of_lt (by omega) a).symm
  rw [Nat.shiftLeft_eq, Nat.shiftLeft_eq, Nat.shiftLeft_eq, Nat.mul_comm a, Nat.mul_comm b,
    Nat.mul_comm c, Nat.or_assoc, Nat.or_assoc, hcd, hbcd, habcd]
  omega

theorem toNat_of_bytes (b₀ b₁ b₂ b₃ : UInt8) :
    (((b₀ &&& 0x7f).toUInt32 <<< 24) ||| ((b₁ &&& 0xff).toUInt32 <<< 16)
      ||| ((b₂ &&& 0xff).toUInt32 <<< 8) ||| (b₃ &&& 0xff).toUInt32).toNat
      = bigEndianValue [b₀, b₁, b₂, b₃] % 2 ^ 31 := by
  have hsign : b₀.toNat &&& 127 = b₀.toNat % 128 := Nat.and_two_pow_sub_one_eq_mod _ 7
  have hbyte : ∀ b : UInt8, b.toNat &&& 255 = b.toNat := fun b =>
    (Nat.and_two_pow_sub_one_eq_mod _ 8).trans (Nat.mod_eq_of_lt b.toNat_lt)
  have h0 := b₀.toNat_lt
  have h1 := b₁.toNat_lt
  have h2 := b₂.toNat_lt
  have h3 := b₃.toNat_lt
  have hor := or_of_bytes (a := b₀.toNat % 128) h1 h2 h3
  have hshift : ∀ {x k : ℕ}, x * 2 ^ k < 4294967296 → x <<< k % 4294967296 = x <<< k := fun hx => by
    rw [Nat.shiftLeft_eq, Nat.mod_eq_of_lt hx]
  simp only [UInt32.toNat_or, UInt32.toNat_shiftLeft, UInt8.toNat_toUInt32, UInt8.toNat_and,
    UInt32.toNat_ofNat, UInt8.toNat_ofNat, Nat.reducePow, Nat.reduceMod, hsign, hbyte]
  rw [hshift (k := 24) (by omega), hshift (k := 16) (by omega), hshift (k := 8) (by omega), hor]
  simp only [bigEndianValue, List.foldl_cons, List.foldl_nil]
  omega

theorem take_drop_four {l : List UInt8} {i : ℕ} (h : i + 3 < l.length) :
    (l.drop i).take 4 = [l.getD i 0, l.getD (i + 1) 0, l.getD (i + 2) 0, l.getD (i + 3) 0] := by
  rw [List.drop_eq_getElem_cons (show i < l.length by omega),
    List.drop_eq_getElem_cons (show i + 1 < l.length by omega),
    List.drop_eq_getElem_cons (show i + 1 + 1 < l.length by omega),
    List.drop_eq_getElem_cons (show i + 1 + 1 + 1 < l.length by omega)]
  simp only [List.take_succ_cons, List.take_zero, List.getD_eq_getElem?_getD,
    List.getElem?_eq_getElem h, List.getElem?_eq_getElem (show i < l.length by omega),
    List.getElem?_eq_getElem (show i + 1 < l.length by omega),
    List.getElem?_eq_getElem (show i + 2 < l.length by omega), Option.getD_some]

theorem binCode_eq {response rest : List UInt8} (h : response.length = 20) :
    (binCode (response ++ rest)).toNat = dynamicTruncation response := by
  have hget : ∀ i < 20, (response ++ rest).getD i 0 = response.getD i 0 := by
    intro i hi
    rw [List.getD_eq_getElem?_getD, List.getElem?_append_left (by omega),
      List.getD_eq_getElem?_getD]
  have hoffset : (response.getD 19 0 &&& 0xf).toNat = (response.getD 19 0).toNat % 16 :=
    Nat.and_two_pow_sub_one_eq_mod _ 4
  have hlt := Nat.mod_lt (response.getD 19 0).toNat (show 0 < 16 by decide)
  rw [dynamicTruncation, take_drop_four (by omega), ← toNat_of_bytes, binCode, hget 19 (by decide)]
  simp only [hoffset]
  rw [hget _ (by omega), hget _ (by omega), hget _ (by omega), hget _ (by omega)]

theorem responseText_digits (E : Env) {d : ℕ} {response rest : List UInt8} (hd : d = 6 ∨ d = 8)
    (h : response.length = 20) :
    let text := responseText E true d (response ++ rest)
    text.length = d ∧ (∀ c ∈ text, c.isDigit)
      ∧ Decimal.value text = dynamicTruncation response % 10 ^ d := by
  have hmod : ∀ m : UInt32, (binCode (response ++ rest) % m).toNat
      = dynamicTruncation response % m.toNat := fun m => by
    rw [UInt32.toNat_mod, binCode_eq h]
  intro text
  rcases hd with rfl | rfl
  · have htext : text = zeroPadded 6 (dynamicTruncation response % 10 ^ 6) := by
      show zeroPadded 6 (binCode (response ++ rest) % 1000000).toNat = _
      rw [hmod]
      rfl
    rw [htext]
    exact Decimal.leftpad_digits (by decide) (Nat.mod_lt _ (by decide))
  · have htext : text = zeroPadded 8 (dynamicTruncation response % 10 ^ 8) := by
      show zeroPadded 8 (binCode (response ++ rest) % 100000000).toNat = _
      rw [hmod]
      rfl
    rw [htext]
    exact Decimal.leftpad_digits (by decide) (Nat.mod_lt _ (by decide))

/-! ## The run -/

section Run

variable {σ α : Type} (U : Usb σ) (E : Env)

/-- The output and the log of the challenges are as before. -/
def Quiet (s s' : State σ) : Prop := s'.exchanges = s.exchanges ∧ s'.stdout = s.stdout

/-- Nothing is sent; where `verbose` is set, something may be shown. -/
def Shows (verbose : Bool) (s s' : State σ) : Prop :=
  s'.exchanges = s.exchanges
    ∧ ∃ shown, (verbose = false → shown = []) ∧ s'.stdout = s.stdout ++ shown

/-- At most the challenge `c` is sent, and its response is printed. -/
def Exchanged (v : Vars) (c : Challenge) (s s' : State σ) : Prop :=
  Shows v.verbose s s' ∨ ∃ ykCmd r shown, (v.verbose = false → shown = [])
    ∧ s'.exchanges = s.exchanges ++ [⟨ykCmd, v.mayBlock, c.mem.take c.len, r⟩]
    ∧ ∀ response, r = some response → s'.stdout = s.stdout ++ shown
      ++ [String.ofList (responseText E v.hmac v.digits response) ++ "\n"]

theorem Quiet.refl (s : State σ) : Quiet s s := ⟨rfl, rfl⟩

theorem Quiet.trans {a b c : State σ} (h : Quiet a b) (h' : Quiet b c) : Quiet a c :=
  ⟨h'.1.trans h.1, h'.2.trans h.2⟩

theorem Quiet.shows {a b : State σ} (verbose : Bool) (h : Quiet a b) : Shows verbose a b :=
  ⟨h.1, [], fun _ => rfl, by rw [h.2, List.append_nil]⟩

theorem Shows.trans {verbose : Bool} {a b c : State σ} (h : Shows verbose a b)
    (h' : Shows verbose b c) : Shows verbose a c := by
  obtain ⟨he, l, hl, ho⟩ := h
  obtain ⟨he', l', hl', ho'⟩ := h'
  exact ⟨he'.trans he, l ++ l', fun hv => by rw [hl hv, hl' hv]; rfl,
    by rw [ho', ho, List.append_assoc]⟩

theorem Shows.exchanged {v : Vars} {c : Challenge} {a b d : State σ} (h : Shows v.verbose a b)
    (h' : Exchanged E v c b d) : Exchanged E v c a d := by
  rcases h' with h' | ⟨ykCmd, r, l', hl', he', ho'⟩
  · exact .inl (h.trans h')
  · obtain ⟨he, l, hl, ho⟩ := h
    refine .inr ⟨ykCmd, r, l ++ l', fun hv => by rw [hl hv, hl' hv]; rfl, by rw [he', he], ?_⟩
    intro response hr
    rw [ho' response hr, ho, List.append_assoc a.stdout]

theorem Exchanged.quiet {v : Vars} {c : Challenge} {a b d : State σ} (h : Exchanged E v c a b)
    (h' : Quiet b d) : Exchanged E v c a d := by
  rcases h with h | ⟨ykCmd, r, l, hl, he, ho⟩
  · exact .inl (h.trans (h'.shows v.verbose))
  · exact .inr ⟨ykCmd, r, l, hl, by rw [h'.1, he], fun response hr => by rw [h'.2, ho response hr]⟩

theorem onKey_quiet (x : Yk σ α) : Proc.Moves Quiet (onKey x) := fun _ => ⟨rfl, rfl⟩

theorem fprintf_quiet (text : String) : Proc.Moves Quiet (fprintf text : Proc (State σ) Unit) :=
  fun _ => ⟨rfl, rfl⟩

theorem quiet_leaveFrame : LeaveFrame (Alone (Proc.Moves (Quiet (σ := σ)))) :=
  .of_moves Quiet.refl (fun _ _ _ => Quiet.trans) fun _ _ => ⟨rfl, rfl⟩

theorem leave_quiet (error : Bool) : Proc.Moves Quiet (leave U error) :=
  quiet_leaveFrame.leave (V := U) (onKey_quiet _).attempt (onKey_quiet _).attempt error

theorem checkFirmware_shows (verbose : Bool) :
    Proc.Moves (Shows verbose) (checkFirmware U verbose) := by
  refine .seq (R := Quiet) (fun _ _ => Quiet.shows verbose)
    (fun _ _ _ h => (h.shows verbose).trans) (onKey_quiet _) fun st => ?_
  refine .bind (R := Shows verbose) (fun _ _ _ => Shows.trans) ?_ fun _ => ?_
  · intro s
    cases verbose with
    | false => exact (Quiet.refl s).shows false
    | true => exact ⟨rfl, _, nofun, rfl⟩
  · refine .ite ?_ (.pure (fun s => (Quiet.refl s).shows verbose) _)
    exact .bind (R := Shows verbose) (fun _ _ _ => Shows.trans)
      (fun s => (fprintf_quiet _ s).shows verbose) fun _ =>
        .fail fun s => (Quiet.refl s).shows verbose

variable {v : Vars} {c : Challenge}

/-- A call that returns is logged. -/
theorem exchange_cases (ykCmd : UInt8) (s : State σ) :
    ∃ t, Quiet s t ∧ (exchange U ykCmd v.mayBlock c s = (.fault, t)
      ∨ exchange U ykCmd v.mayBlock c s = (.diverge, t)
      ∨ ∃ r, exchange U ykCmd v.mayBlock c s
        = (match r with | some response => .ok response | none => .fail,
          { t with exchanges := t.exchanges ++ [⟨ykCmd, v.mayBlock, c.mem.take c.len, r⟩] })) := by
  have hquiet := onKey_quiet (ykChallengeResponse U.toHost ykCmd v.mayBlock (UInt32.ofNat c.len)
    c.mem (UInt32.ofNat sha1MaxBlockSize)) s
  refine ⟨_, hquiet, ?_⟩
  unfold exchange
  rcases hr : onKey (ykChallengeResponse U.toHost ykCmd v.mayBlock (UInt32.ofNat c.len)
    c.mem (UInt32.ofNat sha1MaxBlockSize)) s with ⟨response | _ | _ | _, t⟩
  · right; right
    refine ⟨some response, ?_⟩
    rw [Proc.bind_ok (Proc.attempt_ok hr)]
    rfl
  · right; right
    refine ⟨none, ?_⟩
    rw [Proc.bind_ok (Proc.attempt_fail hr)]
    rfl
  · exact .inl (Proc.bind_fault (Proc.attempt_fault hr))
  · exact .inr (.inl (Proc.bind_diverge (Proc.attempt_diverge hr)))

theorem exchange_printed (ykCmd : UInt8) : Proc.Moves (Exchanged E v c) (do
    let response ← exchange U ykCmd v.mayBlock c
    printf (String.ofList (responseText E v.hmac v.digits response) ++ "\n")) := by
  intro s
  obtain ⟨t, hquiet, h | h | ⟨_ | response, h⟩⟩ := exchange_cases U (v := v) (c := c) ykCmd s
  · rw [Proc.bind_fault h]
    exact .inl (hquiet.shows v.verbose)
  · rw [Proc.bind_diverge h]
    exact .inl (hquiet.shows v.verbose)
  · rw [Proc.bind_fail h]
    exact .inr ⟨ykCmd, none, [], fun _ => rfl, by rw [← hquiet.1], nofun⟩
  · rw [Proc.bind_ok h]
    refine .inr ⟨ykCmd, some response, [], fun _ => rfl, by rw [← hquiet.1]; rfl, ?_⟩
    intro r hr
    rw [← Option.some.inj hr, List.append_nil, ← hquiet.2]
    rfl

theorem challengeResponse_exchanged :
    Proc.Moves (Exchanged E v c) (challengeResponse U E v c) := by
  unfold challengeResponse
  refine .seq (R := Quiet) (P := Exchanged E v c) (fun _ _ h => .inl (h.shows v.verbose))
    (fun _ _ _ h => (h.shows v.verbose).exchanged E) ?_ fun _ => ?_
  · exact .ite (fprintf_quiet _) (.pure Quiet.refl _)
  · cases slotCommand v.slot v.hmac with
    | none => exact fun s => .inl ((Quiet.refl s).shows v.verbose)
    | some ykCmd => exact exchange_printed U E ykCmd

theorem session_exchanged : Proc.Moves (Exchanged E v c) (session U E v c) := by
  have hshows : ∀ {x : Yk σ Unit}, Proc.Moves (Shows v.verbose) (onKey x) :=
    fun {x} s => (onKey_quiet x s).shows v.verbose
  have hrest : ∀ {x : Proc (State σ) Unit} {f : Unit → Proc (State σ) Unit},
      Proc.Moves (Shows v.verbose) x → (∀ a, Proc.Moves (Exchanged E v c) (f a)) →
        Proc.Moves (Exchanged E v c) (x >>= f) :=
    .seq (fun _ _ => .inl) fun _ _ _ h => h.exchanged E
  unfold session
  refine hrest hshows fun _ => hrest hshows fun _ => hrest ?_ fun _ => hrest ?_ fun _ => ?_
  · exact fun s => Quiet.shows v.verbose ⟨rfl, rfl⟩
  · exact checkFirmware_shows U v.verbose
  · exact challengeResponse_exchanged U E

/-- Nothing behind the label `err` prints, or sends a challenge. -/
theorem ykchalresp_exchanged {argv : List (List Char)} (h : parseArgs E argv = .ok (v, c)) :
    Proc.Moves (Exchanged E v c) (ykchalresp U E argv) := by
  unfold ykchalresp
  rw [h]
  exact .seq (R := Exchanged E v c) (Q := Quiet) (fun _ _ => id)
    (fun _ _ _ => Exchanged.quiet E) (session_exchanged U E).attempt fun r => leave_quiet U r.isNone

end Run

/-! ## A key that stops answering -/

section Unread

open ScriptedMain ScriptedKey

/-- A key that gives its status to who opens it and to `check_firmware`. -/
def silentKey : ScriptedKey := ⟨[], [keyReport 1 0, keyReport 1 0]⟩

variable {v : Vars} {c : Challenge} {E : Env}

theorem ykWriteToKey_silent {endian : Endian} {crc16 : List UInt8 → UInt16} (slot : UInt8)
    {w : World ScriptedKey} (hw : w.dev.replies = []) (hlen : c.len ≤ slotDataSize)
    (hmem : c.len ≤ c.mem.length) :
    ∃ w', ykWriteToKey (ScriptedKey.host endian crc16) slot c.mem (Int32.ofNat c.len) w
      = (.fail, w') := by
  have hread : (ScriptedKey.host endian crc16).ykusbRead w.dev
      = (.error (some .ENODATA), w.dev) := by
    simp [ScriptedKey.host, backend, hw]
  have hfirst : ∀ frame : List UInt8, Buffer.kept 0 7 10 frame 0 = true := fun frame => by
    simp [Buffer.kept]
  rw [ykWriteToKey_eq slot hlen hmem]
  have hwait : ∃ w', ykWaitForKeyStatus (ScriptedKey.host endian crc16) slot 0 waitForWriteFlag
      false slotWriteFlag w = (.fail, w') := ⟨_, waitLoop_noRead (by decide) hread⟩
  obtain ⟨w', hwait⟩ := hwait
  exact ⟨w', (congrFun (sendParts_keep slot _ rfl (hfirst _)) w).trans (Proc.bind_fail hwait)⟩

theorem exchange_silent {ykCmd : UInt8} {n : UInt32} (hcmd : chalRespBytes ykCmd = some n)
    {s : State ScriptedKey} (hs : s.world.dev.replies = []) (hlen : c.len ≤ slotDataSize)
    (hmem : c.len ≤ c.mem.length) :
    ∃ s', exchange usb ykCmd v.mayBlock c s = (.fail, s')
      ∧ s'.exchanges = s.exchanges ++ [⟨ykCmd, v.mayBlock, c.mem.take c.len, none⟩] := by
  obtain ⟨w', hw'⟩ : ∃ w', ykWriteToKey usb.toHost ykCmd c.mem (Int32.ofNat c.len) s.world
      = (.fail, w') := ykWriteToKey_silent ykCmd hs hlen hmem
  have hsize : (UInt32.ofNat c.len).toNat = c.len := by
    rw [UInt32.toNat_ofNat']
    exact Nat.mod_eq_of_lt (Nat.lt_of_le_of_lt hlen (by decide))
  have hcall : onKey (ykChallengeResponse usb.toHost ykCmd v.mayBlock (UInt32.ofNat c.len) c.mem
      (UInt32.ofNat sha1MaxBlockSize)) s = (.fail, { s with world := w' }) := by
    have h : ykChallengeResponse usb.toHost ykCmd v.mayBlock (UInt32.ofNat c.len) c.mem
        (UInt32.ofNat sha1MaxBlockSize) s.world = (.fail, w') := by
      simp only [ykChallengeResponse, hcmd, hsize]
      exact Proc.bind_fail hw'
    rw [onKey, Proc.zoom_run, h]
  refine ⟨_, Proc.bind_ok (Proc.attempt_fail hcall), ?_⟩
  rfl

theorem chalRespBytes_slotCommand (hslot : v.slot = 1 ∨ v.slot = 2) :
    ∃ ykCmd n, slotCommand v.slot v.hmac = some ykCmd ∧ chalRespBytes ykCmd = some n := by
  rcases hslot with h | h <;> rw [h] <;> cases v.hmac <;> exact ⟨_, _, rfl, rfl⟩

/-- The key is sent the challenge, though it does not respond. -/
theorem ykchalresp_silent {argv : List (List Char)} (h : parseArgs E argv = .ok (v, c))
    (hslot : v.slot = 1 ∨ v.slot = 2) (hlen : c.len ≤ slotDataSize)
    (hmem : c.len ≤ c.mem.length) :
    ∃ ykCmd, (ykchalresp usb E argv (.start silentKey)).2.exchanges
      = [⟨ykCmd, v.mayBlock, c.mem.take c.len, none⟩] := by
  obtain ⟨ykCmd, n, hcmd, hn⟩ := chalRespBytes_slotCommand hslot
  refine ⟨ykCmd, ?_⟩
  have hsession : ∃ s', session usb E v c (.start silentKey) = (.fail, s')
      ∧ s'.exchanges = [⟨ykCmd, v.mayBlock, c.mem.take c.len, none⟩] := by
    have hopen : onKey (ykOpenKey usb v.keyIndex) (State.start silentKey) = (.ok ⟨⟩,
        { State.start silentKey with world := ⟨⟨[], [keyReport 1 0]⟩, none,
          [.read (some (keyReport 1 0))]⟩ }) := rfl
    have hfirmware : ∃ s₁, checkFirmware usb v.verbose { State.start silentKey with
        world := ⟨⟨[], [keyReport 1 0]⟩, none, [.read (some (keyReport 1 0))]⟩,
        keyOpen := true } = (.ok ⟨⟩, s₁) ∧ s₁.world.dev.replies = [] ∧ s₁.exchanges = [] := by
      cases v.verbose <;> exact ⟨_, rfl, rfl, rfl⟩
    obtain ⟨s₁, hfirmware, hreplies, hnone⟩ := hfirmware
    have hannounce : ∃ s₂, (onlyIf v.verbose (fprintf ("Sending " ++ toString c.len ++ " bytes " ++
        (if v.hmac then "HMAC" else "Yubico") ++ " challenge to slot " ++ toString v.slot ++ "\n")))
          s₁ = (.ok ⟨⟩, s₂) ∧ s₂.world = s₁.world ∧ s₂.exchanges = s₁.exchanges := by
      cases v.verbose <;> exact ⟨_, rfl, rfl, rfl⟩
    obtain ⟨s₂, hannounce, hworld, he₂⟩ := hannounce
    obtain ⟨s', hsent, he⟩ := exchange_silent (v := v) hn (by rw [hworld, hreplies]) hlen hmem
    refine ⟨s', ?_, by rw [he, he₂, hnone, List.nil_append]⟩
    refine (Proc.bind_ok rfl).trans ((Proc.bind_ok hopen).trans ((Proc.bind_ok rfl).trans
      ((Proc.bind_ok hfirmware).trans ((Proc.bind_ok hannounce).trans ?_))))
    rw [hcmd]
    exact Proc.bind_fail hsent
  obtain ⟨s', hs', he⟩ := hsession
  have hrun : ykchalresp usb E argv (.start silentKey) = leave usb true s' := by
    rw [ykchalresp, h]
    exact Proc.bind_ok (Proc.attempt_fail hs')
  rw [hrun, (leave_quiet usb true s').1, he]

end Unread

/-! ## Time-based codes -/

/-- What `-t` is to send and to print: the number of half minutes, and the code of `d` digits of the
response. -/
def SendsTime (E : Env) (argv : List (List Char)) (time : ℕ) : Prop :=
  ∀ (σ : Type) (U : Usb σ) (dev : σ), let s := (ykchalresp U E argv (.start dev)).2
    ∀ e ∈ s.exchanges, e.challenge = bigEndian 8 (time / 30)
      ∧ ∀ d, (d = 6 ∨ d = 8) → lastFlag ['6', '8'] (options argv) = some (Nat.digitChar d) →
        ∀ response rest : List UInt8, response.length = 20 → e.response = some (response ++ rest) →
          ∃ shown text, (lastFlag ['v'] (options argv) = none → shown = [])
            ∧ s.stdout = shown ++ [String.ofList text ++ "\n"]
            ∧ text.length = d ∧ (∀ c ∈ text, c.isDigit)
            ∧ Decimal.value text = dynamicTruncation response % 10 ^ d

/-- With `-t`, what is sent and printed is the time's, unless `-x` is among the options. -/
theorem ykchalresp_sendsTime_iff (E : Env) {time : ℕ} (htime : time < 2 ^ 31)
    (hnow : E.time = time) {argv : List (List Char)} {v : Vars} {c : Challenge}
    (hargs : parseArgs E argv = .ok (v, c))
    (htotp : lastFlag ['t', 'Y'] (options argv) = some 't') :
    SendsTime E argv time ↔ .flag 'x' ∉ options argv := by
  obtain ⟨hreads, -⟩ := parseArgs_ok hargs
  obtain ⟨hplain, hhex⟩ := parseArgs_totp htime hnow hargs htotp
  constructor
  · intro hsends hx
    have hc := hhex hx
    have hmem : c.mem.length = sha1MaxBlockSize ∧ c.len = 4 := by
      rw [hc]
      exact ⟨Vector.length_toList, rfl⟩
    obtain ⟨hmem, hlen⟩ := hmem
    obtain ⟨ykCmd, he⟩ := ykchalresp_silent hargs hreads.slot (by rw [hlen]; decide)
      (by rw [hlen, hmem]; decide)
    have hchal := (hsends _ ScriptedMain.usb silentKey _ (by rw [he]; exact List.mem_cons_self)).1
    -- four bytes are not eight
    have hfour := congrArg List.length hchal
    rw [List.length_take, hmem, hlen, bigEndian, List.length_map, List.length_reverse,
      List.length_range] at hfour
    exact absurd hfour (by decide)
  · intro hx σ U dev s e he
    have hc := hplain hx
    have hhmac := hreads.hmac (hreads.totp.2 htotp)
    rcases ykchalresp_exchanged U E hargs (.start dev) with
      ⟨hnone, -⟩ | ⟨ykCmd, r, shown, hshown, hexch, hout⟩
    · rw [hnone] at he
      exact absurd he List.not_mem_nil
    rw [hexch] at he
    obtain rfl := List.mem_singleton.1 he
    refine ⟨by rw [hc]; rfl, fun d hd hdigits response rest hlen hresponse => ?_⟩
    have hdig : v.digits = d := by
      rcases hd with rfl | rfl
      · exact hreads.six hdigits
      · exact hreads.eight hdigits
    refine ⟨shown, responseText E true d (response ++ rest),
      fun hv => hshown (hreads.verbose hv), ?_, responseText_digits E hd hlen⟩
    rw [hout _ hresponse, hhmac, hdig]
    rfl

def testEnv (time : ℤ) : Env where
  time := time
  fopen _ := none
  stdin := []
  yubikeyHexP := ScriptedHost.accepts ScriptedHost.hexAlphabet
  yubikeyHexDecode := ScriptedHost.decode ScriptedHost.hexAlphabet
  encoders := ScriptedJson.libyubikey
  ykpersVersionString := "1.19.4"

def commandLine (args : List String) : List (List Char) := args.map String.toList

theorem scan_six : Getopt.scan optstring (.start (commandLine ["ykchalresp", "-t", "-6"]))
    = ([.flag 't', .flag '6'], ⟨commandLine ["ykchalresp", "-t", "-6"], 3, []⟩) := by
  rw [Getopt.scan_of_some (o := .flag 't') rfl, Getopt.scan_of_some (o := .flag '6') rfl,
    Getopt.scan_of_none rfl]
  rfl

theorem ykchalresp_sendsTime_six :
    SendsTime (testEnv 59) (commandLine ["ykchalresp", "-t", "-6"]) 59 := by
  have hopts : options (commandLine ["ykchalresp", "-t", "-6"]) = [.flag 't', .flag '6'] := by
    rw [options, scan_six]
  have hargs : parseArgs (testEnv 59) (commandLine ["ykchalresp", "-t", "-6"])
      = .ok ({ Vars.start with totp := true, digits := 6 }, totpChallenge 59) := by
    rw [parseArgs, hopts, scan_six]
    rfl
  exact (ykchalresp_sendsTime_iff (testEnv 59) (by decide) rfl hargs (by rw [hopts]; decide)).2
    (by rw [hopts]; decide)

theorem scan_hex : Getopt.scan optstring (.start (commandLine ["ykchalresp", "-t", "-6", "-x"]))
    = ([.flag 't', .flag '6', .flag 'x'],
        ⟨commandLine ["ykchalresp", "-t", "-6", "-x"], 4, []⟩) := by
  rw [Getopt.scan_of_some (o := .flag 't') rfl, Getopt.scan_of_some (o := .flag '6') rfl,
    Getopt.scan_of_some (o := .flag 'x') rfl, Getopt.scan_of_none rfl]
  rfl

/-- With `-x`, the challenge of every half minute is four NUL bytes. -/
theorem ykchalresp_hex_challenge :
    lastFlag ['t', 'Y'] (options (commandLine ["ykchalresp", "-t", "-6", "-x"])) = some 't'
      ∧ (ykchalresp ScriptedMain.usb (testEnv 59) (commandLine ["ykchalresp", "-t", "-6", "-x"])
        (.start silentKey)).2.exchanges.map Exchange.challenge = [[0, 0, 0, 0]]
      ∧ ¬ SendsTime (testEnv 59) (commandLine ["ykchalresp", "-t", "-6", "-x"]) 59 := by
  have hargs : parseArgs (testEnv 59) (commandLine ["ykchalresp", "-t", "-6", "-x"])
      = .ok ({ Vars.start with totp := true, digits := 6, hexEncoded := true },
          ⟨List.replicate 64 0, 4⟩) := by
    rw [parseArgs, options, scan_hex]
    rfl
  obtain ⟨ykCmd, he⟩ := ykchalresp_silent hargs (.inl rfl) (by decide) (by decide)
  have hzero : (ykchalresp ScriptedMain.usb (testEnv 59)
      (commandLine ["ykchalresp", "-t", "-6", "-x"]) (.start silentKey)).2.exchanges.map
        Exchange.challenge = [[0, 0, 0, 0]] := by
    rw [he]
    rfl
  refine ⟨by rw [options, scan_hex]; decide, hzero, fun hsends => ?_⟩
  have hchal := (hsends _ ScriptedMain.usb silentKey _ (by rw [he]; exact List.mem_cons_self)).1
  have hne : (List.replicate 64 (0 : UInt8)).take 4 ≠ bigEndian 8 (59 / 30) := by decide
  exact hne hchal

end Ykchalresp

end YkPers
