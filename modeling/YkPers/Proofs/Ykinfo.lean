import YkPers.Lib.Hex
import YkPers.Proofs.HexModhex
import YkPers.Proofs.LegacyExport
import YkPers.Proofs.Response
import YkPers.Proofs.Ykchalresp
import YkPers.Ykinfo

/-!
# A serial number in three notations

`yk_get_serial` puts together the first four bytes of the response. The digits in base 16 are filled
up to whole bytes, which are read and written again in the other alphabet, so that both texts denote
the number. The decimal form is that of a signed number: it is right up to `2 ^ 31`.
-/

namespace YkPers

namespace Ykinfo

open Hex (Alphabet)
open Proc (Alone modify attempt)
open Ykchalresp (State bigEndianValue onlyIf)

/-! ## The options -/

/-- Whether the letter `c` or `-a`, which stands for all but `-c` and `-q`, is among the options. -/
def asks (opts : List Getopt.Scanned) (c : Char) : Bool :=
  opts.any fun o => o = .flag c || o = .flag 'a'

/-- What the variables hold behind the options. -/
structure Reads (opts : List Getopt.Scanned) (v : Vars) : Prop where
  serialDec : v.serialDec = asks opts 's'
  serialHex : v.serialHex = asks opts 'H'
  serialModhex : v.serialModhex = asks opts 'm'
  quiet : v.quiet = opts.any (· = .flag 'q')

section Parse

variable {E : Env} {argv : List (List Char)} {v v' : Vars}

theorem Reads.parseOption {opts : List Getopt.Scanned} {o : Getopt.Scanned} (h : Reads opts v)
    (ho : parseOption E v o = .ok v') : Reads (opts ++ [o]) v' := by
  obtain ⟨hdec, hhex, hmodhex, hquiet⟩ := h
  unfold Ykinfo.parseOption at ho
  split at ho
  -- an option that ends the program returns no variables
  all_goals cases ho <;> constructor <;> simp_all [asks]

theorem parseArgs_reads (h : parseArgs E argv = .ok v) : Reads (options argv) v := by
  obtain ⟨u, hu, h⟩ := Getopt.except_bind_eq_ok.1 h
  split_ifs at h
  obtain rfl := Except.ok.inj h
  exact Getopt.foldlM_ok ⟨rfl, rfl, rfl, rfl⟩ Reads.parseOption hu

end Parse

/-! ## The serial number -/

section Serial

variable {σ : Type} {H : Host σ} {slot : UInt8} {flags : UInt32} {w w' : World σ}

/-- The key answers the command for its serial number: the call is sent, and a whole response is
read that starts with `bytes`. -/
def Answers (H : Host σ) (slot : UInt8) (flags : UInt32) (bytes : List UInt8) (w w' : World σ) :
    Prop :=
  ∃ w₁ buf bytesRead, ykWriteToKey H slotDeviceSerial (List.replicate 16 0) 0 w = (.ok (), w₁)
    ∧ Accepted H slot flags 16 4 w₁ buf bytesRead w' ∧ buf.take 4 = bytes

theorem toNat_of_sum (b₀ b₁ b₂ b₃ : UInt8) :
    ((b₀.toUInt32 <<< 24) + (b₁.toUInt32 <<< 16) + (b₂.toUInt32 <<< 8) + b₃.toUInt32).toNat
      = bigEndianValue [b₀, b₁, b₂, b₃] := by
  have h0 := b₀.toNat_lt
  have h1 := b₁.toNat_lt
  have h2 := b₂.toNat_lt
  have h3 := b₃.toNat_lt
  simp only [UInt32.toNat_add, UInt32.toNat_shiftLeft, UInt8.toNat_toUInt32, UInt32.toNat_ofNat,
    Nat.reducePow, Nat.reduceMod, Nat.shiftLeft_eq, bigEndianValue, List.foldl_cons,
    List.foldl_nil]
  omega

theorem Answers.ykGetSerial {b₀ b₁ b₂ b₃ : UInt8}
    (h : Answers H slot flags [b₀, b₁, b₂, b₃] w w') :
    ∃ serial, YkPers.ykGetSerial H slot flags w = (.ok serial, w')
      ∧ serial.toNat = bigEndianValue [b₀, b₁, b₂, b₃] := by
  obtain ⟨w₁, buf, bytesRead, hwrite, hread, hbytes⟩ := h
  have hbuf : buf = b₀ :: b₁ :: b₂ :: b₃ :: buf.drop 4 := by
    rw [← List.take_append_drop 4 buf, hbytes]
    simp
  refine ⟨_, (Proc.bind_ok hwrite).trans (Proc.bind_ok hread.run), ?_⟩
  rw [hbuf]
  exact toNat_of_sum b₀ b₁ b₂ b₃

theorem bigEndianValue_lt {b₀ b₁ b₂ b₃ : UInt8} :
    bigEndianValue [b₀, b₁, b₂, b₃] < 2 ^ 31 ↔ b₀ < 0x80 := by
  have h1 := b₁.toNat_lt
  have h2 := b₂.toNat_lt
  have h3 := b₃.toNat_lt
  have h80 : (0x80 : UInt8).toNat = 128 := rfl
  simp only [bigEndianValue, List.foldl_cons, List.foldl_nil, UInt8.lt_iff_toNat_lt, h80]
  omega

end Serial

/-! ## The texts -/

section Texts

variable {E : Env}

/-- The decoder reads what is written in hexadecimal digits. -/
structure Env.Documented (E : Env) : Prop where
  hexDecode : ∀ bs n, bs.length ≤ n →
    (E.yubikeyHexDecode (Alphabet.hex.encode bs) n).toList.take bs.length = bs
  encoders : E.encoders.Documented

/-- The digits, with a zero in front where their number is odd. -/
def hexText (n : ℕ) : List Char :=
  if (Nat.toDigits 16 n).length % 2 = 1 then '0' :: Nat.toDigits 16 n else Nat.toDigits 16 n

theorem hexText_cases (n : ℕ) :
    hexText n = Nat.toDigits 16 n ∨ hexText n = '0' :: Nat.toDigits 16 n := by
  unfold hexText
  split_ifs
  · exact .inr rfl
  · exact .inl rfl

theorem length_hexText (n : ℕ) : (hexText n).length % 2 = 0 := by
  unfold hexText
  split_ifs with h
  · rw [List.length_cons]
    omega
  · omega

theorem denotes_hexText (n : ℕ) : Alphabet.hex.Denotes (hexText n) n := by
  rcases hexText_cases n with h | h <;> rw [h]
  · exact Hex.denotes_toDigits n
  · exact (Hex.denotes_toDigits n).zero_cons

theorem nul_notMem_toDigits (n : ℕ) : CString.nul ∉ Nat.toDigits 16 n := fun h =>
  absurd (Hex.mem_toDigits n h) (by decide)

/-- The pointer is at the first digit, or at the zero that is stored before it. -/
theorem read_serialPtr (E : Env) (serial : UInt32) :
    CString.read (serialPtr E serial) = some (hexText serial.toNat) := by
  have hlen : (Nat.toDigits 16 serial.toNat).length ≤ 8 :=
    (Nat.length_toDigits_le_iff (by decide) (by decide)).2 serial.toNat_lt
  obtain ⟨c, rest, hbuf⟩ := List.exists_cons_of_length_pos
    (show 0 < E.buf.toList.length by rw [Vector.length_toList]; decide)
  have hprinted : CString.snprintf E.buf.toList 1 63 (Nat.toDigits 16 serial.toNat)
      = c :: (Nat.toDigits 16 serial.toNat
        ++ CString.nul :: rest.drop ((Nat.toDigits 16 serial.toNat).length + 1)) := by
    rw [hbuf]
    exact CString.snprintf_append [c] rest (by omega)
  have hnul := nul_notMem_toDigits serial.toNat
  simp only [serialPtr, hprinted, hexText]
  split_ifs
  · rw [List.set_cons_zero, ← List.cons_append]
    exact CString.read_append (by simpa using ⟨by decide, hnul⟩) _
  · rw [List.drop_one, List.tail_cons]
    exact CString.read_append hnul _

/-- The digits are whole bytes. -/
theorem serialModhexText_hexText (hE : E.Documented) (n : ℕ) :
    serialModhexText E (hexText n) = (hexText n).map (Alphabet.hex.translate .modhex) := by
  obtain ⟨bs, hbs⟩ := Alphabet.exists_encode_iff.2 ⟨length_hexText n, (denotes_hexText n).digits⟩
  have hlen : (hexText n).length = 2 * bs.length := by rw [← hbs, Alphabet.length_encode]
  have hdecode := hE.hexDecode bs (hexText n).length (by omega)
  rw [hbs] at hdecode
  rw [serialModhexText, hE.encoders.modhex, show (hexText n).length / 2 = bs.length by omega,
    hdecode, ← hbs, Alphabet.map_translate_encode]

theorem toInt_toInt32 (serial : UInt32) :
    serial.toInt32.toInt = serial.toNat ↔ serial.toNat < 2 ^ 31 := by
  have hlt := serial.toNat_lt
  have hcond : serial.toInt32.toInt = if 2 * serial.toNat < 2 ^ 32 then (serial.toNat : ℤ)
      else (serial.toNat : ℤ) - (2 ^ 32 : ℕ) := BitVec.toInt_eq_toNat_cond serial.toBitVec
  rw [hcond]
  split_ifs <;> omega

end Texts

/-! ## The run -/

section Run

variable {σ α : Type} {E : Env} {v : Vars}

/-- The output of a line that is `shown`. -/
def line (shown quiet : Bool) (name : String) (text : List Char) : List String :=
  if shown then (if quiet then [] else [name]) ++ [String.ofList text ++ "\n"] else []

/-- The output for a serial number, from its three texts. -/
def serialLines (v : Vars) (dec hex modhex : List Char) : List String :=
  line v.serialDec v.quiet "serial: " dec ++ line v.serialHex v.quiet "serial_hex: " hex
    ++ line v.serialModhex v.quiet "serial_modhex: " modhex

/-- What is printed of a serial number. -/
def printedSerial (v : Vars) (serial : UInt32) : List String :=
  serialLines v (serialText serial) (hexText serial.toNat)
    ((hexText serial.toNat).map (Alphabet.hex.translate .modhex))

theorem printLine_run (shown quiet : Bool) (name : String) (text : List Char) (s : State σ) :
    onlyIf shown (printLine quiet name text) s
      = (.ok ⟨⟩, { s with stdout := s.stdout ++ line shown quiet name text }) := by
  cases shown with
  | false => simp [onlyIf, line]
  | true => cases quiet <;> simp [onlyIf, line, printLine, Ykchalresp.printf]

theorem printSerial_run (hE : E.Documented) (v : Vars) (serial : UInt32) (s : State σ) :
    printSerial E v serial s
      = (.ok ⟨⟩, { s with stdout := s.stdout ++ printedSerial v serial }) := by
  rw [printSerial, Proc.bind_ok (printLine_run _ _ _ _ s)]
  by_cases hany : (v.serialModhex || v.serialHex) = true
  · rw [onlyIf, if_pos hany, read_serialPtr]
    dsimp only
    rw [serialModhexText_hexText hE, Proc.bind_ok (printLine_run _ _ _ _ _), printLine_run]
    simp only [printedSerial, serialLines, List.append_assoc]
  · rw [onlyIf, if_neg hany]
    rw [Bool.or_eq_true, not_or, Bool.not_eq_true, Bool.not_eq_true] at hany
    simp [printedSerial, serialLines, line, hany.1, hany.2]

/-- What was printed stays. -/
def Adds (s s' : State σ) : Prop := s.stdout <+: s'.stdout

theorem Adds.refl (s : State σ) : Adds s s := List.prefix_refl _

theorem Adds.trans (a b c : State σ) (h : Adds a b) (h' : Adds b c) : Adds a c :=
  List.IsPrefix.trans h h'

theorem adds_of_quiet {x : Proc (State σ) α} (h : Proc.Moves Ykchalresp.Quiet x) :
    Proc.Moves Adds x := fun s => ⟨[], by rw [List.append_nil, (h s).2]⟩

theorem onKey_adds (x : Yk σ α) : Proc.Moves Adds (Ykchalresp.onKey x) :=
  adds_of_quiet (Ykchalresp.onKey_quiet x)

theorem adds_printFrame : PrintFrame (Alone (Proc.Moves (Adds (σ := σ)))) :=
  .of_moves Adds.refl Adds.trans fun _ _ => List.prefix_append _ _

section Main

variable (U : UsbIds σ)

theorem showSerial_run (hE : E.Documented) {serial : UInt32} {s : State σ} {w : World σ}
    (h : YkPers.ykGetSerial U.toHost 1 0 s.world = (.ok serial, w)) :
    ∃ w', showSerial U E v s
      = (.ok ⟨⟩, { s with world := w', stdout := s.stdout ++ printedSerial v serial }) := by
  by_cases hany : (v.serialDec || v.serialModhex || v.serialHex) = true
  · have hread : Ykchalresp.onKey (YkPers.ykGetSerial U.toHost 1 0) s
        = (.ok serial, { s with world := w }) := by
      rw [Ykchalresp.onKey, Proc.zoom_run, h]
    refine ⟨w, ?_⟩
    rw [showSerial, onlyIf, if_pos hany, Proc.bind_ok hread, printSerial_run hE]
  · refine ⟨s.world, ?_⟩
    rw [showSerial, onlyIf, if_neg hany]
    simp only [Bool.or_eq_true, not_or, Bool.not_eq_true] at hany
    simp [printedSerial, serialLines, line, hany.1.1, hany.1.2, hany.2]

/-- The serial number is printed first, and nothing that follows takes it back. -/
theorem ykinfo_prints (hE : E.Documented) {argv : List (List Char)}
    (hargs : parseArgs E argv = .ok v) {dev : σ} {w w' : World σ}
    (hopen : openKey U v.keyIndex ⟨dev, none, []⟩ = (.ok ⟨⟩, w)) {serial : UInt32}
    (hser : YkPers.ykGetSerial U.toHost 1 0 w = (.ok serial, w')) :
    printedSerial v serial <+: (ykinfo U E argv (.start dev)).2.stdout := by
  have hopened : Ykchalresp.onKey (openKey U v.keyIndex) (State.start dev)
      = (.ok ⟨⟩, { State.start dev with world := w }) := by
    rw [Ykchalresp.onKey, Proc.zoom_run, show (State.start dev).world = ⟨dev, none, []⟩ from rfl,
      hopen]
  obtain ⟨w₂, hshown⟩ := showSerial_run (v := v) U hE
    (s := { State.start dev with world := w, keyOpen := true }) hser
  have hrest : Proc.Moves Adds (do showStatus U v; showIds U v; showCapabilities U v) :=
    adds_printFrame.bind (adds_printFrame.showStatus (V := U) v (onKey_adds _)) fun _ =>
      adds_printFrame.bind (adds_printFrame.showIds (V := U) v (onKey_adds _)) fun _ =>
        adds_printFrame.showCapabilities (V := U) v (onKey_adds _)
  have hsession : printedSerial v serial <+: (attempt (session U E v) (.start dev)).2.stdout := by
    rw [Proc.attempt_state, session, Proc.bind_ok hopened, Proc.modify_bind_run,
      Proc.bind_ok hshown]
    exact hrest { State.start dev with
      world := w₂, keyOpen := true, stdout := printedSerial v serial }
  rw [ykinfo, hargs]
  refine Proc.bind_state (P := fun s : State σ => printedSerial v serial <+: s.stdout)
    (fun r t ht => ?_) fun _ => hsession
  rw [ht] at hsession
  exact hsession.trans (adds_of_quiet (Ykchalresp.leave_quiet U.toUsb r.isNone) t)

end Main

end Run

/-! ## Three notations -/

/-- The three texts of the number `n`. The hexadecimal one is of whole bytes, and a zero is all that
it may have in front of the digits. -/
structure Renderings (n : ℕ) (dec hex modhex : List Char) : Prop where
  decDenotes : Decimal.Denotes dec n
  hexDenotes : Alphabet.hex.Denotes hex n
  modhexDenotes : Alphabet.modhex.Denotes modhex n
  even : hex.length % 2 = 0
  digits : hex = Nat.toDigits 16 n ∨ hex = '0' :: Nat.toDigits 16 n
  translated : modhex = hex.map (Alphabet.hex.translate .modhex)

/-- The bytes that the key answers are one number: it is what `yk_get_serial` stores, and what the
texts denote that the options ask for. -/
structure SerialsAgree {σ : Type} (U : UsbIds σ) (opts : List Getopt.Scanned) (v : Vars)
    (bytes : List UInt8) (stdout : List String) : Prop where
  asked : Reads opts v
  read : ∀ slot flags w w', Answers U.toHost slot flags bytes w w' →
    ∃ serial, YkPers.ykGetSerial U.toHost slot flags w = (.ok serial, w')
      ∧ serial.toNat = bigEndianValue bytes
  shown : ∃ dec hex modhex, Renderings (bigEndianValue bytes) dec hex modhex
    ∧ serialLines v dec hex modhex <+: stdout

theorem renderings (n : ℕ) : Renderings n (Decimal.ofInt n) (hexText n)
    ((hexText n).map (Alphabet.hex.translate .modhex)) where
  decDenotes := Decimal.denotes_ofInt n
  hexDenotes := denotes_hexText n
  modhexDenotes := (denotes_hexText n).translate
  even := length_hexText n
  digits := hexText_cases n
  translated := rfl

/-- The first line can be read off the output. -/
theorem serialLines_dec {v : Vars} (hdec : v.serialDec = true)
    {dec hex modhex dec' hex' modhex' : List Char} {stdout : List String}
    (h : serialLines v dec hex modhex <+: stdout)
    (h' : serialLines v dec' hex' modhex' <+: stdout) : dec = dec' := by
  obtain ⟨rest, h⟩ := h
  obtain ⟨rest', h'⟩ := h'
  have hline : String.ofList dec = String.ofList dec' := by
    have heq := h.trans h'.symm
    cases hq : v.quiet <;> simp [serialLines, line, hdec, hq] at heq <;> exact heq.1
  have hchars := congrArg String.toList hline
  rwa [String.toList_ofList, String.toList_ofList] at hchars

/-- A number below `2 ^ 31` has no sign bit. -/
theorem shown_iff {v : Vars} {serial : UInt32} {stdout : List String}
    (h : printedSerial v serial <+: stdout) :
    (∃ dec hex modhex, Renderings serial.toNat dec hex modhex
      ∧ serialLines v dec hex modhex <+: stdout)
      ↔ (v.serialDec = true → serial.toNat < 2 ^ 31) := by
  constructor
  · rintro ⟨dec, hex, modhex, hr, hshown⟩ hdec
    obtain rfl := serialLines_dec hdec hshown h
    exact (toInt_toInt32 serial).1 ((Decimal.denotes_ofInt _).unique hr.decDenotes)
  · intro hlt
    have htext : v.serialDec = true → serialText serial = Decimal.ofInt serial.toNat := fun hdec =>
      congrArg Decimal.ofInt ((toInt_toInt32 serial).2 (hlt hdec))
    refine ⟨_, _, _, renderings serial.toNat, ?_⟩
    cases hdec : v.serialDec with
    | false =>
      simpa only [printedSerial, serialLines, line, hdec, Bool.false_eq_true, if_false] using h
    | true => rwa [← htext hdec]

/-- The three notations agree if and only if the number is shown in decimal only without its sign
bit. -/
theorem ykinfo_serialsAgree_iff {σ : Type} {U : UsbIds σ} {E : Env} (hE : E.Documented)
    {argv : List (List Char)} {v : Vars} (hargs : parseArgs E argv = .ok v) {dev : σ}
    {w w' : World σ} (hopen : openKey U v.keyIndex ⟨dev, none, []⟩ = (.ok ⟨⟩, w))
    {b₀ b₁ b₂ b₃ : UInt8} (hkey : Answers U.toHost 1 0 [b₀, b₁, b₂, b₃] w w') :
    SerialsAgree U (options argv) v [b₀, b₁, b₂, b₃] (ykinfo U E argv (.start dev)).2.stdout
      ↔ (asks (options argv) 's' = true → b₀ < 0x80) := by
  have hreads := parseArgs_reads hargs
  obtain ⟨serial, hser, hnumber⟩ := hkey.ykGetSerial
  have hshown := shown_iff (ykinfo_prints U hE hargs hopen hser)
  rw [hnumber, bigEndianValue_lt, hreads.serialDec] at hshown
  rw [← hshown]
  exact ⟨SerialsAgree.shown, fun h => ⟨hreads, fun _ _ _ _ => Answers.ykGetSerial, h⟩⟩

/-! ## Keys that answer -/

section Runs

open ScriptedKey (keyReport statusReport)

def usbIds : UsbIds ScriptedKey :=
  { ScriptedMain.usb with ykusbGetVidPid := fun k => (.ok (0x1050, 0x10), k) }

/-- A key that gives its status, is ready for the two parts of the command, and responds. -/
def answering (bytes : List UInt8) : ScriptedKey :=
  ⟨[], keyReport 1 0 :: statusReport 0 :: statusReport 0 ::
    (responseReports bytes ++ [statusReport 0x40])⟩

theorem ykWriteToKey_ready (frame : List UInt8) (replies : List Report) (e : Option YkErr)
    (t : List Event) :
    ∃ w, ykWriteToKey usbIds.toHost slotDeviceSerial (List.replicate 16 0) 0
        ⟨⟨frame, statusReport 0 :: statusReport 0 :: replies⟩, e, t⟩ = (.ok (), w)
      ∧ w.dev.replies = replies := ⟨_, rfl, rfl⟩

/-- Any four bytes can be a key's answer. -/
theorem exists_answers (b₀ b₁ b₂ b₃ : UInt8) :
    ∃ w w', openKey usbIds 0 ⟨answering [b₀, b₁, b₂, b₃], none, []⟩ = (.ok ⟨⟩, w)
      ∧ Answers usbIds.toHost 1 0 [b₀, b₁, b₂, b₃] w w' := by
  obtain ⟨w₁, hwrite, hreplies⟩ := ykWriteToKey_ready []
    (responseReports [b₀, b₁, b₂, b₃] ++ [statusReport 0x40]) none [.read (some (keyReport 1 0))]
  have hserve : usbIds.toHost.Serves w₁.dev
      ([] ++ responseReports [b₀, b₁, b₂, b₃] ++ [statusReport 0x40]) ⟨w₁.dev.frame, []⟩ := by
    rw [List.nil_append, ← hreplies]
    exact ScriptedKey.serves .little crc16 w₁.dev.frame w₁.dev.replies
  -- four bytes and their checksum are one report, and two fit into the buffer
  have hparts : ([b₀, b₁, b₂, b₃].length + 8) / 7 = 1 := by simp
  have hreceives := ykReadResponseFromKey_receives usbIds.toHost rfl 1 0 (by rw [hparts]; decide)
    (fun _ h => absurd h List.not_mem_nil) (by decide) rfl
    (show 7 ≤ (16 : UInt32).toNat by decide) hserve
  rw [hparts] at hreceives
  rcases ykReadResponseFromKey_whole usbIds.toHost 1 0 16 4 (by decide) (by decide) w₁ with
    ⟨buf, bytesRead, w', hread⟩ | ⟨w', hfail⟩ | ⟨h, -⟩
  · exact ⟨_, w', rfl, w₁, buf, bytesRead, hwrite, hread,
      (hreceives.2.1 buf bytesRead w' hread.run).1⟩
  · obtain ⟨a, w'', hok⟩ := hreceives.1.2 (by decide)
    cases hok.symm.trans hfail
  · exact absurd h (by decide)

/-- libyubikey, and an array of other characters. -/
def testEnv : Env where
  yubikeyHexDecode := ScriptedHost.decode ScriptedHost.hexAlphabet
  encoders := ScriptedJson.libyubikey
  ykpersVersionString := "1.19.4"
  buf := .replicate 64 'x'

theorem testEnv_documented : testEnv.Documented := ⟨decode_encode .hex, documented_libyubikey⟩

open Ykchalresp (commandLine)

/-- All three notations are asked for. -/
def allVars : Vars :=
  { Vars.start with serialDec := true, serialHex := true, serialModhex := true }

theorem parseArgs_all :
    parseArgs testEnv (commandLine ["ykinfo", "-s", "-H", "-m"]) = .ok allVars := by
  rw [parseArgs, options, Getopt.scan_of_some (o := .flag 's') rfl,
    Getopt.scan_of_some (o := .flag 'H') rfl, Getopt.scan_of_some (o := .flag 'm') rfl,
    Getopt.scan_of_none rfl]
  rfl

theorem ykinfo_serialsAgree_small :
    let argv := commandLine ["ykinfo", "-s", "-H", "-m"]
    SerialsAgree usbIds (options argv) allVars [0, 0x10, 0x70, 0x06]
      (ykinfo usbIds testEnv argv (.start (answering [0, 0x10, 0x70, 0x06]))).2.stdout := by
  obtain ⟨w, w', hopen, hkey⟩ := exists_answers 0 0x10 0x70 0x06
  exact (ykinfo_serialsAgree_iff testEnv_documented parseArgs_all hopen hkey).2
    fun _ => by decide

/-- A serial number with its sign bit set is shown as a negative number. -/
theorem ykinfo_negative_serial :
    let argv := commandLine ["ykinfo", "-s", "-H", "-m"]
    let stdout := (ykinfo usbIds testEnv argv (.start (answering [0x80, 0, 0, 0]))).2.stdout
    (∃ w w', openKey usbIds 0 ⟨answering [0x80, 0, 0, 0], none, []⟩ = (.ok ⟨⟩, w)
        ∧ Answers usbIds.toHost 1 0 [0x80, 0, 0, 0] w w')
      ∧ stdout = ["serial: ", "-2147483648\n", "serial_hex: ", "80000000\n",
        "serial_modhex: ", "jccccccc\n"]
      ∧ ¬ SerialsAgree usbIds (options argv) allVars [0x80, 0, 0, 0] stdout := by
  intro argv stdout
  have hprinted : stdout = printedSerial allVars 0x80000000 := by
    show (ykinfo usbIds testEnv argv _).2.stdout = _
    rw [ykinfo, parseArgs_all]
    decide +kernel
  have hprefix : printedSerial allVars 0x80000000 <+: stdout :=
    ⟨[], by rw [List.append_nil, hprinted]⟩
  refine ⟨exists_answers 0x80 0 0 0, by rw [hprinted]; decide +kernel, fun h => ?_⟩
  exact absurd ((shown_iff hprefix).1 h.shown rfl) (by decide)

end Runs

end Ykinfo

end YkPers
