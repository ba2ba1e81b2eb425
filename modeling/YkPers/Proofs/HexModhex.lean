import YkPers.Lib.Hex
import YkPers.Proofs.ArgsToConfig
import YkPers.ScriptedHost

/-!
# Texts of bytes

`hex_modhex_decode` accepts the texts of a grammar (`BytesText`) and no others, and gives back the
bytes of which they are texts. A prefix is no digit of either alphabet, so that it is told apart
from a text without one. The functions of the library that read a key in hexadecimal digits accept
what the command line does, where there is no prefix.
-/

namespace YkPers

open Hex (Alphabet)

/-- The predicates of libyubikey accept the strings over an alphabet, and the decoders read what is
written in it. -/
structure ArgsEnv.Documented (E : ArgsEnv) : Prop where
  hexP : ∀ s, E.yubikeyHexP s = true ↔ ∀ c ∈ s, c ∈ Alphabet.hex.chars
  modhexP : ∀ s, E.yubikeyModhexP s = true ↔ ∀ c ∈ s, c ∈ Alphabet.modhex.chars
  hexDecode : ∀ bs n, bs.length ≤ n →
    (E.yubikeyHexDecode (Alphabet.hex.encode bs) n).toList.take bs.length = bs
  modhexDecode : ∀ bs n, bs.length ≤ n →
    (E.yubikeyModhexDecode (Alphabet.modhex.encode bs) n).toList.take bs.length = bs

section ScriptedHost

open ScriptedHost (env decode decodePairs accepts)

theorem decodePairs_encode (a : Alphabet) : ∀ bs, decodePairs a.chars (a.encode bs) = bs
  | [] => rfl
  | b :: bs => by
    have hb := b.toNat_lt
    have hbyte : 16 * (b.toNat / 16 % 16) + b.toNat % 16 = b.toNat := by omega
    have ih := decodePairs_encode a bs
    unfold Alphabet.encode at ih ⊢
    rw [List.flatMap_cons, List.cons_append, List.cons_append, List.nil_append, decodePairs, ih,
      a.idxOf_digit, a.idxOf_digit, hbyte, UInt8.ofNat_toNat]

theorem decode_encode (a : Alphabet) (bs : List UInt8) (n : ℕ) (h : bs.length ≤ n) :
    (decode a.chars (a.encode bs) n).toList.take bs.length = bs := by
  unfold decode
  rw [decodePairs_encode]
  refine (congrArg (List.take bs.length) (toList_charfield_of_le h)).trans ?_
  exact List.take_left

theorem accepts_iff (a : Alphabet) (s : List Char) :
    accepts a.chars s = true ↔ ∀ c ∈ s, c ∈ a.chars := by
  simp [accepts]

theorem env_documented (major minor build : UInt8) : (env major minor build).Documented :=
  ⟨accepts_iff .hex, accepts_iff .modhex, decode_encode .hex, decode_encode .modhex⟩

end ScriptedHost

def alphabetOf (modhex : Bool) : Alphabet := if modhex then .modhex else .hex

/-- The texts of `bytes`: in the alphabet that a prefix names, or else in the primary one. -/
inductive BytesText (primarilyModhex : Bool) (bytes : List UInt8) : List Char → Prop
  | hex {p : String} (hp : p = "h:" ∨ p = "H:") :
    BytesText primarilyModhex bytes (p.toList ++ Alphabet.hex.encode bytes)
  | modhex {p : String} (hp : p = "m:" ∨ p = "M:") :
    BytesText primarilyModhex bytes (p.toList ++ Alphabet.modhex.encode bytes)
  | primary : BytesText primarilyModhex bytes ((alphabetOf primarilyModhex).encode bytes)

/-! ## Prefixes -/

section Prefix

variable {str : List Char} {primarilyModhex : Bool}

/-- A text with a colon behind its first character is none of digits. -/
theorem encode_ne_prefix (a : Alphabet) (ha : ':' ∉ a.chars) (bytes : List UInt8) (c : Char) :
    (a.encode bytes).take 2 ≠ [c, ':'] := by
  intro h
  have hcolon : ':' ∈ (a.encode bytes).take 2 := by
    rw [h]
    simp
  exact ha (Alphabet.mem_encode (List.mem_of_mem_take hcolon))

theorem stripPrefix_digits (modhex : Bool) (bytes : List UInt8) :
    stripPrefix ((alphabetOf modhex).encode bytes) modhex
      = ((alphabetOf modhex).encode bytes, modhex) := by
  have ha : ':' ∉ (alphabetOf modhex).chars := by cases modhex <;> decide
  have hne : ∀ c, ((alphabetOf modhex).encode bytes).take 2 ≠ [c, ':'] :=
    encode_ne_prefix _ ha bytes
  rw [stripPrefix, if_neg, if_neg]
  · exact not_or.2 ⟨hne 'h', hne 'H'⟩
  · exact not_or.2 ⟨hne 'm', hne 'M'⟩

theorem stripPrefix_append {p : String} (modhex : Bool) (rest : List Char)
    (hp : p = "m:" ∧ modhex = true ∨ p = "M:" ∧ modhex = true ∨ p = "h:" ∧ modhex = false ∨
      p = "H:" ∧ modhex = false) :
    stripPrefix (p.toList ++ rest) primarilyModhex = (rest, modhex) := by
  rcases hp with ⟨rfl, rfl⟩ | ⟨rfl, rfl⟩ | ⟨rfl, rfl⟩ | ⟨rfl, rfl⟩ <;> rfl

/-- The prefix that is stripped, if there is one. -/
theorem exists_prefix (str : List Char) (primarilyModhex : Bool) :
    (∃ p : String, str = p.toList ++ (stripPrefix str primarilyModhex).1 ∧
      ((p = "m:" ∨ p = "M:") ∧ (stripPrefix str primarilyModhex).2 = true ∨
        (p = "h:" ∨ p = "H:") ∧ (stripPrefix str primarilyModhex).2 = false)) ∨
    stripPrefix str primarilyModhex = (str, primarilyModhex) := by
  have hsplit : ∀ {p : List Char}, str.take 2 = p → str = p ++ str.drop 2 := fun h => by
    rw [← h, List.take_append_drop]
  unfold stripPrefix
  split_ifs with hm hh
  · rcases hm with hm | hm
    · exact .inl ⟨"m:", hsplit hm, .inl ⟨.inl rfl, rfl⟩⟩
    · exact .inl ⟨"M:", hsplit hm, .inl ⟨.inr rfl, rfl⟩⟩
  · rcases hh with hh | hh
    · exact .inl ⟨"h:", hsplit hh, .inr ⟨.inl rfl, rfl⟩⟩
    · exact .inl ⟨"H:", hsplit hh, .inr ⟨.inr rfl, rfl⟩⟩
  · exact .inr rfl

/-- The text is told by the digits behind the prefix. -/
theorem bytesText_iff {bytes : List UInt8} : BytesText primarilyModhex bytes str ↔
    (stripPrefix str primarilyModhex).1
      = (alphabetOf (stripPrefix str primarilyModhex).2).encode bytes := by
  constructor
  · rintro (hp | hp | _)
    · rw [stripPrefix_append false _ (hp.elim (fun h => .inr (.inr (.inl ⟨h, rfl⟩)))
        fun h => .inr (.inr (.inr ⟨h, rfl⟩)))]
      rfl
    · rw [stripPrefix_append true _ (hp.imp (⟨·, rfl⟩) fun h => .inl ⟨h, rfl⟩)]
      rfl
    · rw [stripPrefix_digits]
  · intro h
    rcases exists_prefix str primarilyModhex with ⟨p, hstr, ⟨hp, hm⟩ | ⟨hp, hm⟩⟩ | hnone
    · rw [hstr, h, hm]
      exact .modhex hp
    · rw [hstr, h, hm]
      exact .hex hp
    · rw [hnone] at h
      change str = (alphabetOf primarilyModhex).encode bytes at h
      rw [h]
      exact .primary

end Prefix

/-! ## The decoder -/

section Decoder

variable {E : ArgsEnv} (minsize maxsize : ℕ)

/-- There is a digit too many or too few. -/
def BadLength (digits : List Char) : Prop :=
  digits.length % 2 ≠ 0 ∨ digits.length < minsize ∨ digits.length > maxsize

instance (digits : List Char) : Decidable (BadLength minsize maxsize digits) :=
  inferInstanceAs (Decidable (_ ∨ _))

def ArgsEnv.accepts (E : ArgsEnv) (modhex : Bool) : List Char → Bool :=
  if modhex then E.yubikeyModhexP else E.yubikeyHexP

def ArgsEnv.decode (E : ArgsEnv) (modhex : Bool) : List Char → (n : ℕ) → Vector UInt8 n :=
  if modhex then E.yubikeyModhexDecode else E.yubikeyHexDecode

/-- Behind the prefix. -/
def decodeDigits (E : ArgsEnv) (modhex : Bool) (digits : List Char) : Decoded :=
  if BadLength minsize maxsize digits then ⟨-1, none, []⟩
  else if E.accepts modhex digits then
    ⟨1, some (digits.length / 2), (E.decode modhex digits digits.length).toList⟩
  else ⟨0, some (digits.length / 2), []⟩

theorem hexModhexDecode_eq (E : ArgsEnv) (str : List Char) (primarilyModhex : Bool) :
    hexModhexDecode E str minsize maxsize primarilyModhex
      = decodeDigits minsize maxsize E (stripPrefix str primarilyModhex).2
        (stripPrefix str primarilyModhex).1 := by
  unfold hexModhexDecode
  rcases stripPrefix str primarilyModhex with ⟨digits, _ | _⟩ <;> rfl

theorem ArgsEnv.Documented.accepts (hE : E.Documented) (modhex : Bool) (s : List Char) :
    E.accepts modhex s = true ↔ ∀ c ∈ s, c ∈ (alphabetOf modhex).chars := by
  cases modhex
  · exact hE.hexP s
  · exact hE.modhexP s

theorem ArgsEnv.Documented.decode (hE : E.Documented) (modhex : Bool) {bs : List UInt8} {n : ℕ}
    (h : bs.length ≤ n) :
    (E.decode modhex ((alphabetOf modhex).encode bs) n).toList.take bs.length = bs := by
  cases modhex
  · exact hE.hexDecode bs n h
  · exact hE.modhexDecode bs n h

/-- The call returns 1 and gives `bytes`. -/
structure Decoded.Gives (d : Decoded) (bytes : List UInt8) : Prop where
  rc : d.rc = 1
  resultlen : d.resultlen = some bytes.length
  stored : d.stored.take bytes.length = bytes

variable {minsize maxsize} {modhex : Bool}

theorem decodeDigits_encode (hE : E.Documented) {bytes : List UInt8}
    (hmin : minsize ≤ 2 * bytes.length) (hmax : 2 * bytes.length ≤ maxsize) :
    (decodeDigits minsize maxsize E modhex ((alphabetOf modhex).encode bytes)).Gives bytes := by
  have hlen := (alphabetOf modhex).length_encode bytes
  have hgood : ¬ BadLength minsize maxsize ((alphabetOf modhex).encode bytes) := by
    unfold BadLength
    omega
  have haccepts : E.accepts modhex ((alphabetOf modhex).encode bytes) = true :=
    (hE.accepts modhex _).2 fun _ => Alphabet.mem_encode
  rw [decodeDigits, if_neg hgood, if_pos haccepts, hlen]
  exact ⟨rfl, congrArg some (Nat.mul_div_cancel_left _ Nat.two_pos),
    hE.decode modhex (by omega)⟩

/-- The three ways in which a call ends. -/
theorem decodeDigits_cases (minsize maxsize : ℕ) (hE : E.Documented) (modhex : Bool)
    (digits : List Char) :
    (BadLength minsize maxsize digits ∧ (decodeDigits minsize maxsize E modhex digits).rc = -1) ∨
    (¬ BadLength minsize maxsize digits ∧ (∃ c ∈ digits, c ∉ (alphabetOf modhex).chars) ∧
      (decodeDigits minsize maxsize E modhex digits).rc = 0) ∨
    (¬ BadLength minsize maxsize digits ∧ (∀ c ∈ digits, c ∈ (alphabetOf modhex).chars) ∧
      ∃ bytes, digits = (alphabetOf modhex).encode bytes ∧
        (decodeDigits minsize maxsize E modhex digits).Gives bytes) := by
  by_cases hbad : BadLength minsize maxsize digits
  · exact .inl ⟨hbad, by rw [decodeDigits, if_pos hbad]⟩
  by_cases hall : ∀ c ∈ digits, c ∈ (alphabetOf modhex).chars
  · obtain ⟨heven, hmin, hmax⟩ : digits.length % 2 = 0 ∧ minsize ≤ digits.length ∧
        digits.length ≤ maxsize := by
      unfold BadLength at hbad
      omega
    obtain ⟨bytes, rfl⟩ := Alphabet.exists_encode_iff.2 ⟨heven, hall⟩
    rw [Alphabet.length_encode] at hmin hmax
    exact .inr (.inr ⟨hbad, hall, bytes, rfl, decodeDigits_encode hE hmin hmax⟩)
  · have hrefused : ¬ E.accepts modhex digits = true := fun h => hall ((hE.accepts _ _).1 h)
    refine .inr (.inl ⟨hbad, by simpa using hall, ?_⟩)
    rw [decodeDigits, if_neg hbad, if_neg hrefused]

theorem decodeDigits_of_rc {digits : List Char}
    (h : 0 < (decodeDigits minsize maxsize E modhex digits).rc) :
    ¬ BadLength minsize maxsize digits ∧ E.accepts modhex digits = true ∧
      decodeDigits minsize maxsize E modhex digits
        = ⟨1, some (digits.length / 2), (E.decode modhex digits digits.length).toList⟩ := by
  unfold decodeDigits at h ⊢
  by_cases hbad : BadLength minsize maxsize digits
  · rw [if_pos hbad] at h
    exact absurd h (by simp)
  by_cases hok : E.accepts modhex digits = true
  · rw [if_neg hbad, if_pos hok]
    exact ⟨hbad, hok, rfl⟩
  · rw [if_neg hbad, if_neg hok] at h
    exact absurd h (by simp)

/-- What a call that returns 1 decodes is no longer than the bounds allow. -/
theorem gives_of_rc {str : List Char} {primarilyModhex : Bool}
    (h : 0 < (hexModhexDecode E str minsize maxsize primarilyModhex).rc) :
    ∃ bytes, (hexModhexDecode E str minsize maxsize primarilyModhex).Gives bytes ∧
      2 * bytes.length ≤ maxsize ∧ str.length ≤ maxsize + 2 := by
  have hstr : str.length ≤ (stripPrefix str primarilyModhex).1.length + 2 := by
    unfold stripPrefix
    split_ifs <;> simp only [List.length_drop] <;> omega
  rw [hexModhexDecode_eq] at h ⊢
  obtain ⟨hgood, -, hd⟩ := decodeDigits_of_rc h
  rw [hd]
  generalize (stripPrefix str primarilyModhex).1 = digits at hgood hstr
  generalize E.decode (stripPrefix str primarilyModhex).2 digits digits.length = decoded
  have hlen : (decoded.toList.take (digits.length / 2)).length = digits.length / 2 := by
    rw [List.length_take, Vector.length_toList]
    omega
  unfold BadLength at hgood
  refine ⟨_, ⟨rfl, congrArg some hlen.symm, ?_⟩, by omega, by omega⟩
  rw [hlen]

/-- The texts of some bytes, of a length within the bounds, are decoded to these bytes, and there
are no others. Of the rest, the length is wrong or else a character. -/
theorem hexModhexDecode_grammar (hE : E.Documented) (str : List Char) (minsize maxsize : ℕ)
    (primarilyModhex : Bool) :
    let d := hexModhexDecode E str minsize maxsize primarilyModhex
    let digits := (stripPrefix str primarilyModhex).1
    (∀ bytes, d.Gives bytes ↔ BytesText primarilyModhex bytes str ∧
      minsize ≤ 2 * bytes.length ∧ 2 * bytes.length ≤ maxsize) ∧
    (d.rc = 1 → ∃ bytes, d.Gives bytes ∧ BytesText primarilyModhex bytes str ∧
      digits.length = 2 * bytes.length ∧ minsize ≤ digits.length ∧ digits.length ≤ maxsize) ∧
    (d.rc = -1 ↔ BadLength minsize maxsize digits) ∧
    (d.rc = 0 ↔ ¬ BadLength minsize maxsize digits ∧
      ∃ c ∈ digits, c ∉ (alphabetOf (stripPrefix str primarilyModhex).2).chars) := by
  intro d digits
  have hd : d = decodeDigits minsize maxsize E (stripPrefix str primarilyModhex).2 digits :=
    hexModhexDecode_eq minsize maxsize E str primarilyModhex
  have hgives : ∀ bytes, d.Gives bytes → ∀ bytes', d.Gives bytes' → bytes = bytes' := by
    intro bytes h bytes' h'
    have hlen := Option.some.inj (h.resultlen.symm.trans h'.resultlen)
    rw [← h.stored, hlen, h'.stored]
  rcases decodeDigits_cases minsize maxsize hE (stripPrefix str primarilyModhex).2 digits with
    ⟨hbad, hrc⟩ | ⟨hgood, hchar, hrc⟩ | ⟨hgood, hall, bytes, hdigits, hgive⟩
  · rw [← hd] at hrc
    refine ⟨fun bytes => iff_of_false (fun h => ?_) ?_, fun h => ?_, iff_of_true hrc hbad, ?_⟩
    · exact absurd (hrc.symm.trans h.rc) (by decide)
    · rintro ⟨htext, hmin, hmax⟩
      have hlen : digits.length = 2 * bytes.length := by
        rw [show digits = _ from bytesText_iff.1 htext, Alphabet.length_encode]
      unfold BadLength at hbad
      omega
    · exact absurd (hrc.symm.trans h) (by decide)
    · exact iff_of_false (fun h => absurd (hrc.symm.trans h) (by decide)) fun h => h.1 hbad
  · rw [← hd] at hrc
    refine ⟨fun bytes => iff_of_false (fun h => ?_) ?_, fun h => ?_, ?_,
      iff_of_true hrc ⟨hgood, hchar⟩⟩
    · exact absurd (hrc.symm.trans h.rc) (by decide)
    · rintro ⟨htext, -, -⟩
      obtain ⟨c, hc, hnot⟩ := hchar
      rw [show digits = _ from bytesText_iff.1 htext] at hc
      exact hnot (Alphabet.mem_encode hc)
    · exact absurd (hrc.symm.trans h) (by decide)
    · exact iff_of_false (fun h => absurd (hrc.symm.trans h) (by decide)) hgood
  · rw [← hd] at hgive
    have htext : BytesText primarilyModhex bytes str := bytesText_iff.2 hdigits
    have hlen : digits.length = 2 * bytes.length := by rw [hdigits, Alphabet.length_encode]
    obtain ⟨hmin, hmax⟩ : minsize ≤ digits.length ∧ digits.length ≤ maxsize := by
      unfold BadLength at hgood
      omega
    refine ⟨fun bytes' => ⟨fun h => ?_, fun h => ?_⟩,
      fun _ => ⟨bytes, hgive, htext, hlen, hmin, hmax⟩, ?_, ?_⟩
    · obtain rfl := hgives bytes hgive bytes' h
      exact ⟨htext, by omega, by omega⟩
    · obtain rfl : bytes = bytes' :=
        Alphabet.encode_inj (hdigits.symm.trans (bytesText_iff.1 h.1))
      exact hgive
    · exact iff_of_false (fun h => absurd (hgive.rc.symm.trans h) (by decide)) hgood
    · refine iff_of_false (fun h => absurd (hgive.rc.symm.trans h) (by decide)) ?_
      rintro ⟨-, c, hc, hnot⟩
      exact hnot (hall c hc)

theorem hexModhexDecode_grammar_key :
    (hexModhexDecode (ScriptedHost.env 3 0 0) "h:00ff".toList 4 4 false).Gives [0x00, 0xff] := by
  have henv := env_documented 3 0 0
  have h := (hexModhexDecode_grammar henv "h:00ff".toList 4 4 false).1 [0x00, 0xff]
  exact h.2 ⟨.hex (.inl rfl), by decide, by decide⟩

end Decoder

/-! ## Keys in hexadecimal digits -/

section Keys

/-- The key section behind its prompt, where a key is given. -/
def storeGivenKey (E : ArgsEnv) (keyBytes : ℕ) : Proc ArgsState Unit := do
  let keybuf ← decodeKey E keyBytes
  onYkp (if keyBytes = 20 then ykpHmacKeyFromRaw keybuf else ykpAesKeyFromRaw keybuf)

/-- The function of the library for a key of this length. -/
def keyFromHex (E : ArgsEnv) (keyBytes : ℕ) : List Char → Proc YkpState Unit :=
  if keyBytes = 20 then ykpHmacKeyFromHex E.yubikeyHexP E.yubikeyHexDecode
  else ykpAesKeyFromHex E.yubikeyHexP E.yubikeyHexDecode

variable {E : ArgsEnv} {str : List Char}

theorem keySection_eq_storeGivenKey {fuel : ℕ} {s : ArgsState} (hzap : s.zap = false)
    (hcommand : s.ykp.cfg.command = slotConfig ∨ s.ykp.cfg.command = slotConfig2)
    (hlocation : s.keylocation = 1) :
    keySection E fuel s = storeGivenKey E (ykpGetSupportedKeyLength s.ykp.cfg) s := by
  have hprompt : ∀ n, promptKey n s = (.ok ⟨⟩, s) := fun n => by
    rw [promptKey, Proc.get_bind_run, if_neg (by rw [hlocation]; decide)]
    rfl
  rw [keySection, Proc.get_bind_run, if_pos (by simpa [hzap] using hcommand),
    Proc.bind_ok (hprompt _), Proc.get_bind_run, if_neg (by rw [hlocation]; decide)]
  rfl

theorem charfield_congr {size : ℕ} {a b : List UInt8} (h : a.take size = b.take size) :
    charfield size a = charfield size b := by
  have hget : ∀ i < size, a[i]? = b[i]? := fun i hi => by
    rw [← List.getElem?_take_of_lt hi, h, List.getElem?_take_of_lt hi]
  unfold charfield
  congr 1
  funext i
  rw [List.getD_eq_getElem?_getD, List.getD_eq_getElem?_getD, hget i i.isLt]

/-- What the two sides store is told by the first bytes. -/
theorem storeKey_congr {n : ℕ} (hn : n = 20 ∨ n = 16) {a b : List UInt8}
    (h : a.take n = b.take n) :
    (if n = 20 then ykpHmacKeyFromRaw a else ykpAesKeyFromRaw a)
      = if n = 20 then ykpHmacKeyFromRaw b else ykpAesKeyFromRaw b := by
  have hle : ∀ m ≤ n, a.take m = b.take m := fun m hm => by
    rw [← Nat.min_eq_left hm, ← List.take_take, h, List.take_take]
  have hkey : charfield keySize a = charfield keySize b :=
    charfield_congr (hle 16 (by omega))
  rcases hn with rfl | rfl
  · have huid : (a.drop keySize).take 4 = (b.drop keySize).take 4 := by
      rw [List.take_drop, List.take_drop, hle (keySize + 4) (by decide)]
    rw [if_pos rfl, if_pos rfl, ykpHmacKeyFromRaw, ykpHmacKeyFromRaw, hkey, huid]
  · rw [if_neg (by decide), if_neg (by decide), ykpAesKeyFromRaw, ykpAesKeyFromRaw, hkey]

theorem ykpKeyFromHex_run (digits : ℕ) (f : List UInt8 → YkConfig → YkConfig) (y : YkpState) :
    ykpKeyFromHex E.yubikeyHexP E.yubikeyHexDecode digits f str y
      = if str.length ≠ digits ∨ E.yubikeyHexP str = false then
          (.fail, { y with ykpErrno := some .EINVAL })
        else ykpStore (f (E.yubikeyHexDecode str 256).toList) y := by
  unfold ykpKeyFromHex
  by_cases hlen : str.length = digits
  · rw [if_neg (not_not.2 hlen)]
    rcases hp : E.yubikeyHexP str with _ | _
    · rw [if_pos (show (!false) = true from rfl), if_pos (.inr rfl)]
      rfl
    · rw [if_neg (show ¬ (!true) = true from Bool.noConfusion),
        if_neg (not_or.2 ⟨not_not.2 hlen, Bool.noConfusion⟩)]
  · rw [if_pos hlen, if_pos (.inl hlen)]
    rfl

theorem keyFromHex_run {n : ℕ} (hn : n = 20 ∨ n = 16) (y : YkpState) :
    keyFromHex E n str y = if str.length ≠ n * 2 ∨ E.yubikeyHexP str = false then
        (.fail, { y with ykpErrno := some .EINVAL })
      else (if n = 20 then ykpHmacKeyFromRaw (E.yubikeyHexDecode str 256).toList
        else ykpAesKeyFromRaw (E.yubikeyHexDecode str 256).toList) y := by
  rcases hn with rfl | rfl
  · exact ykpKeyFromHex_run (E := E) 40 (fun aesbin c => { c with
      key := charfield _ aesbin
      uid := charfield _ ((aesbin.drop keySize).take 4 ++ c.uid.toList.drop 4) }) y
  · exact ykpKeyFromHex_run (E := E) 32 (fun aesbin c => { c with key := charfield _ aesbin }) y

theorem stripPrefix_none (hbegin : ∀ p ∈ ["h:", "H:", "m:", "M:"], ¬ p.toList <+: str)
    (modhex : Bool) : stripPrefix str modhex = (str, modhex) := by
  rcases exists_prefix str modhex with ⟨p, hstr, hp⟩ | hnone
  · refine absurd ⟨_, hstr.symm⟩ (hbegin p ?_)
    rcases hp with ⟨rfl | rfl, -⟩ | ⟨rfl | rfl, -⟩ <;> simp
  · exact hnone

/-- A key that is refused is given up, and one that is accepted is stored. -/
theorem storeGivenKey_run {s : ArgsState} (hkey : s.aeshash = some str) (n : ℕ) :
    let d := hexModhexDecode E str (n * 2) (n * 2) false
    if 0 < d.rc then ∃ t : ArgsState, t.ykp = s.ykp ∧ storeGivenKey E n s
      = onYkp (if n = 20 then ykpHmacKeyFromRaw (d.stored.take (d.resultlen.getD 0))
        else ykpAesKeyFromRaw (d.stored.take (d.resultlen.getD 0))) t
    else (storeGivenKey E n s).1 = .fail ∧ (storeGivenKey E n s).2.ykp = s.ykp := by
  intro d
  obtain ⟨t, ht, hykp⟩ : ∃ t, noteDecode 20 d s = (.ok ⟨⟩, t) ∧ t.ykp = s.ykp := by
    unfold noteDecode
    split_ifs <;> exact ⟨_, rfl, rfl⟩
  have hdecode : decodeKey E n s
      = (rejectIf (d.rc ≤ 0) "Invalid key string\n" >>= fun _ =>
        pure (d.stored.take (d.resultlen.getD 0))) t := by
    rw [decodeKey, Proc.get_bind_run, hkey]
    exact Proc.bind_ok ht
  by_cases hrc : 0 < d.rc
  · rw [if_pos hrc]
    have hok : rejectIf (d.rc ≤ 0) "Invalid key string\n" t = (.ok ⟨⟩, t) := by
      rw [rejectIf, if_neg (by simpa using hrc)]
      rfl
    rw [Proc.bind_ok hok, Proc.pure_run] at hdecode
    exact ⟨t, hykp, Proc.bind_ok hdecode⟩
  · rw [if_neg hrc]
    have hfail : rejectIf (d.rc ≤ 0) "Invalid key string\n" t
        = (.fail, (reject "Invalid key string\n" t).2) := by
      rw [rejectIf, if_pos (by simpa using hrc)]
      rfl
    rw [Proc.bind_fail hfail] at hdecode
    have hrun : storeGivenKey E n s = (.fail, (reject "Invalid key string\n" t).2) :=
      Proc.bind_fail hdecode
    rw [hrun]
    exact ⟨rfl, hykp⟩

/-- With bounds for `n` bytes, the decoder refuses what the library refuses, and of the texts that
are left both decode the same bytes. -/
theorem decodeDigits_fixed (hE : E.Documented) {n : ℕ} (hn : n ≤ 256) (str : List Char) :
    let d := decodeDigits (n * 2) (n * 2) E false str
    ((str.length ≠ n * 2 ∨ E.yubikeyHexP str = false) ∧ ¬ 0 < d.rc) ∨
      (¬ (str.length ≠ n * 2 ∨ E.yubikeyHexP str = false) ∧ 0 < d.rc ∧
        (E.yubikeyHexDecode str 256).toList.take n
          = (d.stored.take (d.resultlen.getD 0)).take n) := by
  intro d
  rcases decodeDigits_cases (n * 2) (n * 2) hE false str with
    ⟨hbad, hrc⟩ | ⟨-, ⟨c, hc, hnot⟩, hrc⟩ | ⟨hgood, hall, bytes, hstr, hgive⟩
  · refine .inl ⟨.inl fun hlen => ?_, by rw [show d.rc = -1 from hrc]; decide⟩
    unfold BadLength at hbad
    omega
  · refine .inl ⟨.inr ?_, by rw [show d.rc = 0 from hrc]; decide⟩
    rw [Bool.eq_false_iff]
    exact fun hp => hnot ((hE.hexP str).1 hp c hc)
  · have hstrlen : str.length = n * 2 := by
      unfold BadLength at hgood
      omega
    have hlen : bytes.length = n := by
      rw [hstr, Alphabet.length_encode] at hstrlen
      omega
    have hp : E.yubikeyHexP str = true := (hE.hexP str).2 hall
    refine .inr ⟨by simp [hstrlen, hp], by rw [show d.rc = 1 from hgive.rc]; decide, ?_⟩
    have hbytes : d.stored.take (d.resultlen.getD 0) = bytes := by
      rw [show d.resultlen = _ from hgive.resultlen, Option.getD_some]
      exact hgive.stored
    rw [hbytes, hstr, ← hlen, List.take_length]
    exact hE.hexDecode bytes 256 (by omega)

/-- For a key without a prefix, the command line and the library accept the same texts and store
the same configuration, and a text that is refused leaves the configuration as it is. -/
theorem keyFromHex_agrees (hE : E.Documented)
    (hbegin : ∀ p ∈ ["h:", "H:", "m:", "M:"], ¬ p.toList <+: str) {s : ArgsState}
    (hkey : s.aeshash = some str) :
    let n := ykpGetSupportedKeyLength s.ykp.cfg
    let given := storeGivenKey E n s
    let library := keyFromHex E n str s.ykp
    (∀ fuel, s.zap = false → (s.ykp.cfg.command = slotConfig ∨ s.ykp.cfg.command = slotConfig2) →
      s.keylocation = 1 → keySection E fuel s = given) ∧
    (given.1 = .ok ⟨⟩ ↔ library.1 = .ok ⟨⟩) ∧ given.2.ykp.cfg = library.2.cfg ∧
      (given.1 ≠ .ok ⟨⟩ → given.1 = .fail ∧ library.1 = .fail ∧ library.2.cfg = s.ykp.cfg) := by
  intro n given library
  refine ⟨fun fuel => keySection_eq_storeGivenKey, ?_⟩
  have hn : n = 20 ∨ n = 16 := ykpGetSupportedKeyLength_cases s.ykp.cfg
  have hd := hexModhexDecode_eq (n * 2) (n * 2) E str false
  rw [stripPrefix_none hbegin] at hd
  have hlibrary : library = _ := keyFromHex_run hn s.ykp
  have hgiven := storeGivenKey_run (E := E) hkey n
  rw [hd] at hgiven
  rcases decodeDigits_fixed hE (show n ≤ 256 by omega) str with
    ⟨hbad, hrc⟩ | ⟨hgood, hrc, hbytes⟩
  · -- both sides leave the configuration
    rw [if_pos hbad] at hlibrary
    simp only [if_neg hrc] at hgiven
    have hfail : given.1 = .fail := hgiven.1
    have hykp : given.2.ykp = s.ykp := hgiven.2
    rw [hfail, hykp, hlibrary]
    exact ⟨iff_of_false (by simp) (by simp), rfl, fun _ => ⟨rfl, rfl, rfl⟩⟩
  · simp only [if_pos hrc] at hgiven
    obtain ⟨t, hykp, hrun⟩ := hgiven
    rw [if_neg hgood] at hlibrary
    have hboth : given = ((library.1, { t with ykp := library.2 }) : Ret Unit × ArgsState) := by
      rw [hlibrary, storeKey_congr hn hbytes, ← hykp]
      exact hrun
    rw [hboth]
    refine ⟨Iff.rfl, rfl, fun hne => absurd ?_ hne⟩
    rw [hlibrary]
    rcases hn with h | h
    · rw [h, if_pos rfl]
      rfl
    · rw [h, if_neg (by decide)]
      rfl

/-- A key for AES, and a longer one for HMAC. -/
theorem keyFromHex_agrees_key :
    let E := ScriptedHost.env 3 0 0
    let str := "00112233445566778899aabbccddeeff".toList
    let s := { ScriptedHost.start [] with aeshash := some str }
    let longer := str ++ "01234567".toList
    let s' := { ScriptedHost.start [] with
      aeshash := some longer, ykp := ⟨ScriptedHost.hmacConfig, none⟩ }
    ((storeGivenKey E 16 s).1 = .ok ⟨⟩ ↔ (keyFromHex E 16 str s.ykp).1 = .ok ⟨⟩) ∧
      ((storeGivenKey E 20 s').1 = .ok ⟨⟩ ↔ (keyFromHex E 20 longer s'.ykp).1 = .ok ⟨⟩) ∧
      (storeGivenKey E 20 s').2.ykp.cfg = (keyFromHex E 20 longer s'.ykp).2.cfg := by
  intro E str s longer s'
  have henv : E.Documented := env_documented 3 0 0
  have hbegin : ∀ p ∈ ["h:", "H:", "m:", "M:"], ¬ p.toList <+: str := by decide
  have hbegin' : ∀ p ∈ ["h:", "H:", "m:", "M:"], ¬ p.toList <+: longer := by decide
  have hn : ykpGetSupportedKeyLength s.ykp.cfg = 16 := by decide
  have hn' : ykpGetSupportedKeyLength s'.ykp.cfg = 20 := by decide
  have h := (keyFromHex_agrees henv hbegin (s := s) rfl).2
  have h' := (keyFromHex_agrees henv hbegin' (s := s') rfl).2
  rw [hn] at h
  rw [hn'] at h'
  exact ⟨h.1, h'.1, h'.2.1⟩

end Keys

end YkPers
