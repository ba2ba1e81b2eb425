import Mathlib.Data.List.GetD
import YkPers.Ndef

/-!
# What NDEF records say

A record is built of its type and the bytes at the front of its data (`NdefSource`). A URI is
abbreviated by the first identifier that it begins with, which is the longest one unless the URI
begins with one that `urn:` hides. `ykp_ndef_as_text` reads back what the record says and puts the
terminator one byte too far, so that the text is terminated where the memory held a zero, and the
memory is left where it has room for the text and less than two bytes more.
-/

namespace YkPers

/-! ## Building a record -/

section Filled

variable {r : YkNdef} {type : Char} {bytes : List UInt8}

/-- The bytes that count. -/
def YkNdef.content (r : YkNdef) : List UInt8 := r.data.toList.take r.len.toNat

theorem filled_len (h : bytes.length ≤ ndefDataSize) :
    (r.filled type bytes).len.toNat = bytes.length :=
  UInt8.toNat_ofNat_of_lt' (Nat.lt_of_le_of_lt h (by decide))

theorem filled_data (h : bytes.length ≤ ndefDataSize) :
    (r.filled type bytes).data.toList = bytes ++ r.data.toList.drop bytes.length := by
  have hsize : (bytes ++ r.data.toList.drop bytes.length).length = ndefDataSize := by
    rw [List.length_append, List.length_drop, Vector.length_toList]
    omega
  unfold YkNdef.filled
  rw [Buffer.store_zero, toList_charfield (Nat.le_of_eq hsize.symm),
    List.take_of_length_le (Nat.le_of_eq hsize)]

theorem filled_content (h : bytes.length ≤ ndefDataSize) :
    (r.filled type bytes).content = bytes := by
  rw [YkNdef.content, filled_len h, filled_data h, List.take_left]

theorem filled_drop (h : bytes.length ≤ ndefDataSize) :
    (r.filled type bytes).data.toList.drop bytes.length = r.data.toList.drop bytes.length := by
  rw [filled_data h, List.drop_left]

theorem filled_head {b : UInt8} (h : (b :: bytes).length ≤ ndefDataSize) :
    (r.filled type (b :: bytes)).data[0] = b := by
  have hdata : (r.filled type (b :: bytes)).data.toList = _ := filled_data h
  have hlt : 0 < (r.filled type (b :: bytes)).data.toList.length := by
    rw [Vector.length_toList]
    decide
  rw [← Vector.getElem_toList hlt]
  simp only [hdata, List.cons_append, List.getElem_cons_zero]

end Filled

/-! ## Identifiers -/

/-- The first identifier that the URI begins with. -/
def identifierIndex (uri : List Char) : ℕ :=
  ndefIdentifiers.findIdx fun identifier => identifier.toList.isPrefixOf uri

/-- What the first byte of a URI record stands for. -/
def identifier : ℕ → List Char
  | 0 => []
  | n + 1 => (ndefIdentifiers.getD n "").toList

def identifierCode (uri : List Char) : ℕ :=
  if identifierIndex uri = ndefIdentifiers.length then 0 else identifierIndex uri + 1

section Identifiers

variable {uri : List Char}

theorem identifierIndex_le : identifierIndex uri ≤ ndefIdentifiers.length := List.findIdx_le_length

theorem identifierCode_le : identifierCode uri ≤ 35 := by
  have hle : identifierIndex uri ≤ 35 := identifierIndex_le
  have hlen : ndefIdentifiers.length = 35 := rfl
  unfold identifierCode
  split_ifs <;> omega

theorem identifier_code_toList :
    identifier (identifierCode uri) = (ndefIdentifiers.getD (identifierIndex uri) "").toList := by
  unfold identifierCode
  split_ifs with h
  · rw [h]
    rfl
  · rfl

theorem identifier_code_begins (uri : List Char) : identifier (identifierCode uri) <+: uri := by
  rw [identifier_code_toList]
  rcases Nat.lt_or_ge (identifierIndex uri) ndefIdentifiers.length with h | h
  · have hfound := List.findIdx_getElem (w := h)
    rw [List.isPrefixOf_iff_prefix] at hfound
    rwa [List.getD_eq_getElem _ _ h]
  · rw [List.getD_eq_default _ _ h]
    exact List.nil_prefix

/-- Without a code there is no identifier. -/
theorem identifierCode_eq_zero (h : identifierCode uri = 0) :
    ∀ e ∈ ndefIdentifiers, ¬ e.toList <+: uri := by
  have hindex : identifierIndex uri = ndefIdentifiers.length := by
    unfold identifierCode at h
    split_ifs at h with hi
    exact hi
  intro e he
  have hfalse := List.findIdx_eq_length.1 hindex e he
  rwa [← Bool.not_eq_true, List.isPrefixOf_iff_prefix] at hfalse

end Identifiers

/-! ## The two kinds of records -/

/-- What a record is built from. -/
inductive NdefSource where
  | uri (str : List Char)
  | text (str lang : List Char) (isutf16 : Bool)

namespace NdefSource

def construct : NdefSource → YkNdef → Proc YkpState YkNdef
  | .uri str => (ykpConstructNdefUri · str)
  | .text str lang isutf16 => (ykpConstructNdefText · str lang isutf16)

def type : NdefSource → Char
  | .uri _ => 'U'
  | .text .. => 'T'

/-- What a URI says behind its identifier. -/
def remainder (uri : List Char) : List Char := uri.drop (identifier (identifierCode uri)).length

def textStatus (lang : List Char) (isutf16 : Bool) : UInt8 :=
  if isutf16 then UInt8.ofNat lang.length &&& 0x80 else UInt8.ofNat lang.length

def bytes : NdefSource → List UInt8
  | .uri str => UInt8.ofNat (identifierCode str) :: (remainder str).map charByte
  | .text str lang isutf16 => textStatus lang isutf16 :: (lang ++ str).map charByte

/-- A language that the status does not count is read as text. -/
def readBack : NdefSource → List UInt8
  | .uri str => str.map charByte
  | .text str lang isutf16 => (if isutf16 then lang ++ str else str).map charByte

end NdefSource

theorem ykpConstructNdefUri_eq (r : YkNdef) (uri : List Char) :
    ykpConstructNdefUri r uri =
      if ndefDataSize < (NdefSource.uri uri).bytes.length then do
        ykpError .EINVAL
        pure r
      else pure (r.filled 'U' (NdefSource.uri uri).bytes) := by
  have hlen : (ndefIdentifiers.getD (identifierIndex uri) "").length
      = (identifier (identifierCode uri)).length := by
    rw [identifier_code_toList, String.length_toList]
  have hcode : (if identifierIndex uri = ndefIdentifiers.length then 0
      else UInt8.ofNat (identifierIndex uri + 1)) = UInt8.ofNat (identifierCode uri) := by
    unfold identifierCode
    split_ifs <;> rfl
  unfold ykpConstructNdefUri
  change (if (uri.drop (ndefIdentifiers.getD (identifierIndex uri) "").length).length + 1
      > ndefDataSize then _ else pure (r.filled 'U' ((if identifierIndex uri
        = ndefIdentifiers.length then 0 else UInt8.ofNat (identifierIndex uri + 1))
          :: (uri.drop (ndefIdentifiers.getD (identifierIndex uri) "").length).map charByte))) = _
  rw [hlen, hcode]
  simp only [NdefSource.bytes, List.length_cons, List.length_map, NdefSource.remainder]

theorem ykpConstructNdefText_eq (r : YkNdef) (text lang : List Char) (isutf16 : Bool) :
    ykpConstructNdefText r text lang isutf16 =
      if ndefDataSize < (NdefSource.text text lang isutf16).bytes.length then do
        ykpError .EINVAL
        pure r
      else pure (r.filled 'T' (NdefSource.text text lang isutf16).bytes) := by
  have hlen : (NdefSource.text text lang isutf16).bytes.length
      = text.length + lang.length + 1 := by
    simp only [NdefSource.bytes, List.length_cons, List.length_map, List.length_append]
    omega
  rw [hlen]
  rfl

theorem construct_eq (src : NdefSource) (r : YkNdef) :
    src.construct r =
      if ndefDataSize < src.bytes.length then do
        ykpError .EINVAL
        pure r
      else pure (r.filled src.type src.bytes) := by
  cases src with
  | uri uri => exact ykpConstructNdefUri_eq r uri
  | text text lang isutf16 => exact ykpConstructNdefText_eq r text lang isutf16

theorem construct_record {src : NdefSource} {r record : YkNdef} {y y' : YkpState}
    (h : src.construct r y = (.ok record, y')) :
    src.bytes.length ≤ ndefDataSize ∧ record = r.filled src.type src.bytes := by
  rw [construct_eq] at h
  by_cases hlen : ndefDataSize < src.bytes.length
  · rw [if_pos hlen] at h
    cases (Prod.mk.inj h).1
  · rw [if_neg hlen] at h
    exact ⟨Nat.not_lt.1 hlen, (Ret.ok.inj (congrArg Prod.fst h)).symm⟩

/-- A record is refused as it stands, or filled in. -/
theorem construct_run (src : NdefSource) (m : NdefState) :
    onNdef src.construct m =
      if ndefDataSize < src.bytes.length then
        (.fail, { m with ykp := { m.ykp with ykpErrno := some .EINVAL } })
      else (.ok ⟨⟩, { m with ndef := m.ndef.filled src.type src.bytes }) := by
  rw [onNdef, Proc.get_bind_run, construct_eq]
  split_ifs <;> rfl

theorem construct_ok (src : NdefSource) {m m' : NdefState}
    (h : onNdef src.construct m = (.ok ⟨⟩, m')) :
    src.bytes.length ≤ ndefDataSize ∧
      m' = { m with ndef := m.ndef.filled src.type src.bytes } := by
  rw [construct_run] at h
  by_cases hlen : ndefDataSize < src.bytes.length
  · rw [if_pos hlen] at h
    exact absurd (congrArg Prod.fst h) (by simp)
  · rw [if_neg hlen] at h
    exact ⟨Nat.not_lt.1 hlen, (congrArg Prod.snd h).symm⟩

/-! ## Reading a record -/

section Reading

variable {r : YkNdef} {m : NdefState}

theorem storeText_run {off : ℕ} {bytes : List UInt8} (h : off + bytes.length ≤ m.text.length) :
    storeText off bytes m = (.ok ⟨⟩, { m with text := Buffer.store m.text off bytes }) := by
  rw [storeText, Proc.get_bind_run, if_pos h]
  rfl

theorem storeText_fault {off : ℕ} {bytes : List UInt8} (h : m.text.length < off + bytes.length) :
    storeText off bytes m = (.fault, m) := by
  rw [storeText, Proc.get_bind_run, if_neg (Nat.not_le.2 h)]
  rfl

theorem readData_run {off n : ℕ} (h : off + n ≤ ndefDataSize) :
    readData off n m = (.ok ((m.ndef.data.toList.drop off).take n), m) := by
  rw [readData, Proc.get_bind_run, if_pos h]
  rfl

/-- The text at the front of the memory, and a terminator one byte further on. -/
def stored (text back : List UInt8) : List UInt8 :=
  Buffer.store (Buffer.store text 0 back) (back.length + 1) [0]

/-- How a call ends with `len` bytes of memory, for a record that reads `back`. -/
def ReadsBack (back : List UInt8) (m : NdefState) (len : ℕ) : Prop :=
  (len < back.length → ykpNdefAsText len m
    = (.fail, { m with ykp := { m.ykp with ykpErrno := some .EINVAL } })) ∧
  (back.length ≤ len → len ≤ m.text.length → m.text.length < back.length + 2 →
    (ykpNdefAsText len m).1 = .fault) ∧
  (back.length ≤ len → back.length + 2 ≤ m.text.length →
    ykpNdefAsText len m = (.ok ⟨⟩, { m with text := stored m.text back }))

theorem readsBack_of {back : List UInt8} {len : ℕ}
    (hrefuse : len < back.length → ykpNdefAsText len m = onNdefYkp (ykpError .EINVAL) m)
    (hstore : back.length ≤ len → back.length ≤ m.text.length → ykpNdefAsText len m
      = storeText (back.length + 1) [0] { m with text := Buffer.store m.text 0 back }) :
    ReadsBack back m len := by
  refine ⟨hrefuse, fun hle hlen hshort => ?_, fun hle hroom => ?_⟩
  · have hfit : back.length ≤ m.text.length := Nat.le_trans hle hlen
    have hkeep : (Buffer.store m.text 0 back).length = m.text.length :=
      Buffer.length_store (by omega)
    rw [hstore hle hfit, storeText_fault]
    rw [hkeep]
    exact hshort
  · have hfit : back.length ≤ m.text.length := by omega
    have hkeep : (Buffer.store m.text 0 back).length = m.text.length :=
      Buffer.length_store (by omega)
    rw [hstore hle hfit, storeText_run]
    · rfl
    · rw [hkeep]
      exact hroom

theorem ndefPart_code {n : ℕ} (h : n ≤ 35) :
    ndefPart (UInt8.ofNat n) = (identifier n).map charByte := by
  cases n with
  | zero => rfl
  | succ n =>
    have hn : (UInt8.ofNat (n + 1)).toNat = n + 1 :=
      UInt8.toNat_ofNat_of_lt' (show n + 1 < 256 by omega)
    have hne : UInt8.ofNat (n + 1) ≠ 0 := fun h0 => by
      rw [h0] at hn
      exact absurd hn (by simp)
    rw [ndefPart, if_neg hne, hn]
    rfl

theorem length_identifier_le (n : ℕ) : (identifier n).length ≤ 26 := by
  have hall : ∀ e ∈ "" :: ndefIdentifiers, e.toList.length ≤ 26 := by decide
  cases n with
  | zero => decide
  | succ n =>
    refine hall _ ?_
    rcases Nat.lt_or_ge n ndefIdentifiers.length with h | h
    · rw [List.getD_eq_getElem _ _ h]
      exact List.mem_cons_of_mem _ (List.getElem_mem h)
    · rw [List.getD_eq_default _ _ h]
      exact List.mem_cons_self

theorem sizeT_ofInt {z : ℤ} {n : ℕ} (hz : z = n) (hn : n < 2 ^ 31) :
    sizeT (Int32.ofInt z) = n := by
  rw [hz, Int32.ofInt_eq_ofNat, sizeT_ofNat hn]

/-- A URI is the identifier and what is behind it. -/
theorem map_uri (uri : List Char) : uri.map charByte
    = (identifier (identifierCode uri)).map charByte
      ++ (NdefSource.remainder uri).map charByte := by
  rw [← List.map_append, NdefSource.remainder,
    List.prefix_iff_eq_append.1 (identifier_code_begins _)]

theorem uriAsText_run {uri : List Char} (len : ℕ)
    (h : (NdefSource.uri uri).bytes.length ≤ ndefDataSize)
    (hm : m.ndef = r.filled 'U' (NdefSource.uri uri).bytes) :
    ykpNdefAsText len m = (if (uri.map charByte).length > len
      then onNdefYkp (ykpError .EINVAL) else do
        storeText 0 ((identifier (identifierCode uri)).map charByte)
        let bytes ← readData 1 (NdefSource.remainder uri).length
        storeText ((identifier (identifierCode uri)).map charByte).length bytes
        storeText ((uri.map charByte).length + 1) [0]) m := by
  have htype : m.ndef.type = charByte 'U' := by rw [hm]; rfl
  have hfirst : m.ndef.data[0] = UInt8.ofNat (identifierCode uri) := by
    rw [hm]
    exact filled_head h
  have hcode : ¬ ndefIdentifiers.length < (UInt8.ofNat (identifierCode uri)).toNat := by
    have h35 : identifierCode uri ≤ 35 := identifierCode_le
    rw [UInt8.toNat_ofNat_of_lt' (show identifierCode uri < 256 by omega)]
    exact Nat.not_lt.2 h35
  have hbytes : (NdefSource.uri uri).bytes.length = (NdefSource.remainder uri).length + 1 := by
    rw [NdefSource.bytes, List.length_cons, List.length_map]
  have hlen : m.ndef.len.toNat = (NdefSource.remainder uri).length + 1 := by
    rw [hm, filled_len h, hbytes]
  have hrest : (NdefSource.remainder uri).length + 1 ≤ 54 := by rwa [hbytes] at h
  have hpart : ((identifier (identifierCode uri)).map charByte).length ≤ 26 := by
    rw [List.length_map]
    exact length_identifier_le _
  have hback : (uri.map charByte).length = ((identifier (identifierCode uri)).map charByte).length
      + (NdefSource.remainder uri).length := by
    rw [map_uri uri, List.length_append]
    exact congrArg (_ + ·) (List.length_map _)
  rw [ykpNdefAsText, Proc.get_bind_run, if_pos htype, uriAsText, Proc.get_bind_run, hfirst,
    if_neg hcode, ndefPart_code identifierCode_le, hlen, hback]
  generalize ((identifier (identifierCode uri)).map charByte) = part at hpart
  -- the sizes are computed without an overflow
  have hsize : (part.length + ((NdefSource.remainder uri).length + 1) + (2 ^ 64 - 1)) % 2 ^ 64
      = part.length + (NdefSource.remainder uri).length := by omega
  have hcount : sizeT (Int32.ofInt (((NdefSource.remainder uri).length + 1 : ℕ) - 1))
      = (NdefSource.remainder uri).length := sizeT_ofInt (by omega) (by omega)
  have hoff : (NdefSource.remainder uri).length + 1 + part.length
      = part.length + (NdefSource.remainder uri).length + 1 := by omega
  rw [hsize, hcount, hoff]

theorem uriAsText_reads {uri : List Char} {len : ℕ}
    (h : (NdefSource.uri uri).bytes.length ≤ ndefDataSize)
    (hm : m.ndef = r.filled 'U' (NdefSource.uri uri).bytes) :
    ReadsBack (uri.map charByte) m len := by
  have hrun := uriAsText_run len h hm
  have hback := map_uri uri
  set part := (identifier (identifierCode uri)).map charByte with hpart
  set rest := (NdefSource.remainder uri).map charByte with hrest
  have hbytes : (NdefSource.uri uri).bytes = UInt8.ofNat (identifierCode uri) :: rest := rfl
  have hdata : (m.ndef.data.toList.drop 1).take rest.length = rest := by
    rw [hm, filled_data h, hbytes, List.cons_append, List.drop_succ_cons, List.drop_zero,
      List.take_left]
  have hrest54 : rest.length + 1 ≤ 54 := by rwa [hbytes, List.length_cons] at h
  have hrestlen : (NdefSource.remainder uri).length = rest.length := (List.length_map _).symm
  rw [hrestlen] at hrun
  refine readsBack_of (fun hshort => ?_) fun hle hfit => ?_
  · rw [hrun, if_pos hshort]
  · rw [hrun, if_neg (Nat.not_lt.2 hle)]
    rw [hback, List.length_append] at hfit ⊢
    rw [Proc.bind_ok (storeText_run (by omega)),
      Proc.bind_ok (readData_run (show 1 + rest.length ≤ 54 by omega))]
    have hsecond : part.length + rest.length ≤ (Buffer.store m.text 0 part).length := by
      rw [Buffer.length_store (by omega)]
      exact hfit
    dsimp only
    rw [hdata, Proc.bind_ok (storeText_run hsecond), Buffer.store_store]

theorem textStatus_cases {lang : List Char} (isutf16 : Bool) (h : lang.length ≤ 53) :
    langLength (NdefSource.textStatus lang isutf16)
      = UInt8.ofNat (if isutf16 then 0 else lang.length) := by
  have hall : ∀ n ≤ 53, UInt8.ofNat n &&& 0x80 = 0 := by decide
  have hn := hall lang.length h
  cases isutf16 with
  | true =>
    rw [NdefSource.textStatus, if_pos rfl, if_pos rfl, hn]
    rfl
  | false =>
    rw [NdefSource.textStatus, if_neg Bool.false_ne_true, if_neg Bool.false_ne_true, langLength,
      if_neg (not_not.2 hn)]

theorem textAsText_reads {str lang : List Char} {isutf16 : Bool} {len : ℕ}
    (h : (NdefSource.text str lang isutf16).bytes.length ≤ ndefDataSize)
    (hm : m.ndef = r.filled 'T' (NdefSource.text str lang isutf16).bytes) :
    ReadsBack (NdefSource.text str lang isutf16).readBack m len := by
  set all := (lang ++ str).map charByte with hall
  set skipped := if isutf16 then 0 else lang.length with hskipped
  set back := (NdefSource.text str lang isutf16).readBack with hbackdef
  have hlang : lang.length ≤ all.length := by
    rw [hall, List.length_map, List.length_append]
    omega
  have hle : skipped ≤ all.length := by
    rw [hskipped]
    split_ifs <;> omega
  have hback : back = all.drop skipped := by
    rw [hbackdef, NdefSource.readBack, hall, hskipped]
    cases isutf16 with
    | true => rfl
    | false =>
      rw [if_neg Bool.false_ne_true, if_neg Bool.false_ne_true, ← List.map_drop, List.drop_left]
  have hbytes : (NdefSource.text str lang isutf16).bytes
    = NdefSource.textStatus lang isutf16 :: all := rfl
  have hall53 : all.length + 1 ≤ 54 := by rwa [hbytes, List.length_cons] at h
  have hbacklen : back.length = all.length - skipped := by rw [hback, List.length_drop]
  have hstatus : (langLength m.ndef.data[0]).toNat = skipped := by
    have hhead : m.ndef.data[0] = NdefSource.textStatus lang isutf16 := by
      rw [hm]
      exact filled_head h
    rw [hhead, textStatus_cases isutf16 (by omega)]
    exact UInt8.toNat_ofNat_of_lt' (show skipped < 256 by omega)
  have hlen : m.ndef.len.toNat = all.length + 1 := by
    rw [hm, filled_len h, hbytes, List.length_cons]
  have hdata : (m.ndef.data.toList.drop (skipped + 1)).take back.length = back := by
    rw [hm, filled_data h, hbytes, List.cons_append, List.drop_succ_cons,
      List.drop_append_of_le_length hle, ← hback, List.take_left]
  have hcount : sizeT (Int32.ofInt (m.ndef.len.toNat - skipped - 1)) = back.length :=
    sizeT_ofInt (by omega) (by omega)
  have hoff : m.ndef.len.toNat - skipped = back.length + 1 := by omega
  have hrun : ykpNdefAsText len m = (if back.length > len
      then onNdefYkp (ykpError .EINVAL) else do
        let bytes ← readData (skipped + 1) back.length
        storeText 0 bytes
        storeText (back.length + 1) [0]) m := by
    have htype : m.ndef.type = charByte 'T' := by rw [hm]; rfl
    have hnot : ¬ m.ndef.type = charByte 'U' := by
      rw [htype]
      decide
    rw [ykpNdefAsText, Proc.get_bind_run, if_neg hnot, if_pos htype, textAsText,
      Proc.get_bind_run, hstatus, hcount, hoff]
  refine readsBack_of (fun hshort => ?_) fun hle' hfit => ?_
  · rw [hrun, if_pos hshort]
  · have hread : skipped + 1 + back.length ≤ 54 := by omega
    rw [hrun, if_neg (Nat.not_lt.2 hle'), Proc.bind_ok (readData_run hread), hdata,
      Proc.bind_ok (storeText_run (by omega))]

/-- A record that was built reads what it was built from. -/
theorem asText_reads (src : NdefSource) {m m' : NdefState}
    (h : onNdef src.construct m = (.ok ⟨⟩, m')) (len : ℕ) : ReadsBack src.readBack m' len := by
  obtain ⟨hlen, rfl⟩ := construct_ok src h
  cases src with
  | uri uri => exact uriAsText_reads hlen rfl
  | text str lang isutf16 => exact textAsText_reads hlen rfl

theorem prefix_stored (text back : List UInt8) : back <+: stored text back := by
  rw [stored, Buffer.store_zero, Buffer.store, List.take_length_add_append, List.append_assoc,
    List.append_assoc]
  exact List.prefix_append _ _

/-- The byte behind the text stays in front of the terminator. -/
theorem stored_prefix {text back : List UInt8} (h : back.length + 2 ≤ text.length) :
    (back ++ [0]) <+: stored text back ↔ text[back.length]? = some 0 := by
  obtain ⟨b, rest, hdrop⟩ : ∃ b rest, text.drop back.length = b :: rest := by
    rw [← List.length_pos_iff_exists_cons]
    rw [List.length_drop]
    omega
  have hget : text[back.length]? = some b := by
    have h0 := congrArg (·[0]?) hdrop
    rwa [List.getElem?_drop, List.getElem?_cons_zero, Nat.add_zero] at h0
  have hstored : stored text back = back ++ b :: Buffer.store rest 0 [0] := by
    have hfirst : Buffer.store text 0 back = (back ++ [b]) ++ rest := by
      rw [Buffer.store_zero, hdrop, List.append_assoc, List.singleton_append]
    have hsecond := Buffer.store_append (back ++ [b]) rest [0]
    rw [List.length_append, List.length_singleton] at hsecond
    rw [stored, hfirst, hsecond, Buffer.store_zero]
    simp only [List.append_assoc, List.cons_append, List.nil_append]
  rw [hstored, hget, List.prefix_append_right_inj]
  constructor
  · rintro ⟨t, ht⟩
    rw [List.singleton_append, List.cons.injEq] at ht
    rw [← ht.1]
  · intro hb
    rw [Option.some.inj hb]
    exact ⟨_, rfl⟩

end Reading

/-! ## URIs -/

section Uri

variable {uri : List Char} {m m' : NdefState}

/-- A URI comes back terminated where the memory holds a zero behind it, if there is room for the
byte that is written further on. -/
theorem ndefUri_asText_iff (h : onNdef (ykpConstructNdefUri · uri) m = (.ok ⟨⟩, m'))
    (hsize : uri.length + 1 ≤ m.text.length) :
    (∃ m'', ykpNdefAsText m.text.length m' = (.ok ⟨⟩, m'') ∧
      (uri.map charByte ++ [0]) <+: m''.text) ↔
    uri.length + 2 ≤ m.text.length ∧ m.text[uri.length]? = some 0 := by
  have hread := asText_reads (.uri uri) h m.text.length
  have htext : m'.text = m.text := by
    rw [(construct_ok (.uri uri) h).2]
  have hlen : (NdefSource.uri uri).readBack.length = uri.length := by
    rw [NdefSource.readBack, List.length_map]
  obtain ⟨-, hfault, hok⟩ := hread
  rw [hlen, htext] at hfault hok
  by_cases hroom : uri.length + 2 ≤ m.text.length
  · have hrun := hok (by omega) hroom
    have hbegin : (uri.map charByte ++ [0]) <+: stored m.text (uri.map charByte) ↔ _ :=
      stored_prefix (by rw [List.length_map]; exact hroom)
    rw [List.length_map] at hbegin
    rw [and_iff_right hroom, ← hbegin, hrun]
    constructor
    · rintro ⟨m'', heq, hm''⟩
      obtain rfl := (Prod.mk.inj heq).2
      exact hm''
    · intro hm
      exact ⟨_, rfl, hm⟩
  · have hrun := hfault (by omega) (Nat.le_refl _) (by omega)
    refine iff_of_false ?_ fun hgood => hroom hgood.1
    rintro ⟨m'', heq, -⟩
    rw [heq] at hrun
    exact absurd hrun (by simp)

/-- Fresh records, and memory that holds `text`. -/
def ndefStart (text : List UInt8) : NdefState := ⟨⟨ykpAlloc, none⟩, ykpAllocNdef, text⟩

/-- Zeros are terminators already. -/
theorem ndefUri_asText_zeros :
    let m := ndefStart (List.replicate 12 0)
    ∃ m'', ykpNdefAsText 12 (onNdef (ykpConstructNdefUri · "http://a".toList) m).2 = (.ok ⟨⟩, m'') ∧
      ("http://a".toList.map charByte ++ [0]) <+: m''.text := by
  intro m
  have h : onNdef (ykpConstructNdefUri · "http://a".toList) m
      = (.ok ⟨⟩, (onNdef (ykpConstructNdefUri · "http://a".toList) m).2) := rfl
  exact (ndefUri_asText_iff h (by decide)).2 (by decide)

/-- Other memory shows behind the text. -/
theorem ndefUri_asText_unterminated :
    let m := (onNdef (ykpConstructNdefUri · "http://a".toList)
      (ndefStart (List.replicate 12 0x7a))).2
    (onNdef (ykpConstructNdefUri · "http://a".toList) (ndefStart (List.replicate 12 0x7a))).1
      = .ok ⟨⟩ ∧ (ykpNdefAsText 12 m).1 = .ok ⟨⟩ ∧
    (ykpNdefAsText 12 m).2.text = "http://az".toList.map charByte ++ [0, 0x7a, 0x7a] ∧
    ¬ ("http://a".toList.map charByte ++ [0]) <+: (ykpNdefAsText 12 m).2.text := by
  decide

/-- A URI record says the URI. -/
structure SaysUri (r : YkNdef) (uri : List Char) : Prop where
  type : r.type = charByte 'U'
  len : 1 ≤ r.len.toNat ∧ r.len.toNat ≤ 54
  data : ∃ c rest, c ≤ 35 ∧ r.data[0] = UInt8.ofNat c ∧ uri = identifier c ++ rest ∧
    r.content.drop 1 = rest.map charByte ∧ (c = 0 → ∀ e ∈ ndefIdentifiers, ¬ e.toList <+: uri)

theorem saysUri_filled {r : YkNdef} (h : (NdefSource.uri uri).bytes.length ≤ ndefDataSize) :
    SaysUri (r.filled 'U' (NdefSource.uri uri).bytes) uri := by
  refine ⟨rfl, ?_, identifierCode uri, NdefSource.remainder uri, identifierCode_le, filled_head h,
    (List.prefix_iff_eq_append.1 (identifier_code_begins _)).symm, ?_, identifierCode_eq_zero⟩
  · rw [filled_len h]
    exact ⟨Nat.succ_pos _, h⟩
  · rw [filled_content h]
    rfl

/-- The record is left as it is, or says the URI and is otherwise left as it is. -/
theorem ykpConstructNdefUri_format (uri : List Char) (m : NdefState) :
    onNdef (ykpConstructNdefUri · uri) m
      = (.fail, { m with ykp := { m.ykp with ykpErrno := some .EINVAL } }) ∨
    ∃ r : YkNdef, onNdef (ykpConstructNdefUri · uri) m = (.ok ⟨⟩, { m with ndef := r }) ∧
      SaysUri r uri ∧ r.curAccCode = m.ndef.curAccCode ∧
      r.data.toList.drop r.len.toNat = m.ndef.data.toList.drop r.len.toNat := by
  have hrun := construct_run (.uri uri) m
  by_cases hlong : ndefDataSize < (NdefSource.uri uri).bytes.length
  · rw [if_pos hlong] at hrun
    exact .inl hrun
  · rw [if_neg hlong] at hrun
    have hle : (NdefSource.uri uri).bytes.length ≤ ndefDataSize := Nat.not_lt.1 hlong
    refine .inr ⟨_, hrun, saysUri_filled hle, rfl, ?_⟩
    rw [filled_len hle]
    exact filled_drop hle

theorem construct_accepts (src : NdefSource) (m : NdefState) :
    (onNdef src.construct m).1 = .ok ⟨⟩ ↔ src.bytes.length ≤ ndefDataSize := by
  rw [construct_run]
  by_cases h : ndefDataSize < src.bytes.length
  · rw [if_pos h]
    exact iff_of_false (by simp) (Nat.not_le.2 h)
  · rw [if_neg h]
    exact iff_of_true rfl (Nat.not_lt.1 h)

theorem length_uri_bytes (uri : List Char) : (NdefSource.uri uri).bytes.length
    = uri.length - (identifier (identifierCode uri)).length + 1 := by
  simp only [NdefSource.bytes, NdefSource.remainder, List.length_cons, List.length_map,
    List.length_drop]

/-- A URI is accepted by what its identifier leaves. -/
theorem uri_accepted_iff (uri : List Char) (m : NdefState) :
    (onNdef (ykpConstructNdefUri · uri) m).1 = .ok ⟨⟩ ↔
      uri.length ≤ 53 + (identifier (identifierCode uri)).length := by
  have h := construct_accepts (.uri uri) m
  rw [length_uri_bytes] at h
  refine h.trans (?_ : _ + 1 ≤ 54 ↔ _)
  omega

/-- No identifier that the URI begins with is longer than the selected one. -/
def SelectsLongest (uri : List Char) : Prop :=
  ∀ e ∈ ndefIdentifiers, e.toList <+: uri → e.length ≤ (identifier (identifierCode uri)).length

/-- An identifier, or none, leaves a remainder that a record has room for. -/
def Fits (uri : List Char) : Prop :=
  ∃ e ∈ "" :: ndefIdentifiers, e.toList <+: uri ∧ uri.length ≤ 53 + e.length

/-- The identifiers behind `urn:` that begin with it. -/
def hiddenIdentifiers : List String := ndefIdentifiers.drop 29

/-- The URI begins with a hidden identifier. -/
def Hidden (uri : List Char) : Prop := "urn:epc:".toList <+: uri ∨ "urn:nfc:".toList <+: uri

theorem hidden_iff : Hidden uri ↔ ∃ e ∈ hiddenIdentifiers, e.toList <+: uri := by
  constructor
  · rintro (h | h)
    · exact ⟨"urn:epc:", by decide, h⟩
    · exact ⟨"urn:nfc:", by decide, h⟩
  · rintro ⟨e, he, h⟩
    have hall : ∀ e ∈ hiddenIdentifiers, "urn:epc:".toList <+: e.toList ∨
        "urn:nfc:".toList <+: e.toList := by decide
    exact (hall e he).imp (List.IsPrefix.trans · h) (List.IsPrefix.trans · h)

/-- The URI is abbreviated by `urn:`. -/
theorem identifierIndex_hidden (h : Hidden uri) : identifierIndex uri = 18 := by
  rcases h with ⟨t, rfl⟩ | ⟨t, rfl⟩
  · rfl
  · rfl

theorem identifier_hidden (h : Hidden uri) :
    identifier (identifierCode uri) = "urn:".toList := by
  rw [identifier_code_toList, identifierIndex_hidden h]
  rfl

/-- Of two identifiers that a URI begins with, the second is no longer, unless it is hidden. -/
theorem selectsLongest_of_not_hidden (h : ¬ Hidden uri) : SelectsLongest uri := by
  intro e he hbegin
  obtain ⟨j, hj, rfl⟩ := List.getElem_of_mem he
  rw [← List.getD_eq_getElem _ "" hj] at hbegin ⊢
  have hle : identifierIndex uri ≤ j := by
    by_contra hlt
    have hno := List.not_of_lt_findIdx (Nat.not_le.1 hlt)
    rw [List.getD_eq_getElem _ "" hj, ← List.isPrefixOf_iff_prefix, hno] at hbegin
    exact Bool.false_ne_true hbegin
  have hlast : j < 29 := by
    by_contra hj29
    have htable : ∀ j < 35, 29 ≤ j → ndefIdentifiers.getD j "" ∈ hiddenIdentifiers := by decide
    exact h (hidden_iff.2 ⟨_, htable j hj (Nat.not_lt.1 hj29), hbegin⟩)
  have hselected := identifier_code_begins uri
  rw [identifier_code_toList] at hselected ⊢
  rcases Nat.eq_or_lt_of_le hle with heq | hlt
  · refine Nat.le_of_eq ?_
    rw [heq, String.length_toList]
  · have htable : ∀ j < 29, ∀ i < j, ¬ (ndefIdentifiers.getD i "").toList
        <+: (ndefIdentifiers.getD j "").toList := by decide
    have hcompare := List.prefix_or_prefix_of_prefix hbegin hselected
    rcases hcompare with hshorter | hlonger
    · rw [← String.length_toList]
      exact hshorter.length_le
    · exact absurd hlonger (htable j hlast _ hlt)

theorem not_selectsLongest_of_hidden (h : Hidden uri) : ¬ SelectsLongest uri := by
  intro hlongest
  unfold SelectsLongest at hlongest
  rw [identifier_hidden h] at hlongest
  rcases h with h | h
  · exact absurd (hlongest "urn:epc:" (by decide) h) (by decide)
  · exact absurd (hlongest "urn:nfc:" (by decide) h) (by decide)

/-- Each identifier in front of the hidden ones is the first that it begins with. -/
theorem selected_iff {i : ℕ} (hi : i < 35) : (∃ uri, identifierIndex uri = i) ↔ i < 29 := by
  constructor
  · rintro ⟨uri, hindex⟩
    by_contra h29
    have htable : ∀ i < 35, 29 ≤ i → ndefIdentifiers.getD i "" ∈ hiddenIdentifiers := by decide
    have hbegin := identifier_code_begins uri
    rw [identifier_code_toList, hindex] at hbegin
    have hhidden := hidden_iff.2 ⟨_, htable i hi (Nat.not_lt.1 h29), hbegin⟩
    rw [identifierIndex_hidden hhidden] at hindex
    omega
  · intro h29
    have htable : ∀ i < 29, identifierIndex (ndefIdentifiers.getD i "").toList = i := by decide
    exact ⟨_, htable i h29⟩

theorem mem_hidden_or_short (h : Hidden uri) {e : String} (he : e ∈ "" :: ndefIdentifiers)
    (hbegin : e.toList <+: uri) : e ∈ hiddenIdentifiers ∨ e.length ≤ 4 := by
  have htable : ∀ p ∈ ["urn:epc:", "urn:nfc:"], ∀ e ∈ "" :: ndefIdentifiers,
      (e.toList <+: p.toList ∨ p.toList <+: e.toList) → e ∈ hiddenIdentifiers ∨ e.length ≤ 4 := by
    decide
  rcases h with h | h
  · exact htable "urn:epc:" (by decide) e he (List.prefix_or_prefix_of_prefix hbegin h)
  · exact htable "urn:nfc:" (by decide) e he (List.prefix_or_prefix_of_prefix hbegin h)

/-- What some identifier makes fit is refused where the identifier is hidden and the URI is too
long for `urn:`. -/
theorem fits_accepted_iff (uri : List Char) (m : NdefState) :
    (Fits uri → (onNdef (ykpConstructNdefUri · uri) m).1 = .ok ⟨⟩) ↔
      ¬ ∃ e ∈ hiddenIdentifiers, e.toList <+: uri ∧ 57 < uri.length ∧
        uri.length ≤ 53 + e.length := by
  rw [uri_accepted_iff]
  constructor
  · rintro haccept ⟨e, he, hbegin, hlong, hfits⟩
    have hurn := identifier_hidden (hidden_iff.2 ⟨e, he, hbegin⟩)
    have hle := haccept ⟨e, List.mem_cons_of_mem _ (List.mem_of_mem_drop he), hbegin, hfits⟩
    rw [hurn] at hle
    exact absurd hle (Nat.not_le.2 hlong)
  · rintro hshort ⟨e, he, hbegin, hfits⟩
    by_cases hhidden : Hidden uri
    · rw [identifier_hidden hhidden]
      refine Nat.not_lt.1 fun (hlong : 57 < uri.length) => hshort ⟨e, ?_, hbegin, hlong, hfits⟩
      exact (mem_hidden_or_short hhidden he hbegin).resolve_right (by omega)
    · have hlongest := selectsLongest_of_not_hidden hhidden
      rcases List.mem_cons.1 he with rfl | hmem
      · exact Nat.le_add_right_of_le hfits
      · have := hlongest e hmem hbegin
        omega

/-- A URI is abbreviated by the longest identifier unless it begins with a hidden one, and is then
refused if it is too long for `urn:`. The hidden ones are never selected. -/
theorem uri_abbreviation (uri : List Char) (m : NdefState) :
    let accepted := (onNdef (ykpConstructNdefUri · uri) m).1 = .ok ⟨⟩
    (SelectsLongest uri ∧ (Fits uri → accepted) ↔ ¬ Hidden uri) ∧
    ((Fits uri → accepted) ↔ ¬ ∃ e ∈ hiddenIdentifiers, e.toList <+: uri ∧ 57 < uri.length ∧
      uri.length ≤ 53 + e.length) ∧
    (∀ i < 35, (∃ u, identifierIndex u = i) ↔ i < 29) := by
  intro accepted
  have haccepted := fits_accepted_iff uri m
  refine ⟨⟨fun h hh => not_selectsLongest_of_hidden hh h.1, fun h => ?_⟩, haccepted,
    fun i => selected_iff⟩
  refine ⟨selectsLongest_of_not_hidden h, haccepted.2 ?_⟩
  rintro ⟨e, he, hbegin, -⟩
  exact h (hidden_iff.2 ⟨e, he, hbegin⟩)

/-- What `urn:epc:id:` leaves of the URI would fit. -/
theorem uri_refused_of_hidden :
    let uri := "urn:epc:id:".toList ++ List.replicate 49 'a'
    Fits uri ∧ ¬ SelectsLongest uri ∧
      (onNdef (ykpConstructNdefUri · uri) (ndefStart [])).1 = .fail ∧
      ¬ ∃ uri, identifierIndex uri = 29 := by
  have hbegin : "urn:epc:id:".toList <+: "urn:epc:id:".toList ++ List.replicate 49 'a' :=
    List.prefix_append _ _
  have hhidden : Hidden ("urn:epc:id:".toList ++ List.replicate 49 'a') :=
    .inl (List.IsPrefix.trans (by decide) hbegin)
  exact ⟨⟨"urn:epc:id:", by decide, hbegin, by decide⟩, not_selectsLongest_of_hidden hhidden,
    by decide, fun h => absurd ((selected_iff (by decide)).1 h) (by decide)⟩

end Uri

/-! ## Texts -/

section Text

/-- The rule of the format: the encoding, the language and the text. -/
def nfcText (r : YkNdef) : Option (Bool × List UInt8 × List UInt8) :=
  match r.content with
  | [] => none
  | status :: rest =>
    let n := (status &&& 0x3f).toNat
    if n ≤ rest.length then some (status &&& 0x80 ≠ 0, rest.take n, rest.drop n) else none

/-- What a call that builds a text record is to do. -/
structure TextFormat (str lang : List Char) (isutf16 : Bool) (m : NdefState) : Prop where
  accepts : (onNdef (ykpConstructNdefText · str lang isutf16) m).1 = .ok ⟨⟩ ↔
    str.length + lang.length + 1 ≤ 54
  decodes : ∀ m', onNdef (ykpConstructNdefText · str lang isutf16) m = (.ok ⟨⟩, m') →
    nfcText m'.ndef = some (isutf16, lang.map charByte, str.map charByte)
  reads : ∀ m', onNdef (ykpConstructNdefText · str lang isutf16) m = (.ok ⟨⟩, m') →
    str.length + 2 ≤ m.text.length → (ykpNdefAsText m.text.length m').1 = .ok ⟨⟩ ∧
      str.map charByte <+: (ykpNdefAsText m.text.length m').2.text
  refuses : (onNdef (ykpConstructNdefText · str lang isutf16) m).1 ≠ .ok ⟨⟩ →
    (onNdef (ykpConstructNdefText · str lang isutf16) m).1 = .fail ∧
      (onNdef (ykpConstructNdefText · str lang isutf16) m).2.ndef = m.ndef

variable {str lang : List Char} {isutf16 : Bool} {m m' : NdefState}

theorem length_text_bytes (str lang : List Char) (isutf16 : Bool) :
    (NdefSource.text str lang isutf16).bytes.length = str.length + lang.length + 1 := by
  simp only [NdefSource.bytes, List.length_cons, List.length_map, List.length_append]
  omega

/-- The flag is not kept, and the length of the language only without it. -/
theorem nfcText_built (h : str.length + lang.length + 1 ≤ 54) (r : YkNdef) :
    nfcText (r.filled 'T' (NdefSource.text str lang isutf16).bytes)
      = some (false, if isutf16 then ([], (lang ++ str).map charByte)
        else (lang.map charByte, str.map charByte)) := by
  have hlen : (NdefSource.text str lang isutf16).bytes.length ≤ ndefDataSize := by
    rw [length_text_bytes]
    exact h
  have hlow : ∀ n ≤ 53, (UInt8.ofNat n &&& 0x3f).toNat = n ∧ UInt8.ofNat n &&& 0x80 = 0 := by
    decide
  obtain ⟨hcount, hflag⟩ := hlow lang.length (by omega)
  rw [nfcText, filled_content hlen]
  cases isutf16 with
  | true =>
    have hstatus : NdefSource.textStatus lang true = 0 := hflag
    simp only [NdefSource.bytes, hstatus]
    rfl
  | false =>
    have hstatus : NdefSource.textStatus lang false = UInt8.ofNat lang.length := rfl
    have hfit : lang.length ≤ ((lang ++ str).map charByte).length := by
      rw [List.length_map, List.length_append]
      omega
    simp only [NdefSource.bytes, hstatus, hcount, hflag, if_pos hfit]
    rw [← List.map_take, ← List.map_drop, List.take_left, List.drop_left]
    rfl

/-- A text record follows the format unless its text is UTF-16 and fits. -/
theorem ykpConstructNdefText_format_iff (str lang : List Char) (isutf16 : Bool) (m : NdefState) :
    TextFormat str lang isutf16 m ↔ isutf16 = false ∨ 54 < str.length + lang.length + 1 := by
  have haccepts := construct_accepts (.text str lang isutf16) m
  rw [length_text_bytes] at haccepts
  have hrun := construct_run (.text str lang isutf16) m
  rw [length_text_bytes] at hrun
  constructor
  · intro h
    by_contra hbad
    obtain ⟨hutf, hfit⟩ := not_or.1 hbad
    rw [Bool.not_eq_false] at hutf
    rw [if_neg hfit] at hrun
    have hdecodes := (nfcText_built (Nat.not_lt.1 hfit) m.ndef).symm.trans (h.decodes _ hrun)
    rw [hutf, Option.some.injEq, Prod.mk.injEq] at hdecodes
    exact Bool.false_ne_true hdecodes.1
  · intro h
    refine ⟨haccepts, fun m' hm' => ?_, fun m' hm' hroom => ?_, fun hne => ?_⟩
    · obtain ⟨hlen, rfl⟩ := construct_ok (.text str lang isutf16) hm'
      rw [length_text_bytes] at hlen
      obtain rfl := h.resolve_right (Nat.not_lt.2 hlen)
      exact nfcText_built hlen _
    · have hread := (asText_reads (.text str lang isutf16) hm' m.text.length).2.2
      obtain ⟨hlen, rfl⟩ := construct_ok (.text str lang isutf16) hm'
      rw [length_text_bytes] at hlen
      obtain rfl := h.resolve_right (Nat.not_lt.2 hlen)
      have hback : (NdefSource.text str lang false).readBack = str.map charByte := rfl
      rw [hback, List.length_map] at hread
      rw [hread (by omega) hroom]
      exact ⟨rfl, prefix_stored _ _⟩
    · have hlong : 54 < str.length + lang.length + 1 := Nat.not_le.1 fun hle =>
        hne (haccepts.2 hle)
      rw [if_pos hlong] at hrun
      change onNdef (ykpConstructNdefText · str lang isutf16) m = _ at hrun
      rw [hrun]
      exact ⟨rfl, rfl⟩

/-- The flag is dropped, and the language is read as text. -/
theorem textFormat_utf16 :
    let m := ndefStart (List.replicate 8 0)
    let m' := (onNdef (ykpConstructNdefText · "abc".toList "en".toList true) m).2
    ¬ TextFormat "abc".toList "en".toList true m ∧
      (onNdef (ykpConstructNdefText · "abc".toList "en".toList true) m).1 = .ok ⟨⟩ ∧
      nfcText m'.ndef = some (false, [], "enabc".toList.map charByte) ∧
      (ykpNdefAsText 8 m').2.text = "enabc".toList.map charByte ++ [0, 0, 0] := by
  refine ⟨fun h => ?_, by decide, by decide, by decide⟩
  have hdecodes := h.decodes _ rfl
  exact absurd hdecodes (by decide)

end Text

/-! ## The memory of the caller -/

section Memory

variable {src : NdefSource} {m m' : NdefState}

/-- The memory ends where the caller says, and no access is behind its end; what does not fit with
its terminator is refused. -/
def StaysInside (back : List UInt8) (m : NdefState) : Prop :=
  (ykpNdefAsText m.text.length m).1 ≠ .fault ∧
  (m.text.length < back.length + 1 → ykpNdefAsText m.text.length m
    = (.fail, { m with ykp := { m.ykp with ykpErrno := some .EINVAL } }))

/-- The text of a record that was built stays inside of the memory unless there is room for the text
and for no more than one byte behind it. -/
theorem ndefAsText_inside_iff (h : onNdef src.construct m = (.ok ⟨⟩, m')) :
    StaysInside src.readBack m' ↔
      m.text.length < src.readBack.length ∨ src.readBack.length + 2 ≤ m.text.length := by
  obtain ⟨hrefuse, hfault, hok⟩ := asText_reads src h m'.text.length
  have htext : m'.text = m.text := by rw [(construct_ok src h).2]
  unfold StaysInside
  rw [htext] at hrefuse hfault hok ⊢
  constructor
  · rintro ⟨hinside, -⟩
    by_contra hbad
    have hrun := hfault (by omega) (Nat.le_refl _) (by omega)
    exact hinside hrun
  · rintro (hshort | hroom)
    · have hrun := hrefuse hshort
      exact ⟨by rw [hrun]; simp, fun _ => hrun⟩
    · have hrun := hok (by omega) hroom
      exact ⟨by rw [hrun]; simp, fun hshort => absurd hshort (by omega)⟩

theorem ndefAsText_inside_room :
    let m := ndefStart (List.replicate 10 0x7a)
    StaysInside ("http://a".toList.map charByte)
      (onNdef (ykpConstructNdefUri · "http://a".toList) m).2 := by
  intro m
  have h : onNdef (NdefSource.uri "http://a".toList).construct m
      = (.ok ⟨⟩, (onNdef (ykpConstructNdefUri · "http://a".toList) m).2) := rfl
  exact (ndefAsText_inside_iff h).2 (by decide)

/-- With room for the text and its terminator, the terminator is put behind the end. -/
theorem ndefAsText_outside :
    let m := ndefStart (List.replicate 9 0x7a)
    (onNdef (ykpConstructNdefUri · "http://a".toList) m).1 = .ok ⟨⟩ ∧
      ¬ StaysInside ("http://a".toList.map charByte)
        (onNdef (ykpConstructNdefUri · "http://a".toList) m).2 := by
  exact ⟨by decide, fun h => h.1 (by decide)⟩

end Memory

end YkPers
