import YkPers.Lib.Buffer
import YkPers.Ykpers

/-!
# NDEF records and device configurations of `ykpers.c`

Both are all zeros when they are allocated, and filled in from the arguments of the command line.
A record that is read as text is behind a pointer, and so is the memory that the text is stored in:
an access outside of either is a fault.
-/

namespace YkPers

open Proc (get modify fail fault)

def ndefIdentifiers : List String :=
  ["http://www.", "https://www.", "http://", "https://", "tel:", "mailto:",
   "ftp://anonymous:anonymous@", "ftp://ftp.", "ftps://", "sftp://", "smb://", "nfs://", "ftp://",
   "dav://", "news:", "telnet://", "imap:", "rtsp://", "urn:", "pop:", "sip:", "sips:", "tftp:",
   "btspp://", "btl2cap://", "btgoep://", "tcpobex://", "irdaobex://", "file://", "urn:epc:id:",
   "urn:epc:tag:", "urn:epc:pat:", "urn:epc:raw:", "urn:epc:", "urn:nfc:"]

def ykpAllocNdef : YkNdef where
  len := 0
  type := 0
  data := Vector.replicate _ 0
  curAccCode := Vector.replicate _ 0

def charByte (c : Char) : UInt8 := UInt8.ofNat c.toNat

/-- The record with `bytes` at the front of its data. -/
def YkNdef.filled (ndef : YkNdef) (type : Char) (bytes : List UInt8) : YkNdef :=
  { ndef with
    data := charfield _ (Buffer.store ndef.data.toList 0 bytes)
    len := UInt8.ofNat bytes.length
    type := charByte type }

/-- A known beginning is left out and counted in the first byte. -/
def ykpConstructNdefUri (ndef : YkNdef) (uri : List Char) : Proc YkpState YkNdef :=
  let indx := ndefIdentifiers.findIdx fun identifier => identifier.toList.isPrefixOf uri
  let uri := uri.drop (ndefIdentifiers.getD indx "").length
  if uri.length + 1 > ndefDataSize then do
    ykpError .EINVAL
    pure ndef
  else
    let first := if indx = ndefIdentifiers.length then 0 else UInt8.ofNat (indx + 1)
    pure (ndef.filled 'U' (first :: uri.map charByte))

def ykpConstructNdefText (ndef : YkNdef) (text lang : List Char) (isutf16 : Bool) :
    Proc YkpState YkNdef :=
  let status := UInt8.ofNat lang.length
  let status := if isutf16 then status &&& 0x80 else status
  if text.length + lang.length + 1 > ndefDataSize then do
    ykpError .EINVAL
    pure ndef
  else pure (ndef.filled 'T' (status :: (lang ++ text).map charByte))

/-! ## Records as text -/

/-- The record behind `ndef` and the memory at `text`. -/
structure NdefState where
  ykp : YkpState
  ndef : YkNdef
  text : List UInt8

def onNdefYkp {α : Type} (x : Proc YkpState α) : Proc NdefState α :=
  Proc.zoom NdefState.ykp (fun y s => { s with ykp := y }) x

/-- A call that fills in the record, whose first write is behind its last check. -/
def onNdef (f : YkNdef → Proc YkpState YkNdef) : Proc NdefState Unit := do
  let s ← get
  let ndef ← onNdefYkp (f s.ndef)
  modify fun s => { s with ndef := ndef }

/-- What `memcpy` reads from the data of the record. -/
def readData (off n : ℕ) : Proc NdefState (List UInt8) := do
  let s ← get
  if off + n ≤ ndefDataSize then pure ((s.ndef.data.toList.drop off).take n) else fault

def storeText (off : ℕ) (bytes : List UInt8) : Proc NdefState Unit := do
  let s ← get
  if off + bytes.length ≤ s.text.length then
    modify fun s => { s with text := Buffer.store s.text off bytes }
  else fault

/-- The beginning that the first byte stands for. -/
def ndefPart (first : UInt8) : List UInt8 :=
  if first = 0 then [] else (ndefIdentifiers.getD (first.toNat - 1) "").toList.map charByte

def uriAsText (len : ℕ) : Proc NdefState Unit := do
  let s ← get
  let first := s.ndef.data[0]
  -- behind the end of the table
  if ndefIdentifiers.length < first.toNat then fault
  else do
    let part := ndefPart first
    let size := (part.length + s.ndef.len.toNat + (2 ^ 64 - 1)) % 2 ^ 64
    if size > len then onNdefYkp (ykpError .EINVAL)
    else do
      storeText 0 part
      let bytes ← readData 1 (sizeT (Int32.ofInt (s.ndef.len.toNat - 1)))
      storeText part.length bytes
      storeText (s.ndef.len.toNat + part.length) [0]

/-- The length of the language, which is the status without its highest bit. -/
def langLength (status : UInt8) : UInt8 := if status &&& 0x80 ≠ 0 then status ^^^ 0x80 else status

def textAsText (len : ℕ) : Proc NdefState Unit := do
  let s ← get
  let status := langLength s.ndef.data[0]
  let size := sizeT (Int32.ofInt (s.ndef.len.toNat - status.toNat - 1))
  if size > len then onNdefYkp (ykpError .EINVAL)
  else do
    let bytes ← readData (status.toNat + 1) size
    storeText 0 bytes
    storeText (s.ndef.len.toNat - status.toNat) [0]

/-- `ykp_ndef_as_text`; `len` is what the caller says of the memory. -/
def ykpNdefAsText (len : ℕ) : Proc NdefState Unit := do
  let s ← get
  if s.ndef.type = charByte 'U' then uriAsText len
  else if s.ndef.type = charByte 'T' then textAsText len
  else fail

/-! ## Fields -/

/-- The code is stored and 0 returned; 1 would be returned for a null pointer. -/
def ykpSetNdefAccessCode (ndef : YkNdef) (accessCode : List UInt8) : YkNdef × ℕ :=
  ({ ndef with curAccCode := charfield _ accessCode }, 0)

def ykpAllocDeviceConfig : YkDeviceConfig := ⟨0, 0, 0⟩

def ykpSetDeviceMode (d : YkDeviceConfig) (mode : UInt8) : YkDeviceConfig := { d with mode := mode }

def ykpSetDeviceChalrespTimeout (d : YkDeviceConfig) (timeout : UInt8) : YkDeviceConfig :=
  { d with crTimeout := timeout }

def ykpSetDeviceAutoejectTime (d : YkDeviceConfig) (ejectTime : UInt16) : YkDeviceConfig :=
  { d with autoEjectTime := ejectTime }

end YkPers
