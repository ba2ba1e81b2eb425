import YkPers.Backend

/-!
# A key with a script

A key that gives its replies one after the other, and reassembles the frame it is sent. Once its
replies are spent a read fails.
-/

namespace YkPers

structure ScriptedKey where
  frame : List UInt8
  replies : List Report
  deriving DecidableEq

namespace ScriptedKey

/-- The number of the part a report carries. -/
def seqOf (r : Report) : ℕ := (r.status ^^^ slotWriteFlag).toNat

def place (r : Report) (frame : List UInt8) : List UInt8 :=
  if seqOf r < 10 then
    Buffer.store (if seqOf r = 0 then List.replicate 70 0 else frame) (7 * seqOf r) r.data
  else
    frame

def backend : Backend ScriptedKey where
  ykusbRead k :=
    match k.replies with
    | [] => (.error (some .ENODATA), k)
    | r :: rs => (.ok r, { k with replies := rs })
  ykusbWrite r k := (.ok (), { k with frame := place r k.frame })

def host (endian : Endian) (crc16 : List UInt8 → UInt16) : Host ScriptedKey :=
  { backend with endian := endian, yubikeyCrc16 := crc16 }

def session (replies : List Report) : World ScriptedKey := ⟨⟨[], replies⟩, none, []⟩

def statusReport (status : UInt8) : Report := Report.ofBytes [0, 0, 0, 0, 0, 0, 0, status]

/-- A report of a key of version 4.3.2 with the programming sequence and the touch level. -/
def keyReport (pgmSeq touchLevel : UInt8) : Report :=
  Report.ofBytes [0, 4, 3, 2, pgmSeq, touchLevel, 0, 0]

theorem serves (endian : Endian) (crc16 : List UInt8 → UInt16) (frame : List UInt8) :
    ∀ rs : List Report, (host endian crc16).Serves ⟨frame, rs⟩ rs ⟨frame, []⟩
  | [] => rfl
  | _ :: rs => ⟨⟨frame, rs⟩, rfl, serves endian crc16 frame rs⟩

theorem setsErrno : backend.SetsErrno where
  read d := by
    rcases d with ⟨f, _ | ⟨r, rs⟩⟩ <;> simp [backend]
  write _ _ := by simp [backend]

end ScriptedKey

end YkPers
