import YkPers.Lib.Crc
import YkPers.Ykcore

/-!
# The checksum

The CRC that libyubikey documents, the reflected CRC-16 of polynomial `0x8408` from `0xffff`. A
message with its inverted checksum after it leaves `ykCrcOkResidual`, whatever the message.
-/

namespace YkPers

def crc16 (bytes : List UInt8) : UInt16 :=
  ⟨Crc.crc 0x8408#16 0xffff#16 (bytes.map UInt8.toBitVec)⟩

theorem map_bytes16 (x : UInt16) :
    (Endian.little.bytes16 x).map UInt8.toBitVec = Crc.leBytes (w := 16) 2 x.toBitVec := by
  simp [Endian.bytes16, Crc.leBytes]

/-- The residue of a message that is followed by its own checksum. -/
theorem crc16_append_complement (bytes : List UInt8) :
    crc16 (bytes ++ Endian.little.bytes16 (~~~ crc16 bytes)) = ykCrcOkResidual := by
  have hcompl : (~~~ crc16 bytes).toBitVec
      = Crc.crc 0x8408#16 0xffff#16 (bytes.map UInt8.toBitVec) ^^^ 0xffff#16 := by
    rw [UInt16.toBitVec_not, crc16, show (0xffff#16) = BitVec.allOnes 16 from rfl,
      BitVec.xor_allOnes]
  have h := Crc.crc_append_leBytes (k := 2) 0x8408#16 0xffff#16 0xffff#16
    (bytes.map UInt8.toBitVec)
  apply UInt16.toBitVec_inj.1
  rw [crc16, List.map_append, map_bytes16, hcompl]
  have hmask : Crc.shifts 0x8408#16 (8 * 2) 0xffff#16 = ykCrcOkResidual.toBitVec := by
    decide +kernel
  exact h.trans hmask

end YkPers
