import YkPers.Backend

/-!
# The libusb-1.0 backend

`_ykusb_read` and `_ykusb_write` of `ykcore_libusb-1.0.c` over what libusb's calls return. Each
claims the interface, makes one control transfer and releases the interface; an error of the
transfer is kept over one of the release. Both store a code in `yk_errno` whenever they fail.
-/

namespace YkPers

/-- The libusb calls, over the device states `σ`: their return codes, and the bytes a control
transfer from the device puts into the buffer. -/
structure Libusb (σ : Type) where
  claimInterface : σ → Int × σ
  controlTransferIn : σ → (Int × List UInt8) × σ
  controlTransferOut : Report → σ → Int × σ
  releaseInterface : σ → Int × σ

variable {σ : Type}

/-- `ykl_errno` after a transfer that returned `rc` and a release that returned `rc2`. -/
def keepError (rc rc2 : Int) : Int := if 0 < rc ∧ rc2 < 0 then rc2 else rc

def Libusb.ykusbWrite (L : Libusb σ) (r : Report) (d : σ) : Except (Option YkErr) Unit × σ :=
  let (claim, d) := L.claimInterface d
  let (yklErrno, d) :=
    if claim = 0 then
      let (rc, d) := L.controlTransferOut r d
      let (rc2, d) := L.releaseInterface d
      (keepError rc rc2, d)
    else (claim, d)
  if 0 < yklErrno then (.ok (), d) else (.error (some .EUSBERR), d)

/-- The caller's buffer is all zeros, and a transfer may bring fewer bytes than a report has. -/
def Libusb.ykusbRead (L : Libusb σ) (d : σ) : Except (Option YkErr) Report × σ :=
  let (claim, d) := L.claimInterface d
  let (yklErrno, bytes, d) :=
    if claim = 0 then
      let ((rc, bytes), d) := L.controlTransferIn d
      let (rc2, d) := L.releaseInterface d
      (keepError rc rc2, bytes, d)
    else (claim, [], d)
  if 0 < yklErrno then (.ok (.ofBytes bytes), d)
  else if yklErrno = 0 then (.error (some .ENODATA), d)
  else (.error (some .EUSBERR), d)

def Libusb.backend (L : Libusb σ) : Backend σ := ⟨L.ykusbRead, L.ykusbWrite⟩

theorem Libusb.setsErrno (L : Libusb σ) : L.backend.SetsErrno := by
  constructor
  · intro d
    simp only [Libusb.backend, Libusb.ykusbRead]
    split_ifs <;> simp
  · intro r d
    simp only [Libusb.backend, Libusb.ykusbWrite]
    split_ifs <;> simp

end YkPers
