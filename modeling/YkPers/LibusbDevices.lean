import YkPers.Libusb
import YkPers.Ykpersonalize

/-!
# Devices of the libusb-1.0 backend

How `ykcore_libusb-1.0.c` finds a device, opens it and lets it go, over what libusb's calls return.
`δ` are the devices and `τ` is the state of the library; an open handle is the device it is for.
Freeing the list of devices is left out.
-/

namespace YkPers

structure DeviceDescriptor where
  idVendor : ℕ
  idProduct : ℕ
  deriving DecidableEq

/-- libusb's calls: their return codes and what they store. A device list that cannot be got is
empty; `stray` is any call on a handle that is not there. -/
structure LibusbBus (δ τ : Type) where
  libusbInit : τ → Int × τ
  libusbExit : τ → τ
  getDeviceList : τ → List δ × τ
  getDeviceDescriptor : δ → τ → (Int × DeviceDescriptor) × τ
  libusbOpen : δ → τ → Int × τ
  kernelDriverActive : δ → τ → Int × τ
  detachKernelDriver : δ → τ → Int × τ
  attachKernelDriver : δ → τ → τ
  getConfiguration : δ → τ → (Int × Int) × τ
  setConfiguration : δ → (configuration : Int) → τ → Int × τ
  libusbClose : δ → τ → τ
  transfers : δ → Libusb τ
  stray : τ → τ

/-- `libusb_inited`, and the device of the handle that the caller holds. -/
structure LibusbSession (δ τ : Type) where
  lib : τ
  inited : Bool
  handle : Option δ

/-- The product ids that `yk_open_key` looks for; the last is of another vendor. -/
def ykPids : List ℕ :=
  [0x0010, 0x0110, 0x0111, 0x0114, 0x0116, 0x0401, 0x0403, 0x0405, 0x0407, 0x0410, 0x60fc]

namespace LibusbBus

variable {δ τ : Type} (B : LibusbBus δ τ)

/-- The inner loop: `found` and `dev` behind it. -/
def scanPids (x : δ) (idProduct : ℕ) (index : ℤ) : List ℕ → ℕ → Option δ → ℕ × Option δ
  | [], found, dev => (found, dev)
  | pid :: pids, found, dev =>
    if idProduct = pid then
      if (found : ℤ) = index then (found + 1, some x)
      else scanPids x idProduct index pids (found + 1) dev
    else scanPids x idProduct index pids found dev

/-- The loop over the list; `none` is the jump behind a descriptor that cannot be read. -/
def scanDevices (vendorId : ℕ) (index : ℤ) : List δ → ℕ → Option δ → τ → Option (Option δ) × τ
  | [], _, dev, t => (some dev, t)
  | x :: xs, found, dev, t =>
    let ((rc, desc), t) := B.getDeviceDescriptor x t
    if rc ≠ 0 then (none, t)
    else if desc.idVendor = vendorId then
      let p := scanPids x desc.idProduct index ykPids found dev
      scanDevices vendorId index xs p.1 p.2 t
    else scanDevices vendorId index xs found dev t

/-- The configuration wanted is 1. -/
def configure (x : δ) (t : τ) : τ :=
  let ((rc, currentCfg), t) := B.getConfiguration x t
  if rc ≠ 0 then t
  else if (1 : Int) ≠ currentCfg then (B.setConfiguration x 1 t).2
  else t

/-- What is done to an open handle. It is returned also where one of the calls fails. -/
def prepareHandle (x : δ) (t : τ) : τ :=
  let (active, t) := B.kernelDriverActive x t
  if active = 1 then
    let (rc, t) := B.detachKernelDriver x t
    if rc ≠ 0 then t else B.configure x t
  else if active ≠ 0 then t
  else B.configure x t

def ykusbOpenDevice (vendorId : ℕ) (index : ℤ) (s : LibusbSession δ τ) :
    Except (Option YkErr) Unit × LibusbSession δ τ :=
  let (list, t) := B.getDeviceList s.lib
  match B.scanDevices vendorId index list 0 none t with
  | (some (some x), t) =>
    let (rc, t) := B.libusbOpen x t
    if rc ≠ 0 then (.error (some .EUSBERR), { s with lib := t })
    else (.ok ⟨⟩, { s with lib := B.prepareHandle x t, handle := some x })
  | (_, t) => (.error (some .ENOKEY), { s with lib := t })

def ykusbCloseDevice (s : LibusbSession δ τ) :
    Except (Option YkErr) Unit × LibusbSession δ τ :=
  match s.handle with
  | some x =>
    (.ok ⟨⟩, { s with lib := B.libusbClose x (B.attachKernelDriver x s.lib), handle := none })
  | none => (.ok ⟨⟩, { s with lib := B.stray s.lib })

def ykusbStart (s : LibusbSession δ τ) : Except (Option YkErr) Unit × LibusbSession δ τ :=
  let (rc, t) := B.libusbInit s.lib
  if rc ≠ 0 then (.error (some .EUSBERR), { s with lib := t })
  else (.ok ⟨⟩, { s with lib := t, inited := true })

def ykusbStop (s : LibusbSession δ τ) : Except (Option YkErr) Unit × LibusbSession δ τ :=
  if s.inited then (.ok ⟨⟩, { s with lib := B.libusbExit s.lib, inited := false })
  else (.error (some .EUSBERR), s)

/-- A transfer goes to the handle that is held. -/
def transfer {α : Type} (f : Libusb τ → τ → Except (Option YkErr) α × τ)
    (s : LibusbSession δ τ) : Except (Option YkErr) α × LibusbSession δ τ :=
  match s.handle with
  | some x => ((f (B.transfers x) s.lib).1, { s with lib := (f (B.transfers x) s.lib).2 })
  | none => (.error (some .EUSBERR), { s with lib := B.stray s.lib })

def usb (endian : Endian) (crc16 : List UInt8 → UInt16) : Usb (LibusbSession δ τ) where
  ykusbRead := B.transfer Libusb.ykusbRead
  ykusbWrite r := B.transfer fun L => L.ykusbWrite r
  endian := endian
  yubikeyCrc16 := crc16
  ykusbStart := B.ykusbStart
  ykusbStop := B.ykusbStop
  ykusbOpenDevice := B.ykusbOpenDevice
  ykusbCloseDevice := B.ykusbCloseDevice

end LibusbBus

end YkPers
