import YkPers.LibusbCalls

/-!
# The libusb-0.1 backend

`ykcore_libusb.c` over what the calls of libusb-0.1 return, and the order in which that library
wants to be called. It keeps its own lists of busses and devices, and there is no call that ends
its use. The loop over the product ids is that of the libusb-1.0 backend.
-/

namespace YkPers

/-- The calls: their return codes and what they store. `usbOpen` tells whether there is a handle;
`hasDetach` is `LIBUSB_HAS_DETACH_KERNEL_DRIVER_NP`, and `stray` is any call on a handle that is not
there. -/
structure UsbLib (δ τ : Type) where
  usbInit : τ → τ
  usbFindBusses : τ → Int × τ
  usbFindDevices : τ → Int × τ
  usbGetBusses : τ → List (List δ) × τ
  descriptor : δ → DeviceDescriptor
  usbOpen : δ → τ → Bool × τ
  hasDetach : Bool
  usbDetachKernelDriverNp : δ → τ → τ
  usbSetConfiguration : δ → (configuration : Int) → τ → τ
  usbClose : δ → τ → Int × τ
  usbClaimInterface : δ → τ → Int × τ
  usbControlMsgIn : δ → τ → (Int × List UInt8) × τ
  usbControlMsgOut : δ → Report → τ → Int × τ
  usbReleaseInterface : δ → τ → Int × τ
  stray : τ → τ

/-- The device of the handle that the caller holds. -/
structure UsbSession (δ τ : Type) where
  lib : τ
  handle : Option δ

namespace UsbLib

variable {δ τ : Type} (L : UsbLib δ τ)

/-- `rc` after a transfer that returned `rc` and a release that returned `rc2`. -/
def keepError (rc rc2 : Int) : Int := if 0 ≤ rc ∧ rc2 < 0 then rc2 else rc

def write (x : δ) (r : Report) (t : τ) : Except (Option YkErr) Unit × τ :=
  let (rc, t) := L.usbClaimInterface x t
  let (rc, t) :=
    if 0 ≤ rc then
      let (rc, t) := L.usbControlMsgOut x r t
      let (rc2, t) := L.usbReleaseInterface x t
      (keepError rc rc2, t)
    else (rc, t)
  if 0 ≤ rc then (.ok (), t) else (.error (some .EUSBERR), t)

/-- The number of bytes is returned as it is, so that 0 of them are a failure without a code; the
test for 0 behind it is never true. -/
def read (x : δ) (t : τ) : Except (Option YkErr) Report × τ :=
  let (rc, t) := L.usbClaimInterface x t
  let (rc, bytes, t) :=
    if 0 ≤ rc then
      let ((rc, bytes), t) := L.usbControlMsgIn x t
      let (rc2, t) := L.usbReleaseInterface x t
      (keepError rc rc2, bytes, t)
    else (rc, [], t)
  if 0 ≤ rc then (if rc = 0 then .error none else .ok (.ofBytes bytes), t)
  else if rc = 0 then (.error (some .ENODATA), t)
  else (.error (some .EUSBERR), t)

def ykusbStart (s : UsbSession δ τ) : Except (Option YkErr) Unit × UsbSession δ τ :=
  let (rc, t) := L.usbFindBusses (L.usbInit s.lib)
  let (rc, t) := if 0 ≤ rc then L.usbFindDevices t else (rc, t)
  if 0 ≤ rc then (.ok ⟨⟩, { s with lib := t }) else (.error (some .EUSBERR), { s with lib := t })

def ykusbStop (s : UsbSession δ τ) : Except (Option YkErr) Unit × UsbSession δ τ := (.ok ⟨⟩, s)

/-- The loop over the devices of a bus: `found` and `yk_device` behind it. -/
def scanDevices (vendorId : ℕ) (index : ℤ) : List δ → ℕ → Option δ → ℕ × Option δ
  | [], found, dev => (found, dev)
  | x :: xs, found, dev =>
    if (L.descriptor x).idVendor = vendorId then
      let p := LibusbBus.scanPids x (L.descriptor x).idProduct index ykPids found dev
      scanDevices vendorId index xs p.1 p.2
    else scanDevices vendorId index xs found dev

def scanBusses (vendorId : ℕ) (index : ℤ) : List (List δ) → ℕ → Option δ → Option δ
  | [], _, dev => dev
  | bus :: busses, found, dev =>
    let p := L.scanDevices vendorId index bus found dev
    scanBusses vendorId index busses p.1 p.2

def ykusbOpenDevice (vendorId : ℕ) (index : ℤ) (s : UsbSession δ τ) :
    Except (Option YkErr) Unit × UsbSession δ τ :=
  let (busses, t) := L.usbGetBusses s.lib
  match L.scanBusses vendorId index busses 0 none with
  | some x =>
    let (opened, t) := L.usbOpen x t
    if opened then
      let t := if L.hasDetach then L.usbDetachKernelDriverNp x t else t
      (.ok ⟨⟩, { s with lib := L.usbSetConfiguration x 1 t, handle := some x })
    else (.error (some .EUSBERR), { s with lib := t })
  | none =>
    (.error (some (if busses = [] then .EUSBERR else .ENOKEY)), { s with lib := t })

/-- The handle is gone, whatever is returned. -/
def ykusbCloseDevice (s : UsbSession δ τ) : Except (Option YkErr) Unit × UsbSession δ τ :=
  match s.handle with
  | some x =>
    let (rc, t) := L.usbClose x s.lib
    if 0 ≤ rc then (.ok ⟨⟩, { s with lib := t, handle := none })
    else (.error (some .EUSBERR), { s with lib := t, handle := none })
  | none => (.ok ⟨⟩, { s with lib := L.stray s.lib })

def ykusbGetVidPid (s : UsbSession δ τ) :
    Except (Option YkErr) (Int32 × Int32) × UsbSession δ τ :=
  match s.handle with
  | some x => (.ok (Int32.ofNat (L.descriptor x).idVendor,
      Int32.ofNat (L.descriptor x).idProduct), s)
  | none => (.error (some .EUSBERR), { s with lib := L.stray s.lib })

/-- A transfer goes to the handle that is held. -/
def transfer {α : Type} (f : δ → τ → Except (Option YkErr) α × τ) (s : UsbSession δ τ) :
    Except (Option YkErr) α × UsbSession δ τ :=
  match s.handle with
  | some x => ((f x s.lib).1, { s with lib := (f x s.lib).2 })
  | none => (.error (some .EUSBERR), { s with lib := L.stray s.lib })

def usb (endian : Endian) (crc16 : List UInt8 → UInt16) : Ykinfo.UsbIds (UsbSession δ τ) where
  ykusbRead := L.transfer L.read
  ykusbWrite r := L.transfer fun x => L.write x r
  endian := endian
  yubikeyCrc16 := crc16
  ykusbStart := L.ykusbStart
  ykusbStop := ykusbStop
  ykusbOpenDevice := L.ykusbOpenDevice
  ykusbCloseDevice := L.ykusbCloseDevice
  ykusbGetVidPid := L.ykusbGetVidPid

end UsbLib

/-! ## The order of the calls -/

inductive UsbCall (δ : Type) where
  | init
  | findBusses (rc : Int)
  | findDevices (rc : Int)
  | getBusses
  | open (dev : δ) (handle : Bool)
  | detachKernelDriver (h : δ)
  | setConfiguration (h : δ)
  | close (h : δ)
  | claimInterface (h : δ) (rc : Int)
  | controlMsg (h : δ)
  | releaseInterface (h : δ)
  | stray
  deriving DecidableEq

/-- `idle` counts what has been done before the lists can be used: 1 is `usb_init`, 2 is
`usb_find_busses`, 3 is `usb_find_devices`. -/
inductive UsbState (δ : Type) where
  | idle (steps : ℕ)
  | opened (h : δ)
  | claimed (h : δ)
  deriving DecidableEq

namespace UsbState

variable {δ : Type} [DecidableEq δ]

/-- A call on the handle `h'` where `h` is the open one. -/
def onHandle (h h' : δ) (q : UsbState δ) : Option (UsbState δ) := if h' = h then some q else none

def step : UsbState δ → UsbCall δ → Option (UsbState δ)
  | idle n, .init => some (idle (max n 1))
  | idle n, .findBusses rc =>
    if 1 ≤ n then some (idle (if 0 ≤ rc then max n 2 else n)) else none
  | idle n, .findDevices rc =>
    if 2 ≤ n then some (idle (if 0 ≤ rc then max n 3 else n)) else none
  | idle n, .getBusses => if 3 ≤ n then some (idle n) else none
  | idle n, .open dev handle =>
    if 3 ≤ n then some (if handle then opened dev else idle n) else none
  | opened h, .detachKernelDriver h' => onHandle h h' (opened h)
  | opened h, .setConfiguration h' => onHandle h h' (opened h)
  | opened h, .claimInterface h' rc => onHandle h h' (if 0 ≤ rc then claimed h else opened h)
  | opened h, .close h' => onHandle h h' (idle 3)
  | claimed h, .controlMsg h' => onHandle h h' (claimed h)
  | claimed h, .releaseInterface h' => onHandle h h' (opened h)
  | _, _ => none

@[simp] theorem onHandle_self (h : δ) (q : UsbState δ) : onHandle h h q = some q := by
  simp [onHandle]

def after (cs : List (UsbCall δ)) : Option (UsbState δ) := follows step (idle 0) cs

end UsbState

/-- The library with a log of the calls behind its state. -/
def UsbLib.logged {δ τ : Type} (L : UsbLib δ τ) : UsbLib δ (τ × List (UsbCall δ)) where
  usbInit := notedUnit L.usbInit .init
  usbFindBusses := noted L.usbFindBusses .findBusses
  usbFindDevices := noted L.usbFindDevices .findDevices
  usbGetBusses := noted L.usbGetBusses fun _ => .getBusses
  descriptor := L.descriptor
  usbOpen x := noted (L.usbOpen x) (.open x)
  hasDetach := L.hasDetach
  usbDetachKernelDriverNp x := notedUnit (L.usbDetachKernelDriverNp x) (.detachKernelDriver x)
  usbSetConfiguration x c := notedUnit (L.usbSetConfiguration x c) (.setConfiguration x)
  usbClose x := noted (L.usbClose x) fun _ => .close x
  usbClaimInterface x := noted (L.usbClaimInterface x) (.claimInterface x)
  usbControlMsgIn x := noted (L.usbControlMsgIn x) fun _ => .controlMsg x
  usbControlMsgOut x r := noted (L.usbControlMsgOut x r) fun _ => .controlMsg x
  usbReleaseInterface x := noted (L.usbReleaseInterface x) fun _ => .releaseInterface x
  stray := notedUnit L.stray .stray

end YkPers
