import YkPers.Lib.CallOrder
import YkPers.LibusbDevices
import YkPers.Ykinfo

/-!
# The order of the calls of libusb

How libusb wants to be used, as a protocol over its calls (`LibusbState.step`): it is initialised
before all else and left once no handle is open, a handle is worked on between its opening and its
closing, and a transfer stands between a claim of the interface that succeeded and its release,
with nothing else in between; no call goes to a handle that is not there. `LibusbBus.logged` is a
bus that logs its calls.
-/

namespace YkPers

/-- The calls; what they return is kept where the protocol depends on it. -/
inductive LibusbCall (δ : Type) where
  | init (rc : Int)
  | exit
  | getDeviceList
  | getDeviceDescriptor (dev : δ)
  | open (dev : δ) (rc : Int)
  | kernelDriverActive (h : δ)
  | detachKernelDriver (h : δ)
  | attachKernelDriver (h : δ)
  | getConfiguration (h : δ)
  | setConfiguration (h : δ)
  | close (h : δ)
  | claimInterface (h : δ) (rc : Int)
  | controlTransfer (h : δ)
  | releaseInterface (h : δ)
  | stray
  deriving DecidableEq

inductive LibusbState (δ : Type) where
  | off
  | ready
  | opened (h : δ)
  | claimed (h : δ)
  deriving DecidableEq

namespace LibusbState

variable {δ : Type} [DecidableEq δ]

/-- A call on the handle `h'` where `h` is the open one. -/
def onHandle (h h' : δ) (q : LibusbState δ) : Option (LibusbState δ) :=
  if h' = h then some q else none

def step : LibusbState δ → LibusbCall δ → Option (LibusbState δ)
  | off, .init rc => some (if rc = 0 then ready else off)
  | ready, .exit => some off
  | ready, .getDeviceList => some ready
  | ready, .getDeviceDescriptor _ => some ready
  | ready, .open dev rc => some (if rc = 0 then opened dev else ready)
  | opened h, .getDeviceDescriptor dev => onHandle h dev (opened h)
  | opened h, .kernelDriverActive h' => onHandle h h' (opened h)
  | opened h, .detachKernelDriver h' => onHandle h h' (opened h)
  | opened h, .attachKernelDriver h' => onHandle h h' (opened h)
  | opened h, .getConfiguration h' => onHandle h h' (opened h)
  | opened h, .setConfiguration h' => onHandle h h' (opened h)
  | opened h, .claimInterface h' rc => onHandle h h' (if rc = 0 then claimed h else opened h)
  | opened h, .close h' => onHandle h h' ready
  | claimed h, .controlTransfer h' => onHandle h h' (claimed h)
  | claimed h, .releaseInterface h' => onHandle h h' (opened h)
  | _, _ => none

@[simp] theorem onHandle_self (h : δ) (q : LibusbState δ) : onHandle h h q = some q := by
  simp [onHandle]

/-- Where the calls lead from the start. -/
def after (cs : List (LibusbCall δ)) : Option (LibusbState δ) := follows step off cs

end LibusbState

namespace LibusbBus

variable {δ τ : Type} (B : LibusbBus δ τ)

/-- Vendor and product of the device behind the handle. -/
def ykusbGetVidPid (s : LibusbSession δ τ) :
    Except (Option YkErr) (Int32 × Int32) × LibusbSession δ τ :=
  match s.handle with
  | some x =>
    let ((rc, desc), t) := B.getDeviceDescriptor x s.lib
    if rc = 0 then
      (.ok (Int32.ofNat desc.idVendor, Int32.ofNat desc.idProduct), { s with lib := t })
    else (.error (some .EUSBERR), { s with lib := t })
  | none => (.error (some .EUSBERR), { s with lib := B.stray s.lib })

def usbIds (endian : Endian) (crc16 : List UInt8 → UInt16) :
    Ykinfo.UsbIds (LibusbSession δ τ) :=
  { B.usb endian crc16 with ykusbGetVidPid := B.ykusbGetVidPid }

/-- The bus with a log of the calls behind its state. -/
def logged : LibusbBus δ (τ × List (LibusbCall δ)) where
  libusbInit := noted B.libusbInit .init
  libusbExit := notedUnit B.libusbExit .exit
  getDeviceList := noted B.getDeviceList fun _ => .getDeviceList
  getDeviceDescriptor x := noted (B.getDeviceDescriptor x) fun _ => .getDeviceDescriptor x
  libusbOpen x := noted (B.libusbOpen x) (.open x)
  kernelDriverActive x := noted (B.kernelDriverActive x) fun _ => .kernelDriverActive x
  detachKernelDriver x := noted (B.detachKernelDriver x) fun _ => .detachKernelDriver x
  attachKernelDriver x := notedUnit (B.attachKernelDriver x) (.attachKernelDriver x)
  getConfiguration x := noted (B.getConfiguration x) fun _ => .getConfiguration x
  setConfiguration x c := noted (B.setConfiguration x c) fun _ => .setConfiguration x
  libusbClose x := notedUnit (B.libusbClose x) (.close x)
  transfers x :=
    { claimInterface := noted (B.transfers x).claimInterface (.claimInterface x)
      controlTransferIn := noted (B.transfers x).controlTransferIn fun _ => .controlTransfer x
      controlTransferOut r :=
        noted ((B.transfers x).controlTransferOut r) fun _ => .controlTransfer x
      releaseInterface := noted (B.transfers x).releaseInterface fun _ => .releaseInterface x }
  stray := notedUnit B.stray .stray

end LibusbBus

end YkPers
