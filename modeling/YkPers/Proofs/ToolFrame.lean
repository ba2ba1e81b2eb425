import YkPers.Lib.Simulation
import YkPers.Ykinfo

/-!
# A walk through the smaller programs

How `ykchalresp` and `ykinfo` leave, and what `ykinfo` prints, for whatever is said of their steps.
The steps are the fields of `LeaveFrame` and of `PrintFrame`; the calls of the end are hypotheses.
-/

namespace YkPers

open Proc (Alone Moves attempt)

variable {σ σ' : Type}

namespace Ykchalresp

/-- Something that is said of two procedures over two backends. -/
abbrev StateRel (σ σ' : Type) := Proc.Rel (State σ) (State σ')

structure BaseFrame (P : StateRel σ σ') : Prop where
  pure : ∀ {α : Type} (a : α), P (Pure.pure a) (Pure.pure a)
  bind : ∀ {α β : Type} {x : Proc (State σ) α} {y : Proc (State σ') α}
    {f : α → Proc (State σ) β} {g : α → Proc (State σ') β},
    P x y → (∀ a, P (f a) (g a)) → P (x >>= f) (y >>= g)

/-- The steps behind the label `err` but for the calls. -/
structure LeaveFrame (P : StateRel σ σ') : Prop extends BaseFrame P where
  report : P reportYkError reportYkError
  keyOpen : ∀ {α : Type} {f : Bool → Proc (State σ) α} {g : Bool → Proc (State σ') α},
    (∀ b, P (f b) (g b)) →
      P (Proc.get >>= fun s => f s.keyOpen) (Proc.get >>= fun s => g s.keyOpen)

variable {P : StateRel σ σ'}

theorem BaseFrame.onlyIf (F : BaseFrame P) {c : Bool} {x : Proc (State σ) Unit}
    {y : Proc (State σ') Unit} (hx : P x y) : P (onlyIf c x) (onlyIf c y) := P.ite hx (F.pure _)

namespace LeaveFrame

theorem orReport (F : LeaveFrame P) {f : σ → Except (Option YkErr) Unit × σ}
    {g : σ' → Except (Option YkErr) Unit × σ'}
    (hcall : P (attempt (onKey (busCall f))) (attempt (onKey (busCall g)))) (exitCode : ℕ) :
    P (orReport f exitCode) (orReport g exitCode) := by
  refine F.bind hcall fun r => ?_
  cases r with
  | some _ => exact F.pure _
  | none => exact F.bind F.report fun _ => F.pure _

section Leave

variable (F : LeaveFrame P) {U : Usb σ} {V : Usb σ'}
  (hclose : P (attempt (onKey (busCall U.ykusbCloseDevice)))
    (attempt (onKey (busCall V.ykusbCloseDevice))))
include F hclose

theorem closeKey (exitCode : ℕ) : P (closeKey U exitCode) (closeKey V exitCode) := by
  have hopen : ∀ b : Bool, P (if b then Ykchalresp.orReport U.ykusbCloseDevice exitCode else
      pure exitCode) (if b then Ykchalresp.orReport V.ykusbCloseDevice exitCode else
      pure exitCode) := fun _ => P.ite (F.orReport hclose _) (F.pure _)
  exact F.keyOpen hopen

theorem leave (hstop : P (attempt (onKey (busCall U.ykusbStop)))
    (attempt (onKey (busCall V.ykusbStop)))) (error : Bool) : P (leave U error) (leave V error) :=
  F.bind (F.onlyIf F.report) fun _ => F.bind (F.closeKey hclose _) fun _ => F.orReport hstop _

end Leave

theorem of_moves {R : State σ → State σ → Prop} (hr : ∀ s, R s s)
    (ht : ∀ a b c, R a b → R b c → R a c) (hstderr : ∀ s l, R s { s with stderr := l }) :
    LeaveFrame (Alone (Moves R)) where
  pure _ := .pure hr _
  bind hx hf := .bind ht hx hf
  report s := by
    rw [reportYkError, Proc.modify_run]
    split
    · exact hstderr s _
    · exact hr s
  keyOpen hf := .get_bind fun s => hf s.keyOpen

end LeaveFrame

end Ykchalresp

namespace Ykinfo

open Ykchalresp (State StateRel BaseFrame onlyIf)

/-- The steps of what is printed. -/
structure PrintFrame (P : StateRel σ σ') : Prop extends BaseFrame P where
  fault : ∀ {α : Type}, P (Proc.fault : Proc (State σ) α) Proc.fault
  printf : ∀ text, P (Ykchalresp.printf text) (Ykchalresp.printf text)

namespace PrintFrame

section Walk

variable {P : StateRel σ σ'} (F : PrintFrame P)
include F

theorem printLine (quiet : Bool) (name : String) (text : List Char) :
    P (printLine quiet name text) (printLine quiet name text) :=
  F.bind (F.onlyIf (F.printf _)) fun _ => F.printf _

/-- A value is printed where it was asked for. -/
theorem line (shown quiet : Bool) (name : String) (text : List Char) :
    P (onlyIf shown (Ykinfo.printLine quiet name text))
      (onlyIf shown (Ykinfo.printLine quiet name text)) := F.onlyIf (F.printLine _ _ _)

theorem printSerial (E : Env) (v : Vars) (serial : UInt32) :
    P (printSerial E v serial) (printSerial E v serial) := by
  refine F.bind (F.line _ _ _ _) fun _ => F.onlyIf ?_
  cases CString.read (serialPtr E serial) with
  | none => exact F.fault
  | some ptr => exact F.bind (F.line _ _ _ _) fun _ => F.line _ _ _ _

theorem printStatus (v : Vars) (st : YkStatus) : P (printStatus v st) (printStatus v st) :=
  F.bind (F.line _ _ _ _) fun _ => F.bind (F.line _ _ _ _) fun _ =>
    F.bind (F.line _ _ _ _) fun _ => F.bind (F.line _ _ _ _) fun _ => F.line _ _ _ _

theorem printIds (v : Vars) (vendorId productId : Int32) :
    P (printIds v vendorId productId) (printIds v vendorId productId) :=
  F.bind (F.line _ _ _ _) fun _ => F.line _ _ _ _

theorem printBytes (bytes : List UInt8) : P (printBytes bytes) (printBytes bytes) := by
  induction bytes with
  | nil => exact F.pure _
  | cons b bs ih => exact F.bind (F.printf _) fun _ => ih

theorem printCapabilities (v : Vars) (bytes : List UInt8) :
    P (printCapabilities v bytes) (printCapabilities v bytes) :=
  F.bind (F.onlyIf (F.printf _)) fun _ => F.bind (F.printBytes bytes) fun _ => F.printf _

/-- A value that was asked for is got from the key and printed. -/
theorem shown {α : Type} {c : Bool} {x : Yk σ α} {y : Yk σ' α} {f : α → Proc (State σ) Unit}
    {g : α → Proc (State σ') Unit} (hx : P (Ykchalresp.onKey x) (Ykchalresp.onKey y))
    (hf : ∀ a, P (f a) (g a)) :
    P (onlyIf c (Ykchalresp.onKey x >>= f)) (onlyIf c (Ykchalresp.onKey y >>= g)) :=
  F.onlyIf (F.bind hx hf)

/-! ### The options -/

variable {U : UsbIds σ} {V : UsbIds σ'} (v : Vars)

theorem showSerial (E : Env) (h : P (Ykchalresp.onKey (ykGetSerial U.toHost 1 0))
    (Ykchalresp.onKey (ykGetSerial V.toHost 1 0))) : P (showSerial U E v) (showSerial V E v) :=
  F.shown h fun serial => F.printSerial E v serial

theorem showStatus (h : P (Ykchalresp.onKey (ykGetStatus U.toHost))
    (Ykchalresp.onKey (ykGetStatus V.toHost))) : P (showStatus U v) (showStatus V v) :=
  F.shown h fun st => F.printStatus v st

theorem showIds (h : P (Ykchalresp.onKey (ykGetKeyVidPid U))
    (Ykchalresp.onKey (ykGetKeyVidPid V))) : P (showIds U v) (showIds V v) :=
  F.shown h fun ids => F.printIds v ids.1 ids.2

theorem showCapabilities
    (h : P (Ykchalresp.onKey (ykGetCapabilities U.toHost 1 0 (List.replicate 0xff 0) 0xff))
      (Ykchalresp.onKey (ykGetCapabilities V.toHost 1 0 (List.replicate 0xff 0) 0xff))) :
    P (showCapabilities U v) (showCapabilities V v) :=
  F.shown h fun p => F.printCapabilities v (p.1.take p.2)

end Walk

theorem of_moves {R : State σ → State σ → Prop} (hr : ∀ s, R s s)
    (ht : ∀ a b c, R a b → R b c → R a c)
    (hstdout : ∀ s text, R s { s with stdout := s.stdout ++ [text] }) :
    PrintFrame (Alone (Moves R)) where
  pure _ := .pure hr _
  bind hx hf := .bind ht hx hf
  fault := hr
  printf text s := hstdout s text

end PrintFrame

end Ykinfo

end YkPers
