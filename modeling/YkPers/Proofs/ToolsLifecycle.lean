import YkPers.Proofs.Lifecycle
import YkPers.Proofs.SameTools

/-!
# The smaller programs keep to the life of a session

`ykchalresp` and `ykinfo` make every call in its phase too, and wherever one of them returns, the
key is closed and the backend stopped.
-/

namespace YkPers

open Proc (Sim Triple)

variable {σ α : Type} {I : KeyPhase → σ → Prop}

namespace Ykchalresp

section Steps

variable {k : Bool} {P E F : σ → Prop} {Q : α → σ → Prop} {U : Usb σ}

/-- `keyOpen` is `k`, and the device satisfies `P`. -/
def KeyIs (k : Bool) (P : σ → Prop) (s : State σ) : Prop := s.keyOpen = k ∧ P s.world.dev

def DevIs (P : σ → Prop) (s : State σ) : Prop := P s.world.dev

def Held (I : KeyPhase → σ → Prop) (s : State σ) : Prop :=
  KeyIs true (I .opened) s ∨ KeyIs false (fun d => I .down d ∨ I .up d) s

def InPhase (I : KeyPhase → σ → Prop) (s : State σ) : Prop := ∃ p, I p s.world.dev

theorem triple_onKey {x : Yk σ α} (hx : Triple (fun w => P w.dev) x (fun a w => Q a w.dev)
      (fun w => E w.dev) fun w => F w.dev) :
    Triple (KeyIs k P) (onKey x) (fun a => KeyIs k (Q a)) (KeyIs k E) (KeyIs k F) := by
  rintro s ⟨hk, hp⟩
  have h := hx s.world hp
  rw [onKey, Proc.zoom_run]
  rcases hr : x s.world with ⟨_ | _ | _ | _, w⟩ <;> rw [hr] at h <;> exact ⟨hk, h⟩

theorem triple_transfers {x : Proc (State σ) α}
    (hx : Sim (SameState (fun d d' => d = d' ∧ I .opened d) (· = true)) x x) :
    Triple (KeyIs true (I .opened)) x (fun _ => KeyIs true (I .opened)) (Held I) (InPhase I) :=
  (Triple.of_keeps fun _ hs => hx.keeps
    (fun _ h => ⟨sameWorld_self _ h.2, rfl, h.1, rfl, rfl, rfl⟩)
    (fun _ _ h => ⟨h.known, h.world.dev.2⟩) hs).mono (fun _ h => .inl h) fun _ h => ⟨_, h.2⟩

/-- A step of the opening: what it leaves behind where it fails has been started at most. -/
theorem triple_opening {P Q : KeyPhase} {x : Yk σ α} (hx : Triple (fun w => I P w.dev) x
      (fun _ w => I Q w.dev) (fun w => I .down w.dev ∨ I .up w.dev) fun w => I .opened w.dev) :
    Triple (KeyIs false (I P)) (onKey x) (fun _ => KeyIs false (I Q)) (Held I) (InPhase I) :=
  (triple_onKey (E := fun d => I .down d ∨ I .up d) hx).mono (fun _ => .inr)
    fun _ h => ⟨_, h.2⟩

theorem triple_start (L : Lifecycle U I) : Triple (fun w => I .down w.dev)
    (busCall U.ykusbStart) (fun _ w => I .up w.dev) (fun w => I .down w.dev ∨ I .up w.dev)
    fun w => I .opened w.dev := (triple_busCall L.start _).mono (fun _ => .inl) fun _ h => h

theorem triple_ykOpenKey (L : Lifecycle U I) (index : ℤ) : Triple (fun w => I .up w.dev)
    (ykOpenKey U index) (fun _ w => I .opened w.dev) (fun w => I .down w.dev ∨ I .up w.dev)
    fun w => I .opened w.dev := (YkPers.triple_ykOpenKey L index).mono (fun _ => .inr) fun _ h => h

theorem triple_setOpen : Triple (KeyIs false (I .opened))
    (Proc.modify fun s => { s with keyOpen := true }) (fun _ => KeyIs true (I .opened)) (Held I)
    (InPhase I) := .modify fun _ h => ⟨rfl, h.2⟩

/-! ## The end -/

/-- A report is made on the standard error only. -/
theorem triple_reportYkError {A : State σ → Prop} (hA : ∀ s l, A s → A { s with stderr := l }) :
    Triple A reportYkError (fun _ => A) (fun _ => False) fun _ => False := by
  refine .modify fun s h => ?_
  rcases hr : s.world.ykErrno with _ | e
  · exact h
  · exact hA s _ h

theorem triple_orReport {f : σ → Except (Option YkErr) Unit × σ} (h : Leads f P E E)
    (exitCode : ℕ) : Triple (DevIs P) (orReport f exitCode) (fun _ => DevIs E) (fun _ => False)
      fun _ => False := by
  have hcall : Triple (DevIs P) (onKey (busCall f)) (fun _ => DevIs E) (DevIs E)
      fun _ => False := by
    intro s hs
    have hkey := triple_onKey (k := s.keyOpen) (Q := fun _ => E) (E := E) (F := fun _ => False)
      (triple_busCall h fun _ => False)
    exact hkey.conseq (Q := fun _ => DevIs E) (fun _ h => h) (fun _ _ h => h.2) (fun _ h => h.2)
      (fun _ h => h.2) s ⟨rfl, hs⟩
  refine .bind hcall.attempt_same fun r => ?_
  cases r with
  | some _ => exact .pure fun _ h => h
  | none => exact .bind (triple_reportYkError fun _ _ h => h) fun _ => .pure fun _ h => h

theorem triple_leave (L : Lifecycle U I) (error : Bool) :
    Triple (Held I) (leave U error) (fun _ => DevIs (I .down)) (fun _ => False) fun _ => False := by
  have hreport : Triple (Held I) (onlyIf error reportYkError) (fun _ => Held I) (fun _ => False)
      fun _ => False :=
    .ite (fun _ => triple_reportYkError fun _ _ h => h) fun _ => .pure fun _ h => h
  refine .bind hreport fun _ => .bind (Q := fun _ => DevIs fun d => I .down d ∨ I .up d) ?_
    fun exitCode => triple_orReport L.stop exitCode
  refine .get_bind fun s => .ite (fun hopen t ht => ?_) fun hclosed => .pure ?_
  · rcases ht.2 with h | h
    · exact (triple_orReport L.closeDevice _).conseq (fun _ h => h) (fun _ _ h => Or.inr h)
        (fun _ h => h) (fun _ h => h) t h.2
    · rw [← ht.1, h.1] at hopen
      cases hopen
  · rintro t ⟨rfl, h | h⟩
    · exact absurd h.1 hclosed
    · exact h.2

/-- Whatever the session did, `leave` lets the key go. -/
theorem triple_main (L : Lifecycle U I) {x : Proc (State σ) Unit}
    (hx : Triple (KeyIs false (I .down)) x (fun _ => KeyIs true (I .opened)) (Held I)
      (InPhase I)) :
    Triple (KeyIs false (I .down)) (do let r ← Proc.attempt x; leave U r.isNone)
      (fun _ => DevIs (I .down)) (fun _ => False) (InPhase I) := by
  refine .bind hx.attempt fun r => ?_
  have hleave : Triple (Held I) (leave U r.isNone) (fun _ => DevIs (I .down)) (fun _ => False)
      (InPhase I) := (triple_leave L _).mono (fun _ h => h) fun _ h => h.elim
  cases r with
  | some _ => exact fun s hs => hleave s (.inl hs)
  | none => exact hleave

theorem triple_ykchalresp (L : Lifecycle U I) (E : Env) (argv : List (List Char)) :
    Triple (KeyIs false (I .down)) (ykchalresp U E argv) (fun _ => DevIs (I .down))
      (fun _ => False) (InPhase I) := by
  unfold ykchalresp
  rcases parseArgs E argv with messages | ⟨v, c⟩
  · exact fun _ h => h.2
  · exact triple_main L <| .bind (triple_opening (triple_start L)) fun _ =>
      .bind (triple_opening (triple_ykOpenKey L v.keyIndex)) fun _ => .bind triple_setOpen fun _ =>
        triple_transfers (sim_transfers E L.hostSim v c)

end Steps

end Ykchalresp

namespace Ykinfo

variable {U : UsbIds σ}

theorem triple_ykinfo (L : Lifecycle U.toUsb I)
    (hids : Leads U.ykusbGetVidPid (I .opened) (I .opened) (I .opened)) (E : Env)
    (argv : List (List Char)) :
    Triple (Ykchalresp.KeyIs false (I .down)) (ykinfo U E argv)
      (fun _ => Ykchalresp.DevIs (I .down)) (fun _ => False) (Ykchalresp.InPhase I) := by
  unfold ykinfo
  rcases parseArgs E argv with messages | v
  · exact fun _ h => h.2
  · have hopen := Ykchalresp.triple_opening (.bind (Ykchalresp.triple_start L) fun _ =>
      Ykchalresp.triple_ykOpenKey L v.keyIndex)
    exact Ykchalresp.triple_main L <| .bind hopen fun _ => .bind Ykchalresp.triple_setOpen fun _ =>
      Ykchalresp.triple_transfers (sim_transfers E L.hostSim hids.keeps v)

end Ykinfo

end YkPers
