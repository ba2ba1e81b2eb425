import YkPers.HmacSession
import YkPers.Proofs.ShaBlocks

/-!
# The unified hashes are those of the standard

Whatever the context held before, and whichever hashes it is reset for, the calls return what a
session of the hash of the standard does (`usha_answers`). No call stores outside of a block.
-/

namespace YkPers

open BlockHash SecureHash
open ShaCode (shaSuccess)

/-! ## Results -/

/-- Of 16 words in a block, two count the length. -/
theorem result_eq {w k b size : ℕ} (hw : w / 8 = b) (hb : 0 < b) (hsize : size ≤ k * b)
    {F : ShaFamily (Vector (BitVec w) k) (ShaLength w) (2 * w)} (hlen : 8 * F.lengthSize = 2 * w)
    (hF : F.resultOctet = fun H i => wordOctet (H.toList.getD (i / b) 0) (8 * (b - 1 - i % b)))
    {compress : Vector (BitVec w) k → List UInt8 → Vector (BitVec w) k}
    {H0 H : Vector (BitVec w) k} {M : List Bool}
    (h : H = finalHash (2 * w) F compress H0 M) :
    (List.range size).map (F.resultOctet H) = digest compress H0 size M := by
  have hbits : 8 * (2 * w) = 16 * w := by omega
  rw [finalHash, hbits, hlen] at h
  rw [digest, ← h, hF]
  exact map_wordOctet hw hb H hsize

theorem length_digest {w k b size : ℕ} (hw : w / 8 = b) (hsize : size ≤ k * b)
    (compress : Vector (BitVec w) k → List UInt8 → Vector (BitVec w) k) (H0 : Vector (BitVec w) k)
    (M : List Bool) : (digest compress H0 size M).length = size := by
  have hflat : ∀ l : List (BitVec w), (l.flatMap wordBytes).length = l.length * b := by
    intro l
    induction l with
    | nil => simp
    | cons x l ih =>
      rw [List.flatMap_cons, List.length_append, ih, wordBytes, length_beBytes, hw,
        List.length_cons, Nat.succ_mul, Nat.add_comm]
  rw [digest, List.length_take, hflat, Vector.length_toList]
  exact Nat.min_eq_left hsize

theorem ShaVersion.length_hash (v : ShaVersion) (M : List Bool) :
    (v.hash M).length = ushaHashSize v := by
  cases v with
  | sha1 => exact length_digest (b := 4) rfl (by decide) _ _ M
  | sha224 => exact length_digest (b := 4) rfl (by decide) _ _ M
  | sha256 => exact length_digest (b := 4) rfl (by decide) _ _ M
  | sha384 => exact length_digest (b := 8) rfl (by decide) _ _ M
  | sha512 => exact length_digest (b := 8) rfl (by decide) _ _ M

/-! ## The five hashes -/

/-- The context of a hash that a session is kept in. -/
def VersionHolds : (v : ShaVersion) → ShaSession → v.Context → Prop
  | .sha1 => Represents sha1Family id sha1Compress ShaLength.value (2 ^ 64) sha1Initial
  | .sha224 => Represents sha224256Family id (sha2Compress sha2Words32) ShaLength.value (2 ^ 64)
      sha224Initial
  | .sha256 => Represents sha224256Family id (sha2Compress sha2Words32) ShaLength.value (2 ^ 64)
      sha256Initial
  | .sha384 => Represents sha384512Family id (sha2Compress sha2Words64) ShaLength.value (2 ^ 128)
      sha384Initial
  | .sha512 => Represents sha384512Family id (sha2Compress sha2Words64) ShaLength.value (2 ^ 128)
      sha512Initial

/-- The functions of a hash, as they are called. -/
def versionCall : (v : ShaVersion) → ShaCall → Proc v.Context (ℕ × List UInt8)
  | .sha1 => shaCall sha1Family 20
  | .sha224 => shaCall sha224256Family 28
  | .sha256 => shaCall sha224256Family 32
  | .sha384 => shaCall sha384512Family 48
  | .sha512 => shaCall sha384512Family 64

theorem versionCall_refines : ∀ v : ShaVersion,
    Session.Refines (ShaSession.step v.hash v.limit) (versionCall v) (VersionHolds v)
  | .sha1 => shaCall_refines sha1_computes fun _ _ =>
      result_eq (b := 4) rfl (by decide) (by decide) rfl rfl
  | .sha224 => shaCall_refines sha224256_computes fun _ _ =>
      result_eq (b := 4) rfl (by decide) (by decide) rfl rfl
  | .sha256 => shaCall_refines sha224256_computes fun _ _ =>
      result_eq (b := 4) rfl (by decide) (by decide) rfl rfl
  | .sha384 => shaCall_refines sha384512_computes fun _ _ =>
      result_eq (b := 8) rfl (by decide) (by decide) rfl rfl
  | .sha512 => shaCall_refines sha384512_computes fun _ _ =>
      result_eq (b := 8) rfl (by decide) (by decide) rfl rfl

/-- The reset of a hash. -/
def versionReset : (v : ShaVersion) → Proc v.Context ℕ
  | .sha1 => sha1Reset
  | .sha224 => sha224Reset
  | .sha256 => sha256Reset
  | .sha384 => sha384Reset
  | .sha512 => sha512Reset

theorem shaReset_ok {η ℓ σ : Type} {n : ℕ} {F : ShaFamily η ℓ n} {view : η → σ}
    {compress : σ → List UInt8 → σ} {value : ℓ → ℕ} {limit : ℕ}
    (hF : F.Computes view compress value limit) {H0 : η} {s0 : σ} (hview : view H0 = s0)
    (c : ShaContext η ℓ n) :
    ∃ c', shaReset F H0 c = (.ok shaSuccess.toNat, c') ∧
      Represents F view compress value limit s0 (.absorbing []) c' := by
  have hpos : 0 < n := Nat.lt_of_le_of_lt (Nat.zero_le _) hF.lengthSize_lt
  have hrest : rest n [] = [] := rest_of_lt hpos
  refine ⟨_, rfl, ⟨rfl, rfl, hF.noLength, ?_, by rw [hrest]; rfl, by
    rw [hrest]; exact List.nil_prefix⟩, hF.limit_pos⟩
  rw [blockFold_of_lt hpos]
  exact hview

theorem versionReset_ok : ∀ (v : ShaVersion) (c : v.Context),
    ∃ c', versionReset v c = (.ok shaSuccess.toNat, c') ∧ VersionHolds v (.absorbing []) c'
  | .sha1, c => shaReset_ok sha1_computes rfl c
  | .sha224, c => shaReset_ok sha224256_computes sha224H0_eq c
  | .sha256, c => shaReset_ok sha224256_computes sha256H0_eq c
  | .sha384, c => shaReset_ok sha384512_computes sha384H0_eq c
  | .sha512, c => shaReset_ok sha384512_computes sha512H0_eq c

/-! ## Calls -/

section Dispatch

variable {α β : Type} {f : (v : ShaVersion) → Proc v.Context α} {s : UshaContext}

theorem dispatch_run {r : Ret α} {c' : s.whichSha.Context} (h : f s.whichSha s.ctx = (r, c')) :
    UshaContext.dispatch f s = (r, ⟨s.whichSha, c'⟩) := by
  rw [UshaContext.dispatch, h]

theorem dispatch_map (g : α → β) : (UshaContext.dispatch f >>= fun a => pure (g a))
    = UshaContext.dispatch fun v => f v >>= fun a => pure (g a) := by
  funext s
  rcases hf : f s.whichSha s.ctx with ⟨_ | _ | _ | _, c'⟩
  · exact (Proc.bind_ok (dispatch_run hf)).trans (dispatch_run (Proc.bind_ok hf)).symm
  · exact (Proc.bind_fail (dispatch_run hf)).trans (dispatch_run (Proc.bind_fail hf)).symm
  · exact (Proc.bind_fault (dispatch_run hf)).trans (dispatch_run (Proc.bind_fault hf)).symm
  · exact (Proc.bind_diverge (dispatch_run hf)).trans (dispatch_run (Proc.bind_diverge hf)).symm

theorem dispatch_congr {g : (v : ShaVersion) → Proc v.Context α} (h : ∀ v, f v = g v) :
    UshaContext.dispatch f = UshaContext.dispatch g := by
  rw [funext h]

end Dispatch

theorem ushaInput_eq (octets : List UInt8) : (do
    let code ← ushaInput octets
    pure (code, [])) = UshaContext.dispatch (versionCall · (.input octets)) := by
  refine (dispatch_map _).trans (dispatch_congr fun v => ?_)
  cases v <;> rfl

theorem ushaFinalBits_eq (messageBits : UInt8) (length : ℕ) : (do
    let code ← ushaFinalBits messageBits length
    pure (code, [])) = UshaContext.dispatch (versionCall · (.finalBits messageBits length)) := by
  refine (dispatch_map _).trans (dispatch_congr fun v => ?_)
  cases v <;> rfl

theorem ushaResult_eq : ushaResult = UshaContext.dispatch (versionCall · .result) := by
  rw [ushaResult]
  refine dispatch_congr fun v => ?_
  cases v <;> rfl

/-- The union of a session of the unified hashes. -/
def UshaHolds (s : UshaSession) (c : UshaContext) : Prop :=
  ∃ ctx, c = ⟨s.whichSha, ctx⟩ ∧ VersionHolds s.whichSha s.session ctx

section Calls

variable {v : ShaVersion} {s : ShaSession} {u : UshaContext}

theorem dispatch_step (h : UshaHolds ⟨v, s⟩ u) (c : ShaCall) :
    ∃ u', UshaContext.dispatch (versionCall · c) u = (.ok (s.step v.hash v.limit c).1, u') ∧
      UshaHolds ⟨v, (s.step v.hash v.limit c).2⟩ u' := by
  obtain ⟨ctx, rfl, hheld⟩ := h
  obtain ⟨ctx', hrun, hheld'⟩ := versionCall_refines v s ctx c hheld
  exact ⟨⟨v, ctx'⟩, dispatch_run (s := ⟨v, ctx⟩) hrun, ctx', rfl, hheld'⟩

/-- A call that only returns a code. -/
theorem code_step {x : Proc UshaContext ℕ} {c : ShaCall} (hx : (do
    let code ← x
    pure (code, [])) = UshaContext.dispatch (versionCall · c)) (h : UshaHolds ⟨v, s⟩ u) :
    ∃ u', x u = (.ok (s.step v.hash v.limit c).1.1, u') ∧
      UshaHolds ⟨v, (s.step v.hash v.limit c).2⟩ u' := by
  obtain ⟨u', hrun, h'⟩ := dispatch_step h c
  rw [← hx] at hrun
  obtain ⟨code, u₁, hcode, hpure⟩ := Proc.bind_eq_ok.1 hrun
  obtain ⟨hout, rfl⟩ := Prod.mk.inj hpure
  rw [← Ret.ok.inj hout]
  exact ⟨u₁, hcode, h'⟩

end Calls

variable {recast : UshaContext → (v : ShaVersion) → v.Context}

variable (recast) in
theorem ushaReset_ok (whichSha : ShaVersion) (c : UshaContext) :
    ∃ c', ushaReset recast whichSha c = (.ok shaSuccess.toNat, c') ∧
      UshaHolds ⟨whichSha, .absorbing []⟩ c' := by
  obtain ⟨ctx, hrun, hheld⟩ := versionReset_ok whichSha (recast c whichSha)
  refine ⟨⟨whichSha, ctx⟩, ?_, ctx, rfl, hheld⟩
  rw [ushaReset, Proc.modify_bind_run]
  refine dispatch_run (s := ⟨whichSha, recast c whichSha⟩) ?_
  rw [← hrun]
  cases whichSha <;> rfl

theorem ushaCall_refines : Session.Refines UshaSession.step (ushaCall recast) UshaHolds := by
  intro s c call h
  match call with
  | .reset whichSha =>
    obtain ⟨c', hrun, hheld⟩ := ushaReset_ok recast whichSha c
    exact ⟨c', Proc.bind_ok hrun, hheld⟩
  | .call (.input octets) =>
    rw [ushaCall, ushaInput_eq]
    exact dispatch_step h _
  | .call (.finalBits messageBits length) =>
    rw [ushaCall, ushaFinalBits_eq]
    exact dispatch_step h _
  | .call .result =>
    rw [ushaCall, ushaResult_eq]
    exact dispatch_step h _

/-- From a reset on, each list of calls returns the codes and the digests of a session of the
hashes of the standard, whatever the context held before. No call is a fault. -/
theorem usha_answers (recast : UshaContext → (v : ShaVersion) → v.Context) (c : UshaContext)
    (whichSha : ShaVersion) (calls : List UshaCall) :
    (Session.run (ushaCall recast) (.reset whichSha :: calls) c).1
      = .ok ((shaSuccess.toNat, []) ::
          Session.answers UshaSession.step ⟨whichSha, .absorbing []⟩ calls) := by
  obtain ⟨c₁, hreset, h₁⟩ := ushaReset_ok recast whichSha c
  obtain ⟨c₂, hrun, -⟩ := ushaCall_refines.run calls h₁
  have hcall : ushaCall recast (.reset whichSha) c = (.ok (shaSuccess.toNat, []), c₁) :=
    Proc.bind_ok hreset
  rw [Session.run, Proc.bind_ok hcall, Proc.bind_ok hrun]
  rfl

end YkPers
