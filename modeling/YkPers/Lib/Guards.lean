import Mathlib.Data.List.Pairwise

/-!
# Guards on a sequence

The items of a sequence leave marks. An item is guarded against some marks, and is refused when
one of them has been left before it. Whether no two conflicting marks meet in an admitted
sequence is then a matter of its gaps: the pairs whose marks conflict and of which the later one
is not guarded against the earlier one (`Admitted.exclusive_iff`).
-/

namespace Guards

variable {K M : Type*} (mark : K → Option M) (guards : K → List M)

def Marked (ks : List K) (m : M) : Prop := ∃ k ∈ ks, mark k = some m

/-- No item comes behind one whose mark it is guarded against. -/
def Admitted (ks : List K) : Prop :=
  ks.Pairwise fun e l => ∀ m, mark e = some m → m ∉ guards l

variable {mark guards}

theorem marked_concat {ks : List K} {k : K} {m : M} :
    Marked mark (ks ++ [k]) m ↔ Marked mark ks m ∨ mark k = some m := by
  simp only [Marked, List.mem_append, List.mem_singleton]
  refine ⟨?_, ?_⟩
  · rintro ⟨j, hj | rfl, hm⟩
    · exact .inl ⟨j, hj, hm⟩
    · exact .inr hm
  · rintro (⟨j, hj, hm⟩ | hm)
    · exact ⟨j, .inl hj, hm⟩
    · exact ⟨k, .inr rfl, hm⟩

theorem admitted_concat {ks : List K} {k : K} :
    Admitted mark guards (ks ++ [k])
      ↔ Admitted mark guards ks ∧ ∀ m ∈ guards k, ¬ Marked mark ks m := by
  rw [Admitted, List.pairwise_append]
  refine ⟨fun h => ⟨h.1, ?_⟩, fun h => ⟨h.1, List.pairwise_singleton _ _, ?_⟩⟩
  · rintro m hm ⟨e, he, hme⟩
    exact h.2.2 e he k (by simp) m hme hm
  · intro e he l hl m hme hm
    rw [List.mem_singleton] at hl
    exact h.2 m (hl ▸ hm) ⟨e, he, hme⟩

section Conflicts

variable (conflict : M → M → Prop)

def Exclusive (mark : K → Option M) (ks : List K) : Prop :=
  ∀ m n, Marked mark ks m → Marked mark ks n → ¬ conflict m n

/-- The marks conflict, and the later item is not guarded against the earlier one. -/
def Gap (mark : K → Option M) (guards : K → List M) (e l : K) : Prop :=
  ∃ m ∈ mark e, ∃ n ∈ mark l, conflict m n ∧ m ∉ guards l

instance [DecidableEq M] [DecidableRel conflict] : DecidableRel (Gap conflict mark guards) :=
  fun e l => inferInstanceAs (Decidable (∃ m ∈ mark e, ∃ n ∈ mark l, conflict m n ∧ m ∉ guards l))

variable {conflict}

theorem Admitted.exclusive_iff (hs : ∀ m n, conflict m n → conflict n m)
    (hi : ∀ m, ¬ conflict m m) {ks : List K} (h : Admitted mark guards ks) :
    Exclusive conflict mark ks ↔ ks.Pairwise fun e l => ¬ Gap conflict mark guards e l := by
  refine ⟨fun hx => ?_, fun hg => ?_⟩
  · refine List.pairwise_of_forall_mem_list fun e he l hl => ?_
    rintro ⟨m, hm, n, hn, hc, -⟩
    exact hx m n ⟨e, he, hm⟩ ⟨l, hl, hn⟩ hc
  · let apart : K → K → Prop := fun e l =>
      ∀ m n, mark e = some m → mark l = some n → ¬ conflict m n
    have hsymm : Std.Symm apart := ⟨fun e l hel m n hm hn hc => hel n m hn hm (hs m n hc)⟩
    have hself : ∀ e ∈ ks, apart e e := fun e _ m n hm hn hc =>
      hi m (by rwa [Option.some.inj (hn.symm.trans hm)] at hc)
    have hpair : ks.Pairwise apart := by
      refine (h.and hg).imp ?_
      rintro e l ⟨hadm, hgap⟩ m n hm hn hc
      exact hgap ⟨m, hm, n, hn, hc, hadm m hm⟩
    rintro m n ⟨e, he, hm⟩ ⟨l, hl, hn⟩
    exact hpair.forall_of_forall hself he hl m n hm hn

theorem Admitted.exclusive (hs : ∀ m n, conflict m n → conflict n m) (hi : ∀ m, ¬ conflict m m)
    (hg : ∀ e l, ¬ Gap conflict mark guards e l) {ks : List K} (h : Admitted mark guards ks) :
    Exclusive conflict mark ks :=
  (h.exclusive_iff hs hi).2 (List.pairwise_of_forall hg)

end Conflicts

end Guards
