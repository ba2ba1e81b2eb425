import YkPers.Lib.Buffer

/-!
# Frames over a line that loses parts

A receiver of sparse transfers takes a frame as whole behind its last part (`frames`). A part whose
sending failed may have arrived or not (`Arrives`). Of a transfer that breaks off nothing is taken,
and of one that comes to its end what was sent, whatever the receiver held before
(`frames_take_encode`).
-/

/-! ## What arrives -/

section Arrives

variable {β : Type*}

/-- Of what was sent, each with whether that succeeded, a part that failed may be missing. -/
inductive Arrives : List (β × Bool) → List β → Prop
  | nil : Arrives [] []
  | sent (x : β) (ok : Bool) {ps : List (β × Bool)} {xs : List β} :
    Arrives ps xs → Arrives ((x, ok) :: ps) (x :: xs)
  | lost (x : β) {ps : List (β × Bool)} {xs : List β} :
    Arrives ps xs → Arrives ((x, false) :: ps) xs

namespace Arrives

variable {ps qs : List (β × Bool)} {xs : List β}

theorem eq_nil (h : Arrives ([] : List (β × Bool)) xs) : xs = [] := by
  cases h
  rfl

/-- What failed at the end arrives or does not. -/
theorem of_single {x : β} {ok : Bool} (h : Arrives [(x, ok)] xs) :
    xs = [x] ∨ ok = false ∧ xs = [] := by
  cases h with
  | sent _ _ h => exact .inl (by rw [h.eq_nil])
  | lost _ h => exact .inr ⟨rfl, h.eq_nil⟩

theorem of_append : ∀ {ps : List (β × Bool)} {xs : List β}, Arrives (ps ++ qs) xs →
    ∃ ys zs, xs = ys ++ zs ∧ Arrives ps ys ∧ Arrives qs zs
  | [], xs, h => ⟨[], xs, rfl, .nil, h⟩
  | (x, ok) :: ps, xs, h => by
    rw [List.cons_append] at h
    cases h with
    | sent _ _ h =>
      obtain ⟨ys, zs, rfl, hys, hzs⟩ := of_append h
      exact ⟨x :: ys, zs, rfl, .sent x ok hys, hzs⟩
    | lost _ h =>
      obtain ⟨ys, zs, rfl, hys, hzs⟩ := of_append h
      exact ⟨ys, zs, rfl, .lost x hys, hzs⟩

/-- All of it may arrive. -/
theorem all : ∀ ps : List (β × Bool), Arrives ps (ps.map Prod.fst)
  | [] => .nil
  | (x, ok) :: ps => .sent x ok (all ps)

end Arrives

end Arrives

/-! ## What is taken as whole -/

namespace Buffer

variable {α : Type*} (blank : α) (m k : ℕ)

/-- The frames that are whole behind one of the parts. -/
def frames (buf : List α) : List (ℕ × List α) → List (List α)
  | [] => []
  | p :: ps =>
    let buf := receive blank m k buf p
    if p.1 + 1 = k then buf :: frames buf ps else frames buf ps

variable {blank m k}

theorem frames_append (qs : List (ℕ × List α)) : ∀ (ps : List (ℕ × List α)) (buf : List α),
    frames blank m k buf (ps ++ qs)
      = frames blank m k buf ps ++ frames blank m k (decode blank m k buf ps) qs
  | [], _ => rfl
  | p :: ps, buf => by
    have ih := frames_append qs ps (receive blank m k buf p)
    simp only [List.cons_append, frames, ih]
    split_ifs <;> rfl

/-- Without a last part nothing is whole. -/
theorem frames_eq_nil : ∀ {ps : List (ℕ × List α)} (buf : List α), (∀ p ∈ ps, p.1 + 1 ≠ k) →
    frames blank m k buf ps = []
  | [], _, _ => rfl
  | p :: ps, buf, h => by
    simp only [frames, if_neg (h p List.mem_cons_self)]
    exact frames_eq_nil _ fun q hq => h q (List.mem_cons_of_mem p hq)

variable [DecidableEq α]

variable (blank m) in
/-- The last part of a transfer is the one of the last number. -/
theorem encode_eq_concat (l : List α) (k : ℕ) : ∃ ps,
    encode blank m (k + 1) l = ps ++ [(k, part m l k)] ∧ ∀ p ∈ ps, p.1 + 1 ≠ k + 1 := by
  have hlast : kept blank m (k + 1) l k = true := by simp [kept]
  refine ⟨((List.range k).filter (kept blank m (k + 1) l)).map fun s => (s, part m l s), ?_, ?_⟩
  · simp [encode, List.range_succ, List.filter_append, hlast]
  · intro p hp
    simp only [List.mem_map, List.mem_filter, List.mem_range] at hp
    obtain ⟨s, ⟨hs, -⟩, rfl⟩ := hp
    exact fun h => Nat.ne_of_lt hs (Nat.succ.inj h)

/-- A transfer that breaks off brings nothing, and a whole one the frame. -/
theorem frames_take_encode {l : List α} (hl : l.length = m * k) (hk : 0 < k) (buf : List α)
    (n : ℕ) :
    frames blank m k buf ((encode blank m k l).take n)
      = if (encode blank m k l).length ≤ n then [l] else [] := by
  obtain ⟨k, rfl⟩ : ∃ j, k = j + 1 := ⟨k - 1, by omega⟩
  have hwhole : decode blank m (k + 1) buf (encode blank m (k + 1) l) = l :=
    decode_encode hl hk buf
  obtain ⟨ps, hps, hne⟩ := encode_eq_concat blank m l k
  rw [hps] at hwhole ⊢
  split_ifs with hn
  · rw [decode, List.foldl_append, List.foldl_cons, List.foldl_nil] at hwhole
    rw [List.take_of_length_le hn, frames_append, frames_eq_nil _ hne, List.nil_append]
    simp only [frames, if_true, decode, hwhole]
  · refine frames_eq_nil _ fun p hp => hne p ?_
    rw [List.length_append, List.length_singleton] at hn
    rw [List.take_append_of_le_length (by omega)] at hp
    exact List.mem_of_mem_take hp

end Buffer
