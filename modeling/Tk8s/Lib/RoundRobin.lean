import Mathlib.Data.Int.CardIntervalMod
import Mathlib.Data.List.Nodup

/-!
Taking the entries of a list in turn.

* `InTurn`: a list goes through another one in turn, from some turn on.
* `InTurn.balanced`: **no entry comes up more than once more than another**.
* `InTurn.nodup`: as long as the turns last, no entry comes up twice.
-/

namespace RoundRobin

variable {α : Type*}

/-- `out` goes through `l` in turn, from turn `start` on. -/
def InTurn (l : List α) (start : ℕ) (out : List α) : Prop :=
  ∀ i < out.length, out[i]? = l[(start + i) % l.length]?

variable {l out out' : List α} {start : ℕ} {a b : α}

@[simp] lemma inTurn_nil : InTurn l start [] := by simp [InTurn]

lemma inTurn_cons :
    InTurn l start (a :: out) ↔ l[start % l.length]? = some a ∧ InTurn l (start + 1) out := by
  constructor
  · intro h
    refine ⟨by simpa using (h 0 (by simp)).symm, fun i hi => ?_⟩
    have hnext := h (i + 1) (by simpa using hi)
    rw [List.getElem?_cons_succ] at hnext
    rw [hnext, show start + (i + 1) = start + 1 + i by omega]
  · rintro ⟨hfirst, hrest⟩ i hi
    cases i with
    | zero => simpa using hfirst.symm
    | succ i =>
        rw [List.getElem?_cons_succ, hrest i (by simpa using hi)]
        rw [show start + (i + 1) = start + 1 + i by omega]

lemma InTurn.append (h : InTurn l start out) (h' : InTurn l (start + out.length) out') :
    InTurn l start (out ++ out') := by
  induction out generalizing start with
  | nil => simpa using h'
  | cons a out ih =>
      obtain ⟨hfirst, hrest⟩ := inTurn_cons.mp h
      refine inTurn_cons.mpr ⟨hfirst, ih hrest ?_⟩
      rwa [List.length_cons, show start + (out.length + 1) = start + 1 + out.length by omega] at h'

/-- The turns an entry comes up in. -/
lemma InTurn.count_eq [DecidableEq α] (h : InTurn l start out) (hl : l.Nodup) {j : ℕ}
    (hj : l[j]? = some a) : out.count a = Nat.count (fun i => (start + i) % l.length = j) out.length := by
  induction out generalizing start with
  | nil => simp
  | cons b out ih =>
      obtain ⟨hfirst, hrest⟩ := inTurn_cons.mp h
      obtain ⟨hlt, hget⟩ := List.getElem?_eq_some_iff.mp hfirst
      obtain ⟨hjlt, hjget⟩ := List.getElem?_eq_some_iff.mp hj
      have hsame : (start + 0) % l.length = j ↔ b = a := by
        rw [Nat.add_zero, ← hget, ← hjget, hl.getElem_inj_iff]
      rw [List.length_cons, Nat.count_succ', List.count_cons, ih hrest]
      simp only [hsame, beq_iff_eq, Nat.add_assoc, Nat.add_comm 1]

/-- **Nothing comes up more than once more than anything else**. -/
theorem InTurn.balanced [DecidableEq α] (h : InTurn l 0 out) (hl : l.Nodup) (ha : a ∈ l)
    (hb : b ∈ l) : out.count a ≤ out.count b + 1 := by
  obtain ⟨i, hi, hai⟩ := List.getElem_of_mem ha
  obtain ⟨j, hj, hbj⟩ := List.getElem_of_mem hb
  have hpos : 0 < l.length := by omega
  have hturns : ∀ k < l.length, Nat.count (fun i => (0 + i) % l.length = k) out.length =
      out.length / l.length + if k % l.length < out.length % l.length then 1 else 0 := by
    intro k hk
    rw [← Nat.count_modEq_card _ hpos]
    congr 1
    funext i
    rw [Nat.zero_add, Nat.ModEq, Nat.mod_eq_of_lt hk]
  rw [h.count_eq hl (List.getElem?_eq_some_iff.mpr ⟨hi, hai⟩),
    h.count_eq hl (List.getElem?_eq_some_iff.mpr ⟨hj, hbj⟩), hturns i hi, hturns j hj]
  split <;> split <;> omega

/-- As long as the turns last, nothing comes up twice. -/
theorem InTurn.nodup (h : InTurn l start out) (hl : l.Nodup) (hlen : out.length ≤ l.length) :
    out.Nodup := by
  rw [List.nodup_iff_getElem?_ne_getElem?]
  intro i j hij hj heq
  rw [h i (by omega), h j hj] at heq
  have hpos : 0 < l.length := by omega
  have hsame := (List.getElem?_inj (Nat.mod_lt (start + i) hpos) hl).mp heq
  have hi' : i < l.length := by omega
  have hj' : j < l.length := by omega
  have hmod : i % l.length = j % l.length := Nat.ModEq.add_left_cancel' start hsame
  rw [Nat.mod_eq_of_lt hi', Nat.mod_eq_of_lt hj'] at hmod
  omega

end RoundRobin
