import Tk8s.Lib.Reruns
import Tk8s.Phases

/-!
`phases.py`: the runner with one phase.

* `Leaf.alone`: the phase, as the runner visits it.
* `reaches_alone`, `ends_alone`: that is the phase behind its completion check; `reruns_alone`: and
  so are its runs, one after the other.
-/

namespace Tk8s

variable {σ : Type}

/-- The runner with this phase alone, and nothing to record. -/
def Leaf.alone (l : Leaf σ) : Script σ := Runner.run { phases := [.leaf "phase" l] }

variable {l : Leaf σ} {done : σ → Bool} {s t : σ}

lemma alone_eq : l.alone = Runner.visit { phases := [.leaf "phase" l] } ("phase", l) := by
  rw [Leaf.alone, Runner.run]
  exact Script.seq_skip

lemma isDone_eq (h : l.done = some done) : l.isDone s = done s := by
  rw [Leaf.isDone, h, Option.any_some]

lemma ends_confirm (h : l.done = some done) :
    (Runner.confirm l).Ends s t ↔ t = s ∧ done s = true := by
  have hconfirm := Runner.ends_confirm (l := ("phase", l)) (s := s) (t := t)
  rwa [h, Option.all_some] at hconfirm

lemma reaches_confirm : (Runner.confirm l).Reaches s t ↔ t = s :=
  Runner.reaches_confirm (l := ("phase", l))

/-- **The runner asks before and after a phase.** -/
theorem ends_alone (h : l.done = some done) :
    l.alone.Ends s t ↔ (Script.ensure done l.run).Ends s t := by
  rw [alone_eq]
  by_cases hd : done s = true
  · rw [Runner.ends_visit_idle (Or.inr ((isDone_eq h).trans hd)), Script.ends_ensure_done hd]
  · rw [Bool.not_eq_true] at hd
    rw [Runner.ends_visit_pending rfl ((isDone_eq h).trans hd), Script.ends_ensure hd,
      Script.ends_seq]
    simp only [Bool.false_eq_true, if_false, Script.seq_skip, ends_confirm h]
    constructor
    · rintro ⟨m, hm, rfl, hdone⟩
      exact ⟨hm, hdone⟩
    · rintro ⟨ht, hdone⟩
      exact ⟨t, ht, rfl, hdone⟩

theorem reaches_alone (h : l.done = some done) :
    l.alone.Reaches s t ↔ (Script.ensure done l.run).Reaches s t := by
  rw [alone_eq]
  by_cases hd : done s = true
  · rw [Runner.reaches_visit_idle (Or.inr ((isDone_eq h).trans hd)), Script.reaches_ensure_done hd]
  · rw [Bool.not_eq_true] at hd
    rw [Runner.reaches_visit_pending rfl ((isDone_eq h).trans hd), Script.reaches_ensure hd,
      Script.reaches_seq]
    simp only [Bool.false_eq_true, if_false, Script.seq_skip, reaches_confirm]
    constructor
    · rintro (rfl | ht | ⟨m, hm, rfl⟩)
      · exact Script.reaches_start
      · exact ht
      · exact hm.reaches
    · exact fun ht => Or.inr (Or.inl ht)

lemma reruns_alone (h : l.done = some done) :
    l.alone.Reruns s t ↔ (Script.ensure done l.run).Reruns s t := by
  have hreach : l.alone.Reaches = (Script.ensure done l.run).Reaches := by
    funext a b
    exact propext (reaches_alone h)
  rw [Script.Reruns, Script.Reruns, hreach]

end Tk8s
