import Mathlib.Data.List.Basic
import Mathlib.Data.List.Infix
import Tk8s.Lib.Checked

/-!
Questions put to parties of which some may not answer.

* `Audience`: what is true of each party, and who is silent at which question.
* `Inquiry`: a computation that asks, with the answers noted so far; `ask` puts one question.
* `noneOf`: asks a list of questions in order, up to the first answer that is yes.
* `noneOf_eq_ok`: **who concludes that there is nothing has heard it from everyone asked**.
* `noneOf_of_heard`: where nobody is silent, the questions are answered with the truth.
-/

/-- One answer on the notes. -/
structure Note (π ι : Type) where
  party : π
  about : ι
  yes : Bool

/-- The parties: `silent n p` is the error raised when `p` does not answer question number `n`. -/
structure Audience (π ι ε : Type) where
  silent : ℕ → π → Option ε
  holds : π → ι → Bool

/-- Nothing of this holds. -/
def Audience.lacks {π ι ε : Type} (a : Audience π ι ε) (qs : List (π × ι)) : Bool :=
  qs.all fun q => !a.holds q.1 q.2

/-- A computation that asks questions and notes the answers. -/
abbrev Inquiry (π ι ε α : Type) := StateT (List (Note π ι)) (Except ε) α

namespace Inquiry

variable {π ι ε α : Type}

/-- One question. -/
def ask (a : Audience π ι ε) (p : π) (i : ι) : Inquiry π ι ε Bool := fun notes =>
  match a.silent notes.length p with
  | some e => .error e
  | none => .ok (a.holds p i, notes ++ [⟨p, i, a.holds p i⟩])

/-- `not any(...)`. -/
def noneOf (a : Audience π ι ε) : List (π × ι) → Inquiry π ι ε Bool
  | [] => pure true
  | q :: rest => do
      if ← ask a q.1 q.2 then return false
      noneOf a rest

variable {a : Audience π ι ε} {qs qs' : List (π × ι)} {notes notes' : List (Note π ι)} {b : Bool}

lemma bind_apply {β : Type} (x : Inquiry π ι ε α) (f : α → Inquiry π ι ε β) :
    (x >>= f) notes = (x notes >>= fun p => f p.1 p.2) := rfl

lemma pure_apply (x : α) : (pure x : Inquiry π ι ε α) notes = .ok (x, notes) := rfl

lemma ask_eq_ok {p : π} {i : ι} : ask a p i notes = .ok (b, notes') ↔
    a.silent notes.length p = none ∧ b = a.holds p i ∧ notes' = notes ++ [⟨p, i, b⟩] := by
  rw [ask]
  cases a.silent notes.length p with
  | some e => simp
  | none =>
      simp only [Except.ok.injEq, Prod.mk.injEq, true_and]
      constructor
      · rintro ⟨rfl, rfl⟩
        exact ⟨rfl, rfl⟩
      · rintro ⟨rfl, rfl⟩
        exact ⟨rfl, rfl⟩

lemma noneOf_cons {q : π × ι} : noneOf a (q :: qs) notes =
    (ask a q.1 q.2 notes >>= fun p => if p.1 then .ok (false, p.2) else noneOf a qs p.2) := by
  rw [noneOf, bind_apply]
  congr 1
  funext p
  cases p.1 <;> rfl

/-- **What was concluded is the truth, and a party that has nothing said so.** -/
theorem noneOf_eq_ok (h : noneOf a qs notes = .ok (b, notes')) :
    b = a.lacks qs ∧ notes <+: notes' ∧
      (b = true → ∀ q ∈ qs, (⟨q.1, q.2, false⟩ : Note π ι) ∈ notes') := by
  induction qs generalizing notes with
  | nil =>
      rw [noneOf, pure_apply] at h
      obtain ⟨rfl, rfl⟩ := Prod.mk.inj (Except.ok.inj h)
      exact ⟨rfl, List.prefix_refl _, fun _ q hq => absurd hq (by simp)⟩
  | cons q qs ih =>
      rw [noneOf_cons, Checked.bind_eq_ok] at h
      obtain ⟨⟨yes, asked⟩, hask, hrest⟩ := h
      obtain ⟨-, rfl, rfl⟩ := ask_eq_ok.mp hask
      cases hq : a.holds q.1 q.2 with
      | true =>
          rw [hq, if_pos rfl] at hrest
          obtain ⟨rfl, rfl⟩ := Prod.mk.inj (Except.ok.inj hrest)
          refine ⟨by simp [Audience.lacks, hq], List.prefix_append _ _, fun h => ?_⟩
          exact absurd h (by simp)
      | false =>
          rw [hq, if_neg (by simp)] at hrest
          obtain ⟨hb, hprefix, hnoted⟩ := ih hrest
          have hhere := (List.prefix_append notes [⟨q.1, q.2, false⟩]).trans hprefix
          refine ⟨by simp [hb, Audience.lacks, hq], hhere, fun htrue q' hq' => ?_⟩
          cases List.mem_cons.mp hq' with
          | inl he =>
              rw [he]
              exact hprefix.subset (by simp)
          | inr hmem => exact hnoted htrue q' hmem

/-- **Where nobody is silent, the questions are answered with the truth.** -/
theorem noneOf_of_heard (h : ∀ n p, a.silent n p = none) (qs : List (π × ι))
    (notes : List (Note π ι)) :
    ∃ notes', noneOf a qs notes = .ok (a.lacks qs, notes') := by
  induction qs generalizing notes with
  | nil => exact ⟨notes, rfl⟩
  | cons q qs ih =>
      have hask : ask a q.1 q.2 notes =
          .ok (a.holds q.1 q.2, notes ++ [⟨q.1, q.2, a.holds q.1 q.2⟩]) :=
        ask_eq_ok.mpr ⟨h _ _, rfl, rfl⟩
      rw [noneOf_cons, hask, Checked.ok_bind]
      cases hq : a.holds q.1 q.2 with
      | true => exact ⟨notes ++ [⟨q.1, q.2, true⟩], by simp [Audience.lacks, hq]⟩
      | false =>
          obtain ⟨notes', hrest⟩ := ih (notes ++ [⟨q.1, q.2, false⟩])
          exact ⟨notes', by simpa [Audience.lacks, hq] using hrest⟩

/-- Two lists of questions are one. -/
lemma noneOf_append : noneOf a (qs ++ qs') =
    (do if ← noneOf a qs then noneOf a qs' else return false) := by
  funext notes
  induction qs generalizing notes with
  | nil => rfl
  | cons q qs ih =>
      rw [List.cons_append, noneOf_cons, bind_apply, noneOf_cons]
      cases hask : ask a q.1 q.2 notes with
      | error e => rfl
      | ok p =>
          rw [Checked.ok_bind, Checked.ok_bind]
          cases hp : p.1 with
          | true => rfl
          | false => exact ih p.2

/-- `all(...)` over a list, each with questions of its own. -/
lemma allM_noneOf {τ : Type} (l : List τ) (f : τ → List (π × ι)) :
    (l.allM fun x => noneOf a (f x)) = noneOf a (l.flatMap f) := by
  induction l with
  | nil => rfl
  | cons x l ih =>
      rw [List.flatMap_cons, noneOf_append, ← ih, List.allM]
      congr 1
      funext yes
      cases yes <;> rfl

end Inquiry
