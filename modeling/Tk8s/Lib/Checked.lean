import Mathlib.Logic.Basic
import Mathlib.Data.List.Forall2

/-!
Computations in `Except` that check and refuse.

* `refuseIf`: raise an error when a condition holds.
* `bind_eq_ok`, `check_bind_eq_ok`, `map_eq_ok`, `refuseIf_eq_ok`, `forM_eq_ok`,
  `ofOption_eq_ok`: a successful computation read backwards, one lemma for each way to compose
  them. As a `simp` set they turn the success of a `do` block into the facts it checked.
* `mapM_eq_ok`: a list computed entry by entry.
* `FailsOnly`: which errors a computation can end with, again one lemma for each way to compose.
-/

namespace Checked

variable {ε α β : Type}

/-- Raise `e` when `bad` holds. -/
def refuseIf (bad : Prop) [Decidable bad] (e : ε) : Except ε Unit :=
  if bad then .error e else .ok ()

/-- The value, or the error when there is none. -/
def ofOption (e : ε) : Option α → Except ε α
  | some a => .ok a
  | none => .error e

@[simp] lemma refuseIf_eq_ok {bad : Prop} [Decidable bad] {e : ε} {u : Unit} :
    refuseIf bad e = .ok u ↔ ¬ bad := by
  unfold refuseIf
  split <;> simp_all

lemma refuseIf_eq_error {bad : Prop} [Decidable bad] {e e' : ε} :
    refuseIf bad e = .error e' ↔ bad ∧ e = e' := by
  unfold refuseIf
  split <;> simp_all

@[simp] lemma ofOption_eq_ok {e : ε} {o : Option α} {a : α} :
    ofOption e o = .ok a ↔ o = some a := by
  cases o <;> simp [ofOption]

lemma exists_eq_ok {x : Except ε α} (h : x.isOk = true) : ∃ a, x = .ok a := by
  cases x with
  | error e => simp [Except.isOk, Except.toBool] at h
  | ok a => exact ⟨a, rfl⟩

@[simp] lemma bind_eq_ok {x : Except ε α} {f : α → Except ε β} {b : β} :
    x >>= f = .ok b ↔ ∃ a, x = .ok a ∧ f a = .ok b := by
  cases x <;> simp [bind, Except.bind]

lemma exists_unit {p : Unit → Prop} : (∃ u, p u) ↔ p () :=
  ⟨fun ⟨(), h⟩ => h, fun h => ⟨(), h⟩⟩

/-- A check, then the rest. -/
lemma check_bind_eq_ok {x : Except ε Unit} {f : Unit → Except ε β} {b : β} :
    x >>= f = .ok b ↔ x = .ok () ∧ f () = .ok b := by
  rw [bind_eq_ok, exists_unit]

@[simp] lemma ok_bind {a : α} {f : α → Except ε β} : (Except.ok a >>= f) = f a := rfl

@[simp] lemma error_bind {e : ε} {f : α → Except ε β} :
    ((Except.error e : Except ε α) >>= f) = .error e := rfl

@[simp] lemma map_eq_ok {x : Except ε α} {f : α → β} {b : β} :
    f <$> x = .ok b ↔ ∃ a, x = .ok a ∧ f a = b := by
  cases x <;> simp [Functor.map, Except.map]

@[simp] lemma pure_eq_ok {a b : α} : (pure a : Except ε α) = .ok b ↔ a = b := by
  simp [pure, Except.pure]

@[simp] lemma throw_ne_ok {e : ε} {a : α} : (throw e : Except ε α) ≠ .ok a := by
  simp [throw, throwThe, MonadExceptOf.throw]

/-- A check of every entry passes when the check of each does. -/
@[simp] lemma forM_eq_ok {l : List α} {f : α → Except ε Unit} {u : Unit} :
    forM l f = .ok u ↔ ∀ a ∈ l, f a = .ok () := by
  induction l with
  | nil => simp
  | cons a l ih =>
      simp only [List.forM_cons, bind_eq_ok, ih, List.forall_mem_cons]
      exact ⟨fun ⟨(), ha, hl⟩ => ⟨ha, hl⟩, fun ⟨ha, hl⟩ => ⟨(), ha, hl⟩⟩

/-- A list computed entry by entry. -/
lemma mapM_eq_ok {l : List α} {f : α → Except ε β} {r : List β} :
    l.mapM f = .ok r ↔ List.Forall₂ (fun a b => f a = .ok b) l r := by
  induction l generalizing r with
  | nil =>
      rw [List.mapM_nil, pure_eq_ok, List.forall₂_nil_left_iff]
      exact eq_comm
  | cons a l ih =>
      rw [List.mapM_cons, List.forall₂_cons_left_iff]
      simp only [bind_eq_ok, pure_eq_ok, ih]
      constructor
      · rintro ⟨b, hb, bs, hbs, rfl⟩
        exact ⟨b, bs, hb, hbs, rfl⟩
      · rintro ⟨b, bs, hb, hbs, rfl⟩
        exact ⟨b, hb, bs, hbs, rfl⟩

lemma exists_of_mapM {l : List α} {f : α → Except ε β} {r : List β} {a : α}
    (h : l.mapM f = .ok r) (ha : a ∈ l) : ∃ b, f a = .ok b := by
  rw [mapM_eq_ok] at h
  induction h with
  | nil => simp at ha
  | cons hb _ ih =>
      cases List.mem_cons.mp ha with
      | inl he => exact ⟨_, he ▸ hb⟩
      | inr hm => exact ih hm

/-- `all(f(a) for a in l)`: true when it is for every entry. -/
lemma allM_eq_true {l : List α} {f : α → Except ε Bool} :
    l.allM f = .ok true ↔ ∀ a ∈ l, f a = .ok true := by
  induction l with
  | nil => simp [List.allM]
  | cons a l ih =>
      rw [List.allM, List.forall_mem_cons]
      cases hfa : f a with
      | error e => simp
      | ok b => cases b <;> simp [ih]

/-- What a pointwise related list holds comes from the list it is related to. -/
lemma exists_of_forall₂ {α β : Type} {R : α → β → Prop} {l : List α} {l' : List β}
    (h : List.Forall₂ R l l') : ∀ b ∈ l', ∃ a ∈ l, R a b := by
  induction h with
  | nil => simp
  | cons hab _ ih =>
      intro b hb
      rcases List.mem_cons.mp hb with rfl | hb
      · exact ⟨_, List.mem_cons_self, hab⟩
      · obtain ⟨a, ha, hr⟩ := ih b hb
        exact ⟨a, List.mem_cons_of_mem _ ha, hr⟩

/-- A list whose entries can all be computed. -/
lemma exists_mapM {l : List α} {f : α → Except ε β} (h : ∀ a ∈ l, ∃ b, f a = .ok b) :
    ∃ r, l.mapM f = .ok r := by
  induction l with
  | nil => exact ⟨[], rfl⟩
  | cons a l ih =>
      obtain ⟨⟨b, hb⟩, hl⟩ := List.forall_mem_cons.mp h
      obtain ⟨bs, hbs⟩ := ih hl
      exact ⟨b :: bs, by rw [List.mapM_cons, hb, ok_bind, hbs]; rfl⟩

/-- `[a for a in l if f(a)]`. -/
def keep (f : α → Except ε Bool) : List α → Except ε (List α)
  | [] => .ok []
  | a :: l => do
      let b ← f a
      let kept ← keep f l
      return if b then a :: kept else kept

/-- What is kept of a list. -/
lemma mem_keep {f : α → Except ε Bool} {l r : List α} (h : keep f l = .ok r) {a : α} :
    a ∈ r ↔ a ∈ l ∧ f a = .ok true := by
  induction l generalizing r with
  | nil =>
      obtain rfl : [] = r := Except.ok.inj h
      simp
  | cons b l ih =>
      simp only [keep, bind_eq_ok, pure_eq_ok] at h
      obtain ⟨c, hc, kept, hkept, rfl⟩ := h
      cases c with
      | true =>
          simp only [if_true, List.mem_cons, ih hkept]
          constructor
          · rintro (rfl | ⟨ha, hf⟩)
            · exact ⟨Or.inl rfl, hc⟩
            · exact ⟨Or.inr ha, hf⟩
          · rintro ⟨rfl | ha, hf⟩
            · exact Or.inl rfl
            · exact Or.inr ⟨ha, hf⟩
      | false =>
          simp only [Bool.false_eq_true, if_false, ih hkept, List.mem_cons]
          constructor
          · exact fun ⟨ha, hf⟩ => ⟨Or.inr ha, hf⟩
          · rintro ⟨rfl | ha, hf⟩
            · rw [hc] at hf
              simp at hf
            · exact ⟨ha, hf⟩

/-- Every entry of a list is looked at. -/
lemma exists_of_keep {f : α → Except ε Bool} {l r : List α} (h : keep f l = .ok r) :
    ∀ a ∈ l, ∃ b, f a = .ok b := by
  induction l generalizing r with
  | nil => simp
  | cons b l ih =>
      simp only [keep, bind_eq_ok] at h
      obtain ⟨c, hc, kept, hkept, -⟩ := h
      exact List.forall_mem_cons.mpr ⟨⟨c, hc⟩, ih hkept⟩

/-! ### Which errors -/

/-- Every error of the computation satisfies `P`. -/
def FailsOnly (P : ε → Prop) (x : Except ε α) : Prop := ∀ e, x = .error e → P e

variable {P : ε → Prop}

lemma failsOnly_of_ok {x : Except ε α} {a : α} (h : x = .ok a) : FailsOnly P x := by
  intro e he
  rw [h] at he
  simp at he

lemma failsOnly_error {e : ε} (h : P e) : FailsOnly P (.error e : Except ε α) := by
  intro e' he
  exact Except.error.inj he ▸ h

lemma failsOnly_bind {x : Except ε α} {f : α → Except ε β} (hx : FailsOnly P x)
    (hf : ∀ a, x = .ok a → FailsOnly P (f a)) : FailsOnly P (x >>= f) := by
  cases x with
  | error e => exact failsOnly_error (hx e rfl)
  | ok a => exact hf a rfl

lemma failsOnly_map {x : Except ε α} {f : α → β} (hx : FailsOnly P x) : FailsOnly P (f <$> x) := by
  cases x with
  | error e => exact failsOnly_error (hx e rfl)
  | ok a => exact failsOnly_of_ok rfl

lemma failsOnly_refuseIf {bad : Prop} [Decidable bad] {e : ε} (h : P e) :
    FailsOnly P (refuseIf bad e) := by
  intro e' he
  exact (refuseIf_eq_error.mp he).2 ▸ h

lemma failsOnly_ofOption {e : ε} {o : Option α} (h : P e) : FailsOnly P (ofOption e o) := by
  cases o with
  | none => exact failsOnly_error h
  | some a => exact failsOnly_of_ok rfl

lemma failsOnly_forM {l : List α} {f : α → Except ε Unit} (h : ∀ a ∈ l, FailsOnly P (f a)) :
    FailsOnly P (forM l f) := by
  induction l with
  | nil => exact failsOnly_of_ok rfl
  | cons a l ih =>
      obtain ⟨ha, hl⟩ := List.forall_mem_cons.mp h
      rw [List.forM_cons]
      exact failsOnly_bind ha fun _ _ => ih hl

lemma failsOnly_mapM {l : List α} {f : α → Except ε β} (h : ∀ a, FailsOnly P (f a)) :
    FailsOnly P (l.mapM f) := by
  induction l with
  | nil => exact failsOnly_of_ok rfl
  | cons a l ih =>
      rw [List.mapM_cons]
      exact failsOnly_bind (h a) fun _ _ => failsOnly_bind ih fun _ _ => failsOnly_of_ok rfl

end Checked
