import Mathlib.Data.List.Induction

/-!
Scripts of commands that can be stopped between any two of them.

* `Course`: the states a script passes through, one for each command, and whether it gets to its end.
* `Script.skip`, `fail`, `command`, `seq`, `cond`, `onlyIf`, `each`: the ways to build one.
* `Reaches`, `Ends`: where a script can be stopped, and where it ends.
* `Spec`: **a triple with a stop condition**: from a state with the precondition, every state the
  script can be stopped in has the stop condition, and a state it ends in the postcondition. One rule
  for each way to build a script; `Spec.each` is the rule for loops.
* `Total`: a script that gets to its end, with the same rules.
-/

/-- What a script does from a state. -/
structure Course (σ : Type*) where
  passed : List σ
  complete : Bool

/-- The state a course leaves behind. -/
def Course.last {σ : Type*} (c : Course σ) (s : σ) : σ := c.passed.getLastD s

def Script (σ : Type*) : Type _ := σ → Course σ

namespace Script

variable {σ : Type*} {α : Type*}

/-! ### Building scripts -/

/-- Nothing to do. -/
def skip : Script σ := fun _ => ⟨[], true⟩

/-- An error: the script does not get further. -/
def fail : Script σ := fun _ => ⟨[], false⟩

/-- One command. -/
def command (f : σ → σ) : Script σ := fun s => ⟨[f s], true⟩

/-- One script, then another. -/
def seq (p q : Script σ) : Script σ := fun s =>
  let first := p s
  if first.complete then
    let rest := q (first.last s)
    ⟨first.passed ++ rest.passed, rest.complete⟩
  else first

/-- A question about the state. -/
def cond (b : σ → Bool) (p q : Script σ) : Script σ := fun s => if b s then p s else q s

def onlyIf (b : σ → Bool) (p : Script σ) : Script σ := cond b p skip

/-- A script that depends on what the state says. -/
def ask (k : σ → Script σ) : Script σ := fun s => k s s

/-- The same for every entry of a list, in order. -/
def each (l : List α) (f : α → Script σ) : Script σ := l.foldr (fun a rest => seq (f a) rest) skip

/-- A script on a part of the state. -/
def within {τ : Type*} (get : σ → τ) (put : τ → σ → σ) (p : Script τ) : Script σ := fun s =>
  let course := p (get s)
  ⟨course.passed.map fun t => put t s, course.complete⟩

/-! ### Where a script stops and ends -/

/-- A state the script can be stopped in, before its first command included. -/
def Reaches (p : Script σ) (s t : σ) : Prop := t = s ∨ t ∈ (p s).passed

/-- The state the script ends in. -/
def Ends (p : Script σ) (s t : σ) : Prop := (p s).complete = true ∧ (p s).last s = t

/-- The state the script ends in, if it does. -/
def result (p : Script σ) (s : σ) : Option σ :=
  if (p s).complete then some ((p s).last s) else none

lemma result_eq_some {p : Script σ} {s t : σ} : p.result s = some t ↔ p.Ends s t := by
  by_cases hc : (p s).complete = true <;> simp [result, Ends, hc]

lemma reaches_start {p : Script σ} {s : σ} : p.Reaches s s := Or.inl rfl

lemma last_mem {l : List σ} {s : σ} : l.getLastD s = s ∨ l.getLastD s ∈ l := by
  cases l with
  | nil => exact Or.inl rfl
  | cons t l =>
      rw [List.getLastD_eq_getLast?, List.getLast?_eq_some_getLast (List.cons_ne_nil t l)]
      exact Or.inr (List.getLast_mem _)

lemma Ends.reaches {p : Script σ} {s t : σ} (h : p.Ends s t) : p.Reaches s t := by
  obtain ⟨-, rfl⟩ := h
  exact last_mem

lemma Ends.unique {p : Script σ} {s t t' : σ} (h : p.Ends s t) (h' : p.Ends s t') : t = t' :=
  h.2.symm.trans h'.2

@[simp] lemma reaches_skip {s t : σ} : skip.Reaches s t ↔ t = s := by simp [Reaches, skip]

@[simp] lemma ends_skip {s t : σ} : skip.Ends s t ↔ t = s := by
  simp [Ends, skip, Course.last, eq_comm]

@[simp] lemma reaches_fail {s t : σ} : fail.Reaches s t ↔ t = s := by simp [Reaches, fail]

@[simp] lemma not_ends_fail {s t : σ} : ¬ fail.Ends s t := by simp [Ends, fail]

@[simp] lemma reaches_command {f : σ → σ} {s t : σ} :
    (command f).Reaches s t ↔ t = s ∨ t = f s := by simp [Reaches, command]

@[simp] lemma ends_command {f : σ → σ} {s t : σ} : (command f).Ends s t ↔ t = f s := by
  simp [Ends, command, Course.last, eq_comm]

lemma reaches_seq {p q : Script σ} {s t : σ} :
    (seq p q).Reaches s t ↔ p.Reaches s t ∨ ∃ m, p.Ends s m ∧ q.Reaches m t := by
  by_cases hc : (p s).complete = true
  · simp only [Reaches, seq, hc, if_true, List.mem_append, Ends, true_and, exists_eq_left']
    constructor
    · rintro (h | h | h)
      · exact Or.inl (Or.inl h)
      · exact Or.inl (Or.inr h)
      · exact Or.inr (Or.inr h)
    · rintro ((h | h) | h | h)
      · exact Or.inl h
      · exact Or.inr (Or.inl h)
      · cases (last_mem : (p s).passed.getLastD s = s ∨ _) with
        | inl hs => exact Or.inl (h.trans hs)
        | inr hm => exact Or.inr (Or.inl (h ▸ hm))
      · exact Or.inr (Or.inr h)
  · simp [Reaches, seq, hc, Ends]

/-- Where the second script can be stopped, once the first ended. -/
lemma reaches_after {p q : Script σ} {s m t : σ} (hp : p.Ends s m) (hq : q.Reaches m t) :
    (seq p q).Reaches s t := reaches_seq.mpr (Or.inr ⟨m, hp, hq⟩)

lemma ends_seq {p q : Script σ} {s t : σ} :
    (seq p q).Ends s t ↔ ∃ m, p.Ends s m ∧ q.Ends m t := by
  by_cases hc : (p s).complete = true
  · simp [Ends, seq, hc, Course.last]
  · simp [Ends, seq, hc]

lemma reaches_cond {b : σ → Bool} {p q : Script σ} {s t : σ} :
    (cond b p q).Reaches s t ↔ if b s then p.Reaches s t else q.Reaches s t := by
  by_cases hb : b s = true
  · simp [Reaches, cond, hb]
  · simp [Reaches, cond, hb]

lemma ends_cond {b : σ → Bool} {p q : Script σ} {s t : σ} :
    (cond b p q).Ends s t ↔ if b s then p.Ends s t else q.Ends s t := by
  by_cases hb : b s = true
  · simp [Ends, cond, hb]
  · simp [Ends, cond, hb]

lemma reaches_onlyIf {b : σ → Bool} {p : Script σ} {s t : σ} :
    (onlyIf b p).Reaches s t ↔ if b s then p.Reaches s t else t = s := by
  rw [onlyIf, reaches_cond, reaches_skip]

lemma ends_onlyIf {b : σ → Bool} {p : Script σ} {s t : σ} :
    (onlyIf b p).Ends s t ↔ if b s then p.Ends s t else t = s := by
  rw [onlyIf, ends_cond, ends_skip]

lemma reaches_ask {k : σ → Script σ} {s t : σ} : (ask k).Reaches s t ↔ (k s).Reaches s t := Iff.rfl

lemma ends_ask {k : σ → Script σ} {s t : σ} : (ask k).Ends s t ↔ (k s).Ends s t := Iff.rfl

@[simp] lemma each_nil {f : α → Script σ} : each [] f = skip := rfl

lemma each_cons {a : α} {l : List α} {f : α → Script σ} :
    each (a :: l) f = seq (f a) (each l f) := rfl

lemma skip_seq {q : Script σ} : seq skip q = q := by
  funext s
  simp [seq, skip, Course.last]

lemma seq_skip {p : Script σ} : seq p skip = p := by
  funext s
  cases hp : p s with
  | mk passed complete => cases complete <;> simp [seq, skip, hp]

lemma seq_assoc {p q r : Script σ} : seq (seq p q) r = seq p (seq q r) := by
  funext s
  by_cases hp : (p s).complete = true
  · have hlast : (p s).last s = (p s).passed.getLast?.getD s := by simp [Course.last]
    by_cases hq : (q ((p s).last s)).complete = true <;> rw [hlast] at hq <;>
      simp [seq, hp, hq, Course.last]
  · simp [seq, hp]

/-- A loop over two lists is two loops. -/
lemma each_append {l l' : List α} {f : α → Script σ} :
    each (l ++ l') f = seq (each l f) (each l' f) := by
  induction l with
  | nil => rw [List.nil_append, each_nil, skip_seq]
  | cons a l ih => rw [List.cons_append, each_cons, each_cons, ih, seq_assoc]

lemma each_map {β : Type*} {l : List β} {g : β → α} {f : α → Script σ} :
    each (l.map g) f = each l fun b => f (g b) := by
  rw [each, each, List.foldr_map]

lemma each_congr {l : List α} {f g : α → Script σ} (h : ∀ a ∈ l, f a = g a) :
    each l f = each l g := by
  induction l with
  | nil => rfl
  | cons a l ih =>
      obtain ⟨ha, hl⟩ := List.forall_mem_cons.mp h
      rw [each_cons, each_cons, ha, ih hl]

/-- The entries for which there is nothing to do do not count. -/
lemma each_filter {l : List α} {f : α → Script σ} (keep : α → Bool)
    (h : ∀ a ∈ l, keep a = false → f a = skip) : each l f = each (l.filter keep) f := by
  induction l with
  | nil => rfl
  | cons a l ih =>
      obtain ⟨ha, hl⟩ := List.forall_mem_cons.mp h
      cases hk : keep a with
      | true => rw [List.filter_cons_of_pos hk, each_cons, each_cons, ih hl]
      | false => rw [List.filter_cons_of_neg (by simp [hk]), each_cons, ha hk, skip_seq, ih hl]

lemma ends_each_append {l l' : List α} {f : α → Script σ} {s t : σ} :
    (each (l ++ l') f).Ends s t ↔ ∃ m, (each l f).Ends s m ∧ (each l' f).Ends m t := by
  rw [each_append, ends_seq]

lemma reaches_within {τ : Type*} {get : σ → τ} {put : τ → σ → σ} {p : Script τ} {s t : σ}
    (hput : put (get s) s = s) :
    (within get put p).Reaches s t ↔ ∃ u, p.Reaches (get s) u ∧ t = put u s := by
  simp only [Reaches, within, List.mem_map]
  constructor
  · rintro (rfl | ⟨u, hu, rfl⟩)
    · exact ⟨get t, Or.inl rfl, hput.symm⟩
    · exact ⟨u, Or.inr hu, rfl⟩
  · rintro ⟨u, rfl | hu, rfl⟩
    · exact Or.inl hput
    · exact Or.inr ⟨u, hu, rfl⟩

lemma ends_within {τ : Type*} {get : σ → τ} {put : τ → σ → σ} {p : Script τ} {s t : σ}
    (hput : put (get s) s = s) :
    (within get put p).Ends s t ↔ ∃ u, p.Ends (get s) u ∧ t = put u s := by
  have hlast : ∀ l : List τ, (l.map fun u => put u s).getLastD s = put (l.getLastD (get s)) s := by
    intro l
    cases l using List.reverseRecOn with
    | nil => exact hput.symm
    | append_singleton l u => simp
  simp only [Ends, within, Course.last, hlast, and_assoc, exists_and_left, exists_eq_left',
    eq_comm (a := t)]

/-- A part of a part. -/
lemma within_within {τ υ : Type*} {get : σ → τ} {put : τ → σ → σ} {get' : τ → υ}
    {put' : υ → τ → τ} {p : Script υ} : within get put (within get' put' p) =
      within (fun s => get' (get s)) (fun u s => put (put' u (get s)) s) p := by
  funext s
  simp [within, Function.comp_def]

/-! ### Triples with a stop condition -/

/-- From `pre`, the script can only be stopped in a state with `stop`, and ends in one with
`post`. -/
structure Spec (pre : σ → Prop) (p : Script σ) (stop post : σ → Prop) : Prop where
  stops : ∀ {s t}, pre s → p.Reaches s t → stop t
  ends : ∀ {s t}, pre s → p.Ends s t → post t

namespace Spec

variable {pre pre' stop stop' post post' mid : σ → Prop} {p q : Script σ}

lemma weaken (h : Spec pre p stop post) (hpre : ∀ s, pre' s → pre s)
    (hstop : ∀ s, stop s → stop' s) (hpost : ∀ s, post s → post' s) :
    Spec pre' p stop' post' where
  stops hs ht := hstop _ (h.stops (hpre _ hs) ht)
  ends hs ht := hpost _ (h.ends (hpre _ hs) ht)

lemma skip (h : ∀ s, pre s → stop s ∧ post s) : Spec pre skip stop post where
  stops hs ht := by
    rw [reaches_skip] at ht
    exact ht ▸ (h _ hs).1
  ends hs ht := by
    rw [ends_skip] at ht
    exact ht ▸ (h _ hs).2

lemma fail (h : ∀ s, pre s → stop s) : Spec pre fail stop post where
  stops hs ht := by
    rw [reaches_fail] at ht
    exact ht ▸ h _ hs
  ends _ ht := absurd ht not_ends_fail

lemma command {f : σ → σ} (h : ∀ s, pre s → stop s ∧ stop (f s) ∧ post (f s)) :
    Spec pre (command f) stop post where
  stops hs ht := by
    obtain ⟨h₁, h₂, -⟩ := h _ hs
    cases reaches_command.mp ht with
    | inl he => exact he ▸ h₁
    | inr he => exact he ▸ h₂
  ends hs ht := by
    rw [ends_command] at ht
    exact ht ▸ (h _ hs).2.2

/-- One script, then another. -/
theorem seq {m : σ → Prop} (hp : Spec pre p stop m) (hq : Spec m q stop post) :
    Spec pre (seq p q) stop post where
  stops hs ht := by
    cases reaches_seq.mp ht with
    | inl h => exact hp.stops hs h
    | inr h =>
        obtain ⟨m, hm, h⟩ := h
        exact hq.stops (hp.ends hs hm) h
  ends hs ht := by
    obtain ⟨m, hm, h⟩ := ends_seq.mp ht
    exact hq.ends (hp.ends hs hm) h

lemma cond {b : σ → Bool} (hp : Spec (fun s => pre s ∧ b s = true) p stop post)
    (hq : Spec (fun s => pre s ∧ b s = false) q stop post) : Spec pre (cond b p q) stop post where
  stops {s t} hs ht := by
    rw [reaches_cond] at ht
    by_cases hb : b s = true
    · exact hp.stops ⟨hs, hb⟩ (by simpa [hb] using ht)
    · exact hq.stops ⟨hs, by simpa using hb⟩ (by simpa [hb] using ht)
  ends {s t} hs ht := by
    rw [ends_cond] at ht
    by_cases hb : b s = true
    · exact hp.ends ⟨hs, hb⟩ (by simpa [hb] using ht)
    · exact hq.ends ⟨hs, by simpa using hb⟩ (by simpa [hb] using ht)

lemma onlyIf {b : σ → Bool} (hp : Spec (fun s => pre s ∧ b s = true) p stop post)
    (hskip : ∀ s, pre s → b s = false → stop s ∧ post s) :
    Spec pre (onlyIf b p) stop post :=
  cond hp (skip fun s hs => hskip s hs.1 hs.2)

/-- A script on a part of the state keeps what does not depend on that part. -/
lemma within {τ : Type*} {get : σ → τ} {put : τ → σ → σ} {p : Script τ}
    (hput : ∀ s, put (get s) s = s) (h : ∀ s u, pre s → stop (put u s) ∧ post (put u s)) :
    Spec pre (within get put p) stop post where
  stops hs ht := by
    obtain ⟨u, -, rfl⟩ := (reaches_within (hput _)).mp ht
    exact (h _ u hs).1
  ends hs ht := by
    obtain ⟨u, -, rfl⟩ := (reaches_within (hput _)).mp ht.reaches
    exact (h _ u hs).2

/-- A script on a part of the state, by what it does there. -/
lemma inside {τ : Type*} {get : σ → τ} {put : τ → σ → σ} {p : Script τ}
    (hput : ∀ s, put (get s) s = s)
    (h : ∀ s, pre s → Spec (fun u => u = get s) p (fun u => stop (put u s)) fun u => post (put u s)) :
    Spec pre (Script.within get put p) stop post where
  stops hs ht := by
    obtain ⟨u, hu, rfl⟩ := (reaches_within (hput _)).mp ht
    exact (h _ hs).stops rfl hu
  ends hs ht := by
    obtain ⟨u, hu, rfl⟩ := (ends_within (hput _)).mp ht
    exact (h _ hs).ends rfl hu

lemma ask {k : σ → Script σ} (h : ∀ s, pre s → Spec (fun t => t = s) (k s) stop post) :
    Spec pre (ask k) stop post where
  stops hs ht := (h _ hs).stops rfl ht
  ends hs ht := (h _ hs).ends rfl ht

/-- **The rule for loops**: `inv` says what holds while the entries of a list are still to come. -/
theorem each {l : List α} {f : α → Script σ} {inv : List α → σ → Prop}
    (hf : ∀ a rest, Spec (inv (a :: rest)) (f a) stop (inv rest))
    (hstop : ∀ s, inv [] s → stop s) : Spec (inv l) (each l f) stop (inv []) := by
  induction l with
  | nil => exact skip fun s hs => ⟨hstop s hs, hs⟩
  | cons a rest ih => exact seq (hf a rest) ih

/-- What every script of a loop keeps, between two rounds, the loop keeps. -/
theorem each_mem {l : List α} {f : α → Script σ} {inv : σ → Prop}
    (hf : ∀ a ∈ l, Spec inv (f a) stop inv) (hstop : ∀ s, inv s → stop s) :
    Spec inv (Script.each l f) stop inv := by
  induction l with
  | nil => exact skip fun s hs => ⟨hstop s hs, hs⟩
  | cons a rest ih =>
      exact seq (hf a (by simp)) (ih fun b hb => hf b (List.mem_cons_of_mem a hb))

/-- What every script of a loop keeps, the loop keeps. -/
theorem each_keeps {l : List α} {f : α → Script σ} {inv : σ → Prop}
    (hf : ∀ a ∈ l, Spec inv (f a) inv inv) : Spec inv (Script.each l f) inv inv :=
  each_mem hf fun _ hs => hs

/-- The rule for loops, with the entries before and after the one at hand. -/
theorem each_split {l : List α} {f : α → Script σ} {inv : List α → σ → Prop}
    (hf : ∀ before a rest, l = before ++ a :: rest →
      Spec (inv (a :: rest)) (f a) stop (inv rest))
    (hstop : ∀ s, inv [] s → stop s) : Spec (inv l) (Script.each l f) stop (inv []) := by
  have hloop : ∀ before rest, l = before ++ rest →
      Spec (inv rest) (Script.each rest f) stop (inv []) := by
    intro before rest
    induction rest generalizing before with
    | nil => exact fun _ => skip fun s hs => ⟨hstop s hs, hs⟩
    | cons a rest ih =>
        intro hl
        exact seq (hf before a rest hl) (ih (before ++ [a]) (by simp [hl]))
  exact hloop [] l rfl

end Spec

/-! ### Scripts that get to their end -/

/-- From `pre` the script ends, and with `post`. -/
def Total (pre : σ → Prop) (p : Script σ) (post : σ → Prop) : Prop :=
  ∀ s, pre s → ∃ t, p.Ends s t ∧ post t

namespace Total

variable {pre pre' post post' mid : σ → Prop} {p q : Script σ}

lemma weaken (h : Total pre p post) (hpre : ∀ s, pre' s → pre s) (hpost : ∀ s, post s → post' s) :
    Total pre' p post' := by
  intro s hs
  obtain ⟨t, ht, hpt⟩ := h s (hpre s hs)
  exact ⟨t, ht, hpost t hpt⟩

lemma skip (h : ∀ s, pre s → post s) : Total pre skip post :=
  fun s hs => ⟨s, ends_skip.mpr rfl, h s hs⟩

lemma command {f : σ → σ} (h : ∀ s, pre s → post (f s)) : Total pre (command f) post :=
  fun s hs => ⟨f s, ends_command.mpr rfl, h s hs⟩

lemma seq {m : σ → Prop} (hp : Total pre p m) (hq : Total m q post) :
    Total pre (seq p q) post := by
  intro s hs
  obtain ⟨m, hm, hmid⟩ := hp s hs
  obtain ⟨t, ht, hpost⟩ := hq m hmid
  exact ⟨t, ends_seq.mpr ⟨m, hm, ht⟩, hpost⟩

lemma ask {k : σ → Script σ} (h : ∀ s, pre s → Total (fun t => t = s) (k s) post) :
    Total pre (ask k) post :=
  fun s hs => h s hs s rfl

/-- The rule for loops that get to their end. -/
theorem each_split {l : List α} {f : α → Script σ} {inv : List α → σ → Prop}
    (hf : ∀ before a rest, l = before ++ a :: rest → Total (inv (a :: rest)) (f a) (inv rest)) :
    Total (inv l) (Script.each l f) (inv []) := by
  have hloop : ∀ before rest, l = before ++ rest →
      Total (inv rest) (Script.each rest f) (inv []) := by
    intro before rest
    induction rest generalizing before with
    | nil => exact fun _ => skip fun s hs => hs
    | cons a rest ih =>
        intro hl
        exact seq (hf before a rest hl) (ih (before ++ [a]) (by simp [hl]))
  exact hloop [] l rfl

/-- A loop that keeps one thing. -/
theorem each_mem {l : List α} {f : α → Script σ} {inv : σ → Prop}
    (hf : ∀ a ∈ l, Total inv (f a) inv) : Total inv (Script.each l f) inv := by
  induction l with
  | nil => exact skip fun s hs => hs
  | cons a l ih =>
      obtain ⟨ha, hl⟩ := List.forall_mem_cons.mp hf
      exact seq ha (ih hl)

/-- What a script cannot but end with. -/
lemma and_spec {stop : σ → Prop} (h : Total pre p post) (hs : Spec pre p stop post') :
    Total pre p fun s => post s ∧ post' s := by
  intro s hpre
  obtain ⟨t, ht, hpost⟩ := h s hpre
  exact ⟨t, ht, hpost, hs.ends hpre ht⟩

end Total

end Script
