import Mathlib.Logic.Relation
import Tk8s.Lib.Script

/-!
Scripts that are run again after they were stopped.

* `Reruns`: where runs of a script lead, one after the other, each stopped anywhere or not.
* `Reruns.invariant`: what a run keeps in every state it can be stopped in, all of them keep.
* `ensure`: a script behind a completion check, which is asked again at the end.
* `reaches_command_seq`, `reaches_onlyIf_seq`: where commands in a row can be stopped.
* `Total.cond`, `Total.onlyIf`, `Total.inside`: scripts with branches that get to their end.
* `reaches_each_command`: where a loop of commands can be stopped.
* `Parts`, `putUnless`: things put in place one by one, unless one of them, the mark, is there.
* `trusted_iff`: **the mark can be trusted after any runs exactly when it is put in place last**.
-/

namespace Script

variable {σ : Type*} {α : Type*}

/-- Runs of a script, each stopped anywhere or not. -/
def Reruns (p : Script σ) : σ → σ → Prop := Relation.ReflTransGen p.Reaches

/-- What a run keeps in every state it can be stopped in, all of them keep. -/
theorem Reruns.invariant {p : Script σ} {inv post : σ → Prop} (h : Spec inv p inv post) {s t : σ}
    (runs : p.Reruns s t) (hs : inv s) : inv t := by
  induction runs with
  | refl => exact hs
  | tail _ last ih => exact h.stops ih last

/-- Where a run changes nothing, no runs do. -/
lemma Reruns.eq_of_still {p : Script σ} {s t : σ} (h : ∀ u, p.Reaches s u → u = s)
    (runs : p.Reruns s t) : t = s := by
  induction runs with
  | refl => rfl
  | tail _ last ih => exact h _ (ih ▸ last)

/-! ### A script behind its completion check -/

/-- Not done yet: the script, which has to be done then. -/
def ensure (done : σ → Bool) (p : Script σ) : Script σ :=
  onlyIf (fun s => !done s) (seq p (cond done skip fail))

section Ensure

variable {done : σ → Bool} {p : Script σ} {s t : σ}

lemma reaches_ensure_done (h : done s = true) : (ensure done p).Reaches s t ↔ t = s := by
  rw [ensure, reaches_onlyIf, h]
  simp

lemma ends_ensure_done (h : done s = true) : (ensure done p).Ends s t ↔ t = s := by
  rw [ensure, ends_onlyIf, h]
  simp

lemma reaches_ensure (h : done s = false) : (ensure done p).Reaches s t ↔ p.Reaches s t := by
  rw [ensure, reaches_onlyIf, h]
  simp only [Bool.not_false, if_true, reaches_seq, reaches_cond, reaches_skip, reaches_fail,
    ite_self]
  constructor
  · rintro (hp | ⟨_, hm, rfl⟩)
    · exact hp
    · exact hm.reaches
  · exact Or.inl

lemma ends_ensure (h : done s = false) :
    (ensure done p).Ends s t ↔ p.Ends s t ∧ done t = true := by
  rw [ensure, ends_onlyIf, h]
  simp only [Bool.not_false, if_true, ends_seq, ends_cond, ends_skip, not_ends_fail]
  constructor
  · rintro ⟨m, hm, ht⟩
    split_ifs at ht with hdone
    exact ht ▸ ⟨hm, hdone⟩
  · rintro ⟨ht, hdone⟩
    exact ⟨t, ht, by rw [if_pos hdone]⟩

/-- A script that ended behind its check is done. -/
lemma done_of_ends_ensure (h : (ensure done p).Ends s t) : done t = true := by
  by_cases hs : done s = true
  · rw [(ends_ensure_done hs).mp h, hs]
  · exact ((ends_ensure (by simpa using hs)).mp h).2

/-- What the script keeps from where it is not done, it keeps behind its check. -/
lemma Spec.ensure {inv post : σ → Prop} (hp : Spec inv p inv post) (hpost : ∀ s, post s → inv s) :
    Spec inv (ensure done p) inv inv where
  stops {s t} hs ht := by
    by_cases hd : done s = true
    · exact (reaches_ensure_done hd).mp ht ▸ hs
    · exact hp.stops hs ((reaches_ensure (by simpa using hd)).mp ht)
  ends {s t} hs ht := by
    by_cases hd : done s = true
    · exact (ends_ensure_done hd).mp ht ▸ hs
    · exact hpost _ (hp.ends hs ((ends_ensure (by simpa using hd)).mp ht).1)

end Ensure

/-! ### Commands in a row -/

section Commands

variable {p q : Script σ} {f : σ → σ} {b : σ → Bool} {s t : σ}

lemma reaches_congr (h : p s = q s) : p.Reaches s t ↔ q.Reaches s t := by rw [Reaches, Reaches, h]

lemma ends_congr (h : p s = q s) : p.Ends s t ↔ q.Ends s t := by rw [Ends, Ends, h]

lemma reaches_command_seq : (seq (command f) p).Reaches s t ↔ t = s ∨ p.Reaches (f s) t := by
  rw [reaches_seq, reaches_command]
  simp only [ends_command, exists_eq_left]
  constructor
  · rintro ((h | rfl) | h)
    · exact Or.inl h
    · exact Or.inr reaches_start
    · exact Or.inr h
  · exact fun h => h.elim (fun h => Or.inl (Or.inl h)) Or.inr

lemma ends_command_seq : (seq (command f) p).Ends s t ↔ p.Ends (f s) t := by
  rw [ends_seq]
  simp only [ends_command, exists_eq_left]

/-- A command that is left out changes nothing. -/
lemma reaches_onlyIf_seq : (seq (onlyIf b (command f)) p).Reaches s t ↔
    t = s ∨ p.Reaches (if b s then f s else s) t := by
  rw [reaches_seq, reaches_onlyIf]
  simp only [ends_onlyIf, reaches_command, ends_command]
  cases b s with
  | true =>
      simp only [if_true, exists_eq_left]
      constructor
      · rintro ((h | rfl) | h)
        · exact Or.inl h
        · exact Or.inr reaches_start
        · exact Or.inr h
      · exact fun h => h.elim (fun h => Or.inl (Or.inl h)) Or.inr
  | false => simp

lemma ends_onlyIf_seq : (seq (onlyIf b (command f)) p).Ends s t ↔
    p.Ends (if b s then f s else s) t := by
  rw [ends_seq]
  simp only [ends_onlyIf, ends_command]
  cases b s <;> simp

end Commands

/-! ### Branches that get to their end -/

namespace Spec

variable {pre stop post : σ → Prop} {p : Script σ}

/-- What always holds. -/
lemma always (hstop : ∀ s, stop s) (hpost : ∀ s, post s) : Spec pre p stop post :=
  ⟨fun _ _ => hstop _, fun _ _ => hpost _⟩

/-- A script that is never reached. -/
lemma never (h : ∀ s, ¬ pre s) : Spec pre p stop post :=
  ⟨fun hs => absurd hs (h _), fun hs => absurd hs (h _)⟩

end Spec

namespace Total

variable {pre post : σ → Prop} {p q : Script σ} {b : σ → Bool}

lemma cond (hp : Total (fun s => pre s ∧ b s = true) p post)
    (hq : Total (fun s => pre s ∧ b s = false) q post) : Total pre (Script.cond b p q) post := by
  intro s hs
  cases hb : b s with
  | true =>
      obtain ⟨t, ht, hpost⟩ := hp s ⟨hs, hb⟩
      exact ⟨t, ends_cond.mpr (by rwa [if_pos hb]), hpost⟩
  | false =>
      obtain ⟨t, ht, hpost⟩ := hq s ⟨hs, hb⟩
      exact ⟨t, ends_cond.mpr (by rwa [if_neg (by simp [hb])]), hpost⟩

lemma onlyIf (hp : Total (fun s => pre s ∧ b s = true) p post)
    (hskip : ∀ s, pre s → b s = false → post s) : Total pre (Script.onlyIf b p) post :=
  cond hp (skip fun s hs => hskip s hs.1 hs.2)

/-- A part of the state, by what becomes of it there. -/
lemma inside {τ : Type*} {get : σ → τ} {put : τ → σ → σ} {p : Script τ}
    (hput : ∀ s, put (get s) s = s)
    (h : ∀ s, pre s → ∃ u, p.Ends (get s) u ∧ post (put u s)) :
    Total pre (Script.within get put p) post := by
  intro s hs
  obtain ⟨u, hu, hpost⟩ := h s hs
  exact ⟨put u s, (ends_within (hput s)).mpr ⟨u, hu, rfl⟩, hpost⟩

end Total

/-! ### A loop of commands -/

/-- Where a loop of commands can be stopped: after the first of them. -/
theorem reaches_each_command {f : α → σ → σ} {l : List α} {s t : σ} :
    (each l fun a => command (f a)).Reaches s t ↔
      ∃ before, before <+: l ∧ t = before.foldl (fun s a => f a s) s := by
  induction l generalizing s with
  | nil => simp
  | cons a l ih =>
      rw [each_cons, reaches_seq, reaches_command]
      simp only [ends_command, exists_eq_left, ih]
      constructor
      · rintro ((rfl | rfl) | ⟨before, hbefore, rfl⟩)
        · exact ⟨[], by simp, rfl⟩
        · exact ⟨[a], by simp, rfl⟩
        · exact ⟨a :: before, List.prefix_cons_inj a |>.mpr hbefore, rfl⟩
      · rintro ⟨before, hbefore, rfl⟩
        cases before with
        | nil => exact Or.inl (Or.inl rfl)
        | cons b before =>
            obtain ⟨rfl, htail⟩ := List.cons_prefix_cons.mp hbefore
            exact Or.inr ⟨before, htail, rfl⟩

/-- Where a loop of commands ends. -/
theorem ends_each_command {f : α → σ → σ} {l : List α} {s t : σ} :
    (each l fun a => command (f a)).Ends s t ↔ t = l.foldl (fun s a => f a s) s := by
  induction l generalizing s with
  | nil => simp
  | cons a l ih =>
      rw [each_cons, ends_seq]
      simp only [ends_command, exists_eq_left, ih, List.foldl_cons]

/-! ### A mark -/

/-- Things that are there or not, and how one is put in place. -/
structure Parts (σ α : Type*) where
  has : σ → α → Bool
  put : α → σ → σ
  has_put : ∀ a b s, has (put a s) b = true ↔ b = a ∨ has s b = true

section Mark

variable (P : Parts σ α)

/-- Everything is put in place, unless the mark is there. -/
def putUnless (mark : α) (l : List α) : Script σ :=
  onlyIf (fun s => !P.has s mark) (each l fun a => command (P.put a))

variable {P} {mark : α} {l : List α} {s t : σ}

lemma has_foldl_put (b : α) :
    P.has (l.foldl (fun s a => P.put a s) s) b = true ↔ b ∈ l ∨ P.has s b = true := by
  induction l generalizing s with
  | nil => simp
  | cons a l ih =>
      rw [List.foldl_cons, ih, P.has_put, List.mem_cons]
      tauto

/-- A run stopped anywhere has put a part of the list in place. -/
lemma reaches_putUnless : (putUnless P mark l).Reaches s t ↔
    t = s ∨ P.has s mark = false ∧ ∃ before, before <+: l ∧
      t = before.foldl (fun s a => P.put a s) s := by
  rw [putUnless, reaches_onlyIf, reaches_each_command]
  cases hs : P.has s mark with
  | true => simp
  | false =>
      simp only [Bool.not_false, if_true, true_and]
      exact ⟨Or.inr, fun h => h.elim (fun h => ⟨[], by simp, h⟩) id⟩

/-- A part of the list with its last entry is the whole. -/
lemma eq_of_last_mem {some : List α} (hl : l.Nodup) (hlast : l.getLast? = .some mark)
    (hsome : some <+: l) (hmark : mark ∈ some) : some = l := by
  obtain ⟨rest, rfl⟩ := hsome
  induction rest using List.reverseRecOn with
  | nil => rw [List.append_nil]
  | append_singleton rest z =>
      rw [← List.append_assoc, List.getLast?_concat] at hlast
      rw [Option.some.inj hlast] at hl
      exact absurd rfl ((List.nodup_append.mp hl).2.2 mark hmark mark (by simp))

/-- **The mark can be trusted after any runs exactly when it is put in place last.** -/
theorem trusted_iff (hl : l.Nodup) (hmark : mark ∈ l) {empty : σ}
    (hempty : ∀ a ∈ l, P.has empty a = false) :
    (∀ s t, P.has s mark = false → (putUnless P mark l).Reruns s t → P.has t mark = true →
      ∀ a ∈ l, P.has t a = true) ↔ l.getLast? = some mark := by
  constructor
  · intro htrust
    obtain ⟨before, after, rfl⟩ := List.append_of_mem hmark
    have hstop : (putUnless P mark (before ++ mark :: after)).Reaches empty
        ((before ++ [mark]).foldl (fun s a => P.put a s) empty) :=
      reaches_putUnless.mpr (Or.inr ⟨hempty mark hmark, _, ⟨after, by simp⟩, rfl⟩)
    have hall := htrust _ _ (hempty mark hmark) (Relation.ReflTransGen.single hstop)
      ((has_foldl_put mark).mpr (Or.inl (by simp)))
    induction after using List.reverseRecOn with
    | nil => rw [List.getLast?_concat]
    | append_singleton after z =>
        have hz : z ∈ before ++ mark :: (after ++ [z]) := by simp
        cases (has_foldl_put z).mp (hall z hz) with
        | inl hmem =>
            have happ :
                before ++ mark :: (after ++ [z]) = (before ++ [mark]) ++ (after ++ [z]) := by
              simp
            rw [happ] at hl
            exact absurd rfl ((List.nodup_append.mp hl).2.2 z hmem z (by simp))
        | inr hno => rw [hempty z hz] at hno; cases hno
  · intro hlast s t hs runs
    have hkeeps : Spec (fun u => P.has u mark = true → ∀ a ∈ l, P.has u a = true)
        (putUnless P mark l) (fun u => P.has u mark = true → ∀ a ∈ l, P.has u a = true)
        fun _ => True := by
      refine ⟨fun {u v} hu hreach hv => ?_, fun _ _ => trivial⟩
      rcases reaches_putUnless.mp hreach with rfl | ⟨hno, some, hsome, rfl⟩
      · exact hu hv
      · have hmem : mark ∈ some :=
          ((has_foldl_put mark).mp hv).resolve_right fun h => by rw [hno] at h; cases h
        rw [eq_of_last_mem hl hlast hsome hmem]
        exact fun a ha => (has_foldl_put a).mpr (Or.inl ha)
    exact runs.invariant hkeeps fun h => by rw [hs] at h; cases h

end Mark

end Script
