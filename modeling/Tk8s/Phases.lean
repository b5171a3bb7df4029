import Tk8s.Lib.Script
import Tk8s.Model

/-!
`phases.py`: phases and the runner.

* `Phase`: a tree of phases; `Phase.leaves` lists what runs, under its full name.
* `Runner`: which leaves are selected and skipped, and what the runner does around a phase
  (`Runner.visit`, `Runner.run`).
* `reaches_visits_idle`: **a run starts with the first phase that is neither skipped nor found
  done**.
* `Runner.Through`: every phase found done, or run and found done then; `through_of_ends`: **a run
  that ends went through every phase**.
* `spec_visits`: what the phases and the record keep, a run keeps.
-/

namespace Tk8s

variable {σ : Type}

/-! ### Phases -/

/-- A phase without children: `done` is none when there is no completion state and it runs every
time. -/
structure Leaf (σ : Type) where
  done : Option (σ → Bool)
  run : Script σ

/-- A phase, with its name; one with children does nothing of its own. -/
inductive Phase (σ : Type) where
  | leaf (name : String) (body : Leaf σ)
  | group (name : String) (children : List (Phase σ))

mutual

/-- What runs, in order, under its full name. -/
def Phase.leaves (above : String) : Phase σ → List (String × Leaf σ)
  | .leaf name body => [(above ++ name, body)]
  | .group name children => leavesOf (above ++ name ++ "/") children

def leavesOf (above : String) : List (Phase σ) → List (String × Leaf σ)
  | [] => []
  | p :: rest => p.leaves above ++ leavesOf above rest

end

/-- A leaf found done in a state. -/
def Leaf.isDone (l : Leaf σ) (s : σ) : Bool := l.done.any fun done => done s

/-! ### The runner -/

/-- The last component of a full name. -/
def lastName (full : String) : String := (Text.splitOn '/' full).getLastD ""

/-- The first component of a full name. -/
def firstName (full : String) : String := (Text.splitOn '/' full).headD ""

/-- The runner, with what a context adds to it: whether this is a dry run, the line said before a
phase runs, and the record of one that ran. -/
structure Runner (σ : Type) where
  phases : List (Phase σ)
  only : Option String := none
  skip : List String := []
  dryRun : Bool := false
  say : String → σ → σ := fun _ s => s
  record : String → Script σ := fun _ => Script.skip

namespace Runner

/-- `only` names this phase: in full, by a group above it, or by its last component. -/
def picks (only full : String) : Bool :=
  full = only || (only ++ "/").toList.isPrefixOf full.toList || lastName full = only

/-- `_selected`. -/
def selected (r : Runner σ) : Except Raised (List (String × Leaf σ)) :=
  let leaves := leavesOf "" r.phases
  match r.only with
  | none => .ok leaves
  | some only => do
      let picked := leaves.filter fun l => picks only l.1
      let names := ", ".intercalate (leaves.map (·.1))
      Checked.refuseIf (picked.isEmpty = true)
        (.phaseFailed s!"unknown phase '{only}'; phases: {names}")
      return picked

/-- A phase named in `skip`, or below one that is. -/
def skipped (r : Runner σ) (full : String) : Bool :=
  full ∈ r.skip || firstName full ∈ r.skip

/-- A phase that ran has to be done. -/
def confirm (l : Leaf σ) : Script σ :=
  Script.cond (fun s => l.done.all fun done => done s) Script.skip Script.fail

/-- One phase: skipped, found done, or run, confirmed and recorded. -/
def visit (r : Runner σ) (l : String × Leaf σ) : Script σ :=
  if r.skipped l.1 then Script.skip
  else
    Script.onlyIf (fun s => !l.2.isDone s) <|
      Script.seq (Script.command (r.say l.1)) <|
        Script.seq l.2.run <|
          if r.dryRun then Script.skip else Script.seq (confirm l.2) (r.record l.1)

/-- The selected phases, in order. -/
def visits (r : Runner σ) (ls : List (String × Leaf σ)) : Script σ := Script.each ls r.visit

/-- `Runner.run`. -/
def run (r : Runner σ) : Script σ :=
  match r.selected with
  | .error _ => Script.fail
  | .ok ls => r.visits ls

end Runner

/-! ### What the runner does -/

namespace Runner

variable {r : Runner σ} {l : String × Leaf σ} {s t : σ}

lemma reaches_confirm : (confirm l.2).Reaches s t ↔ t = s := by
  rw [confirm, Script.reaches_cond]
  simp

lemma ends_confirm :
    (confirm l.2).Ends s t ↔ t = s ∧ (l.2.done.all fun done => done s) = true := by
  rw [confirm, Script.ends_cond]
  by_cases h : (l.2.done.all fun done => done s) = true
  · simp [h]
  · simp [h]

/-- A phase that is skipped or found done changes nothing. -/
lemma reaches_visit_idle (h : r.skipped l.1 = true ∨ l.2.isDone s = true) :
    (r.visit l).Reaches s t ↔ t = s := by
  rw [visit]
  by_cases hs : r.skipped l.1 = true
  · simp [hs]
  · have hd : l.2.isDone s = true := h.resolve_left hs
    simp [hs, Script.reaches_onlyIf, hd]

lemma ends_visit_idle (h : r.skipped l.1 = true ∨ l.2.isDone s = true) :
    (r.visit l).Ends s t ↔ t = s := by
  rw [visit]
  by_cases hs : r.skipped l.1 = true
  · simp [hs]
  · have hd : l.2.isDone s = true := h.resolve_left hs
    simp [hs, Script.ends_onlyIf, hd]

/-- A phase that is neither skipped nor found done is run. -/
lemma visit_pending (hs : r.skipped l.1 = false) :
    r.visit l = Script.onlyIf (fun s => !l.2.isDone s) (Script.seq (Script.command (r.say l.1)) <|
      Script.seq l.2.run <|
        if r.dryRun then Script.skip else Script.seq (confirm l.2) (r.record l.1)) := by
  rw [visit, if_neg (by simp [hs])]

lemma reaches_visit_pending (hs : r.skipped l.1 = false) (hd : l.2.isDone s = false) :
    (r.visit l).Reaches s t ↔ t = s ∨ (Script.seq l.2.run <|
      if r.dryRun then Script.skip else Script.seq (confirm l.2) (r.record l.1)).Reaches
        (r.say l.1 s) t := by
  rw [visit_pending hs, Script.reaches_onlyIf, hd]
  simp only [Bool.not_false, if_true]
  rw [Script.reaches_seq]
  simp only [Script.reaches_command, Script.ends_command, exists_eq_left]
  constructor
  · rintro ((h | rfl) | h)
    · exact Or.inl h
    · exact Or.inr Script.reaches_start
    · exact Or.inr h
  · rintro (h | h)
    · exact Or.inl (Or.inl h)
    · exact Or.inr h

lemma ends_visit_pending (hs : r.skipped l.1 = false) (hd : l.2.isDone s = false) :
    (r.visit l).Ends s t ↔ (Script.seq l.2.run <|
      if r.dryRun then Script.skip else Script.seq (confirm l.2) (r.record l.1)).Ends
        (r.say l.1 s) t := by
  rw [visit_pending hs, Script.ends_onlyIf, hd]
  simp only [Bool.not_false, if_true]
  rw [Script.ends_seq]
  simp only [Script.ends_command, exists_eq_left]

/-- The selected phases are phases. -/
lemma mem_of_selected {ls : List (String × Leaf σ)} (h : r.selected = .ok ls) :
    ∀ l ∈ ls, l ∈ leavesOf "" r.phases := by
  rw [selected] at h
  cases ho : r.only with
  | none =>
      simp only [ho] at h
      rw [Except.ok.inj h]
      exact fun l hl => hl
  | some only =>
      simp only [ho, Checked.bind_eq_ok, Checked.pure_eq_ok] at h
      obtain ⟨-, -, rfl⟩ := h
      exact fun l hl => List.mem_of_mem_filter hl

/-- The first phase that is neither skipped nor found done. -/
def pending (r : Runner σ) (ls : List (String × Leaf σ)) (s : σ) : Option (String × Leaf σ) :=
  ls.find? fun l => !r.skipped l.1 && !l.2.isDone s

/-- **A run starts with the first pending phase**: those before it change nothing. -/
theorem reaches_visits_idle {pre ls : List (String × Leaf σ)}
    (h : ∀ l ∈ pre, r.skipped l.1 = true ∨ l.2.isDone s = true) :
    (r.visits (pre ++ ls)).Reaches s t ↔ (r.visits ls).Reaches s t := by
  induction pre with
  | nil => rfl
  | cons l pre ih =>
      have hidle := h l (by simp)
      have hrest := ih fun l' hl' => h l' (List.mem_cons_of_mem l hl')
      rw [visits] at hrest
      rw [List.cons_append, visits, Script.each_cons, Script.reaches_seq,
        reaches_visit_idle hidle]
      simp only [ends_visit_idle hidle, exists_eq_left, hrest]
      constructor
      · rintro (rfl | h)
        · exact Script.reaches_start
        · exact h
      · exact Or.inr

/-! ### Through every phase -/


/-- Every phase was found done, or it was run, found done then, and recorded. -/
inductive Through (r : Runner σ) : List (String × Leaf σ) → σ → σ → Prop
  | nil {s : σ} : Through r [] s s
  | found {l : String × Leaf σ} {ls : List (String × Leaf σ)} {s t : σ}
      (hdone : l.2.isDone s = true) (rest : Through r ls s t) : Through r (l :: ls) s t
  | ran {l : String × Leaf σ} {ls : List (String × Leaf σ)} {s u m t : σ}
      (hrun : l.2.run.Ends (r.say l.1 s) u) (hdone : ∀ done ∈ l.2.done, done u = true)
      (hrecord : (r.record l.1).Ends u m) (rest : Through r ls m t) : Through r (l :: ls) s t

/-- The visit of a phase that is not skipped, in a run that is no dry run. -/
lemma ends_visit (hskip : r.skip = []) (hdry : r.dryRun = false) {l : String × Leaf σ}
    (h : (r.visit l).Ends s t) : l.2.isDone s = true ∧ t = s ∨ l.2.isDone s = false ∧
      ∃ u, l.2.run.Ends (r.say l.1 s) u ∧ (∀ done ∈ l.2.done, done u = true) ∧
        (r.record l.1).Ends u t := by
  have hnot : r.skipped l.1 = false := by simp [skipped, hskip]
  by_cases hdone : l.2.isDone s = true
  · exact Or.inl ⟨hdone, (ends_visit_idle (Or.inr hdone)).mp h⟩
  · rw [Bool.not_eq_true] at hdone
    rw [ends_visit_pending hnot hdone, hdry, Script.ends_seq] at h
    obtain ⟨u, hrun, hrest⟩ := h
    simp only [Bool.false_eq_true, if_false, Script.ends_seq, ends_confirm] at hrest
    obtain ⟨_, ⟨rfl, hall⟩, hrecord⟩ := hrest
    refine Or.inr ⟨hdone, _, hrun, fun done hd => ?_, hrecord⟩
    simpa [Option.mem_def.mp hd] using hall

/-- Where nothing is recorded, a phase is done when its visit ends. -/
lemma done_of_ends (hskip : r.skip = []) (hdry : r.dryRun = false)
    (hrecord : ∀ full, r.record full = Script.skip) (h : (r.visit l).Ends s t) :
    ∀ done ∈ l.2.done, done t = true := by
  intro done hmem
  rcases ends_visit hskip hdry h with ⟨hdone, rfl⟩ | ⟨-, u, -, hdone, hu⟩
  · rwa [Leaf.isDone, Option.mem_def.mp hmem, Option.any_some] at hdone
  · rw [hrecord, Script.ends_skip] at hu
    exact hu ▸ hdone done hmem

/-- **A run that ends went through every phase.** -/
theorem through_of_ends {ls : List (String × Leaf σ)} (hskip : r.skip = []) (hdry : r.dryRun = false)
    (h : (r.visits ls).Ends s t) : r.Through ls s t := by
  induction ls generalizing s with
  | nil =>
      rw [visits, Script.each_nil, Script.ends_skip] at h
      exact h ▸ Through.nil
  | cons l ls ih =>
      rw [visits, Script.each_cons, Script.ends_seq] at h
      obtain ⟨m, hm, hrest⟩ := h
      rcases ends_visit hskip hdry hm with ⟨hdone, rfl⟩ | ⟨-, u, hrun, hdone, hrecord⟩
      · exact Through.found hdone (ih hrest)
      · exact Through.ran hrun hdone hrecord (ih hrest)

section Keeps

variable {inv : σ → Prop}

/-- What a phase, its announcement and its record keep, its visit keeps. -/
lemma spec_visit (hsay : ∀ s, inv s → inv (r.say l.1 s)) (hrun : Script.Spec inv l.2.run inv inv)
    (hrecord : Script.Spec inv (r.record l.1) inv inv) : Script.Spec inv (r.visit l) inv inv := by
  have hconfirm : Script.Spec inv (confirm l.2) inv inv :=
    ⟨fun hs ht => reaches_confirm.mp ht ▸ hs, fun hs ht => (ends_confirm.mp ht).1 ▸ hs⟩
  have htail : Script.Spec inv
      (if r.dryRun then Script.skip else Script.seq (confirm l.2) (r.record l.1)) inv inv := by
    by_cases hdry : r.dryRun = true
    · rw [if_pos hdry]
      exact Script.Spec.skip fun _ hs => ⟨hs, hs⟩
    · rw [if_neg hdry]
      exact hconfirm.seq hrecord
  by_cases hs : r.skipped l.1 = true
  · rw [visit, if_pos hs]
    exact Script.Spec.skip fun _ hs => ⟨hs, hs⟩
  · rw [visit_pending (by simpa using hs)]
    refine Script.Spec.onlyIf ?_ fun _ hs _ => ⟨hs, hs⟩
    refine Script.Spec.seq (Script.Spec.command fun s hs => ?_) (hrun.seq htail)
    exact ⟨hs.1, hsay s hs.1, hsay s hs.1⟩

/-- A phase that is not found done does what its commands do. -/
lemma spec_visit_pending {pre mid stop post : σ → Prop} (hskip : r.skipped l.1 = false)
    (hpending : ∀ s, pre s → l.2.isDone s = false)
    (hsay : ∀ s, pre s → stop s ∧ stop (r.say l.1 s) ∧ mid (r.say l.1 s))
    (hrun : Script.Spec mid l.2.run stop post) (hpost : ∀ s, post s → stop s)
    (hrecord : Script.Spec post (r.record l.1) stop post) :
    Script.Spec pre (r.visit l) stop post := by
  have hconfirm : Script.Spec post (confirm l.2) stop post :=
    ⟨fun hs ht => reaches_confirm.mp ht ▸ hpost _ hs, fun hs ht => (ends_confirm.mp ht).1 ▸ hs⟩
  have htail : Script.Spec post
      (if r.dryRun then Script.skip else Script.seq (confirm l.2) (r.record l.1)) stop post := by
    by_cases hdry : r.dryRun = true
    · rw [if_pos hdry]
      exact Script.Spec.skip fun s hs => ⟨hpost s hs, hs⟩
    · rw [if_neg hdry]
      exact hconfirm.seq hrecord
  rw [visit_pending hskip]
  refine Script.Spec.onlyIf ?_ fun s hs hd => absurd hd (by simp [hpending s hs])
  exact Script.Spec.seq (Script.Spec.command fun s hs => hsay s hs.1) (hrun.seq htail)

/-- A visit, with what holds before the commands, after them and after the record. -/
lemma spec_visit_cases {pre said mid stop post : σ → Prop}
    (hidle : ∀ s, pre s → (r.skipped l.1 = true ∨ l.2.isDone s = true) → stop s ∧ post s)
    (hsay : ∀ s, pre s → stop s ∧ stop (r.say l.1 s) ∧ said (r.say l.1 s))
    (hrun : Script.Spec said l.2.run stop mid) (hmid : ∀ s, mid s → stop s ∧ (r.dryRun = true → post s))
    (hrecord : Script.Spec mid (r.record l.1) stop post) :
    Script.Spec pre (r.visit l) stop post := by
  have hconfirm : Script.Spec mid (confirm l.2) stop mid :=
    ⟨fun hs ht => reaches_confirm.mp ht ▸ (hmid _ hs).1, fun hs ht => (ends_confirm.mp ht).1 ▸ hs⟩
  have htail : Script.Spec mid
      (if r.dryRun then Script.skip else Script.seq (confirm l.2) (r.record l.1)) stop post := by
    by_cases hdry : r.dryRun = true
    · rw [if_pos hdry]
      exact Script.Spec.skip fun s hs => ⟨(hmid s hs).1, (hmid s hs).2 hdry⟩
    · rw [if_neg hdry]
      exact hconfirm.seq hrecord
  by_cases hskip : r.skipped l.1 = true
  · rw [visit, if_pos hskip]
    exact Script.Spec.skip fun s hs => hidle s hs (Or.inl hskip)
  · rw [visit_pending (by simpa using hskip)]
    refine Script.Spec.onlyIf ?_ fun s hs hd => hidle s hs (Or.inr (by simpa using hd))
    exact Script.Spec.seq (Script.Spec.command fun s hs => hsay s hs.1) (hrun.seq htail)

/-- What every phase, announcement and record keeps, the run keeps. -/
theorem spec_visits {ls : List (String × Leaf σ)} (hsay : ∀ full s, inv s → inv (r.say full s))
    (hrun : ∀ l ∈ ls, Script.Spec inv l.2.run inv inv)
    (hrecord : ∀ full, Script.Spec inv (r.record full) inv inv) :
    Script.Spec inv (r.visits ls) inv inv :=
  Script.Spec.each_keeps fun l hl => spec_visit (hsay l.1) (hrun l hl) (hrecord l.1)

end Keeps

end Runner

end Tk8s
