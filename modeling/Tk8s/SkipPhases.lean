import Tk8s.Phases

/-!
`phases.py` and `verbs.py`: `--phase P` beside `--skip-phases P`.

* `Runner.underPhase`, `Runner.underSkip`: the two runs of `create cluster`.
* `Runner.Complementary`: what one selects the other leaves out, and no more, and what one refuses so
  does the other.
* `complementary_iff`: **the two are complementary exactly when** `P` selects a phase, and every phase it
  selects has `P` as its full name or as its first component.
-/

namespace Tk8s

variable {σ : Type}

/-- `{s for s in text.split(",") if s}`. -/
def skipSet (text : String) : List String := (Text.splitOn ',' text).filter (· ≠ "")

namespace Runner

/-- A run with neither option. -/
def plain (r : Runner σ) : Runner σ := { r with only := none, skip := [] }

/-- `--phase P`. -/
def underPhase (r : Runner σ) (p : String) : Runner σ := { r with only := some p, skip := [] }

/-- `--skip-phases P`. -/
def underSkip (r : Runner σ) (p : String) : Runner σ := { r with only := none, skip := skipSet p }

/-- The run skips the phases of `S`, and runs every other one in order. -/
def SkipsExactly (r : Runner σ) (p : String) (S : List (String × Leaf σ)) : Prop :=
  (∀ l ∈ leavesOf "" r.phases, (r.underSkip p).skipped l.1 = true ↔ l.1 ∈ S.map (·.1)) ∧
    (r.underSkip p).run = r.plain.visits ((leavesOf "" r.phases).filter fun l => l.1 ∉ S.map (·.1))

/-- What `--phase P` selects, `--skip-phases P` leaves out, and what the one refuses, the other does. -/
def Complementary (r : Runner σ) (p : String) : Prop :=
  match (r.underPhase p).selected with
  | .ok S => r.SkipsExactly p S
  | .error _ => ∃ e, (r.underSkip p).selected = .error e

/-- The phase is called `P`, or its first component is, where `P` may be a list of such names. -/
def HasName (p full : String) : Prop := full ∈ skipSet p ∨ firstName full ∈ skipSet p

variable {r : Runner σ} {p full : String}

/-- A text without a comma is one name. -/
lemma skipSet_of_notMem (h : ',' ∉ p.toList) : skipSet p = if p = "" then [] else [p] := by
  have hone : Text.splitOn ',' (Text.join ',' [p]) = [p] :=
    Text.splitOn_join (by simp) (by simpa using h)
  rw [Text.join_singleton] at hone
  rw [skipSet, hone]
  by_cases hp : p = ""
  · simp [hp]
  · simp [hp]

/-- Below a first component. -/
lemma picks_of_firstName (h : firstName full = p) : picks p full = true := by
  have hjoin := Text.join_splitOn '/' full
  cases hsplit : Text.splitOn '/' full with
  | nil =>
      rw [Text.splitOn, List.map_eq_nil_iff] at hsplit
      exact absurd hsplit (List.splitOn_ne_nil _ _)
  | cons q qs =>
      have hq : q = p := by rw [← h, firstName, hsplit]; rfl
      subst hq
      rw [hsplit] at hjoin
      cases qs with
      | nil =>
          rw [Text.join_singleton] at hjoin
          simp [picks, hjoin]
      | cons q' qs =>
          rw [Text.join_cons_cons] at hjoin
          have hprefix : (q ++ "/").toList.isPrefixOf full.toList = true := by
            rw [← hjoin, List.isPrefixOf_iff_prefix]
            simp only [String.toList_append, String.toList_singleton]
            exact List.prefix_append _ _
          rw [picks, hprefix]
          simp

/-- What is skipped under one name is selected by it. -/
lemma picks_of_hasName (hcomma : ',' ∉ p.toList) (h : HasName p full) : picks p full = true := by
  rw [HasName, skipSet_of_notMem hcomma] at h
  by_cases hp : p = ""
  · simp [hp] at h
  · simp only [hp, if_false, List.mem_singleton] at h
    rcases h with h | h
    · simp [picks, h]
    · exact picks_of_firstName h

lemma skipped_underSkip : (r.underSkip p).skipped full = true ↔ HasName p full := by
  rw [skipped, Bool.or_eq_true, decide_eq_true_iff, decide_eq_true_iff]
  rfl

/-- A run that skips some phases goes through the others. -/
lemma run_underSkip : (r.underSkip p).run =
    r.plain.visits ((leavesOf "" r.phases).filter fun l => !(r.underSkip p).skipped l.1) := by
  have hrun : (r.underSkip p).run = (r.underSkip p).visits (leavesOf "" r.phases) := rfl
  rw [hrun]
  induction leavesOf "" r.phases with
  | nil => rfl
  | cons l ls ih =>
      rw [visits, visits] at ih ⊢
      rw [Script.each_cons, ih, List.filter_cons]
      by_cases hskip : (r.underSkip p).skipped l.1 = true
      · simp [visit, hskip, Script.skip_seq]
      · have hplain : r.plain.skipped l.1 = false := by simp [skipped, plain]
        rw [visit_pending (by simpa using hskip)]
        simp only [hskip, Bool.not_false, if_true, Script.each_cons, visit_pending hplain]
        rfl

/-- What `--phase P` selects, or the refusal when that is nothing. -/
lemma selected_underPhase {picked : List (String × Leaf σ)}
    (hpicked : picked = (leavesOf "" r.phases).filter fun l => picks p l.1) :
    (picked = [] → ∃ e, (r.underPhase p).selected = .error e) ∧
      (picked ≠ [] → (r.underPhase p).selected = .ok picked) := by
  have hselected : (r.underPhase p).selected = do
      let names := ", ".intercalate ((leavesOf "" r.phases).map (·.1))
      Checked.refuseIf (picked.isEmpty = true)
        (.phaseFailed s!"unknown phase '{p}'; phases: {names}")
      return picked := by
    rw [hpicked]
    rfl
  rw [hselected]
  constructor
  · rintro rfl
    exact ⟨_, rfl⟩
  · intro hne
    simp [Checked.refuseIf, hne]

/-- **`--phase P` and `--skip-phases P` are complementary exactly when** `P` selects a phase and each
phase it selects has that name; and of several names in one text, when each selects what it skips. -/
theorem complementary_iff (r : Runner σ) (p : String) : r.Complementary p ↔
    (∃ l ∈ leavesOf "" r.phases, picks p l.1 = true) ∧
      (∀ l ∈ leavesOf "" r.phases, picks p l.1 = true → HasName p l.1) ∧
      (',' ∈ p.toList → ∀ l ∈ leavesOf "" r.phases, HasName p l.1 → picks p l.1 = true) := by
  set picked := (leavesOf "" r.phases).filter fun l => picks p l.1 with hpicked
  obtain ⟨hnone, hsome⟩ := selected_underPhase hpicked
  by_cases hempty : picked = []
  · obtain ⟨e, he⟩ := hnone hempty
    rw [Complementary, he]
    constructor
    · rintro ⟨e', he'⟩
      exact absurd he' (by simp [selected, underSkip])
    · rintro ⟨⟨l, hl, hpick⟩, -⟩
      exact absurd hempty (List.ne_nil_of_mem (List.mem_filter.mpr ⟨hl, hpick⟩))
  · have hmem : ∀ l ∈ leavesOf "" r.phases, l.1 ∈ picked.map (·.1) ↔ picks p l.1 = true := by
      intro l hl
      constructor
      · intro hin
        obtain ⟨l', hl', heq⟩ := List.mem_map.mp hin
        exact heq ▸ (List.mem_filter.mp hl').2
      · exact fun hpick => List.mem_map_of_mem (List.mem_filter.mpr ⟨hl, hpick⟩)
    rw [Complementary, hsome hempty]
    constructor
    · rintro ⟨hskips, -⟩
      obtain ⟨l, hl⟩ := List.exists_mem_of_ne_nil picked hempty
      refine ⟨⟨l, List.mem_of_mem_filter hl, (List.mem_filter.mp hl).2⟩, fun l hl hpick => ?_,
        fun _ l hl hname => ?_⟩
      · exact skipped_underSkip.mp ((hskips l hl).mpr ((hmem l hl).mpr hpick))
      · exact (hmem l hl).mp ((hskips l hl).mp (skipped_underSkip.mpr hname))
    · rintro ⟨-, hnames, hlist⟩
      have hskips : ∀ l ∈ leavesOf "" r.phases,
          (r.underSkip p).skipped l.1 = true ↔ l.1 ∈ picked.map (·.1) := by
        intro l hl
        rw [skipped_underSkip, hmem l hl]
        refine ⟨fun hname => ?_, hnames l hl⟩
        by_cases hcomma : ',' ∈ p.toList
        · exact hlist hcomma l hl hname
        · exact picks_of_hasName hcomma hname
      refine ⟨hskips, ?_⟩
      rw [run_underSkip]
      congr 1
      refine List.filter_congr fun l hl => ?_
      simp only [← hskips l hl, Bool.not_eq_true, Bool.decide_eq_false]

/-- `create cluster`, with the phases it runs and none of their commands. -/
def createTree : Runner Unit where
  phases :=
    [.leaf "preflight" ⟨none, Script.skip⟩,
     .group "kubeadm" [.leaf "render" ⟨none, Script.skip⟩, .leaf "init" ⟨none, Script.skip⟩]]

/-- `--phase init` selects a phase that `--skip-phases init` does not skip. -/
theorem not_complementary_init : ¬ createTree.Complementary "init" := by
  rintro ⟨hskips, -⟩
  have hmem : ("kubeadm/init", ⟨none, Script.skip⟩) ∈ leavesOf "" createTree.phases := by
    simp [createTree, leavesOf, Phase.leaves]
  have hskipped := (hskips _ hmem).mpr (by decide)
  exact absurd hskipped (by decide)

end Runner

end Tk8s
