import Tk8s.Create.Phases

/-!
What decides the stored spec of an interrupted cluster: `resolve` computes today's spec before any
phase runs, and the runner saves it with the record of whatever phase ran first.

* `Replanned`: the stored spec differs from the one before, other than in what cni records.
* `PlanFirst`: the first pending phase of the create is plan, or the create has nothing to change.
* `onlyPlan_iff`: **the stored spec changes only in a create that runs plan exactly when plan is the
  first phase to write**.
-/

namespace Tk8s

variable {W : Type} {e : Env} {i : Invocation W} {s : Site W} {c₀ : Cluster} {j₀ j : Job W}

/-! ### The claim and its condition -/

/-- The stored spec is another one, other than in what cni records. -/
def Replanned (c₀ : Cluster) (j : Job W) : Prop :=
  ∃ c ∈ j.site.file, c.spec.unrecorded ≠ c₀.spec.unrecorded

/-- Wherever the create is stopped, the spec is another one only if plan was run. -/
def OnlyPlan (e : Env) (i : Invocation W) (c₀ : Cluster) (j₀ : Job W) : Prop :=
  ∀ j, (i.runner e).run.Reaches j₀ j → Replanned c₀ j → "plan" ∈ j.ran

/-- A phase that is run in this state writes `cluster.yaml` or succeeds. -/
def Leaf.Commits (l : Leaf (Job W)) (j : Job W) : Prop :=
  (∃ m, l.run.Reaches j m ∧ m.site.file ≠ j.site.file) ∨
    ∃ m, l.run.Ends j m ∧ (l.done.all fun done => done m) = true

/-- The create is a dry run, or plans what the file says, or the first phase it has to run is plan
(or fails without writing the file). -/
def PlanFirst (e : Env) (i : Invocation W) (c₀ : Cluster) (j₀ : Job W) : Prop :=
  i.dryRun = true ∨ j₀.cluster.spec.unrecorded = c₀.spec.unrecorded ∨
    ∀ ls, (i.runner e).selected = .ok ls → ∀ l ∈ (i.runner e).pending ls j₀,
      l.1 = "plan" ∨ ¬ l.2.Commits ((i.runner e).say l.1 j₀)

/-! ### What the phases keep -/

/-- The file is the one before, or holds the plan of this create. -/
structure Kept (c₀ c₁ : Cluster) (ran : List String) (j : Job W) : Prop where
  plan : SamePlan c₁ j.cluster
  file : j.site.file = some c₀ ∨ ∃ c, j.site.file = some c ∧ SamePlan c₁ c
  ran : j.ran = ran

lemma keepsOther_kept {c₁ : Cluster} {ran : List String} :
    KeepsOther (W := W) (Kept c₀ c₁ ran) := fun _ _ h => ⟨h.plan, h.file, h.ran⟩

lemma keepsSave_kept {c₁ : Cluster} {ran : List String} : KeepsSave (W := W) (Kept c₀ c₁ ran) :=
  fun _ c hc h => ⟨h.plan.trans hc.toSamePlan, Or.inr ⟨c, rfl, h.plan.trans hc.toSamePlan⟩, h.ran⟩

lemma spec_leaf_kept {c₁ : Cluster} {ran : List String} :
    ∀ l ∈ leavesOf "" (createPhases e i.rest),
      Script.Spec (Kept c₀ c₁ ran) l.2.run (Kept c₀ c₁ ran) (Kept c₀ c₁ ran) :=
  spec_createPhases keepsOther_kept keepsSave_kept.same keepsSave_kept.recording
    (fun _ _ _ _ _ h => ⟨fun _ _ => ⟨h.plan, h.file, h.ran⟩, h.plan, h.file, h.ran⟩)
    fun _ _ h => ⟨⟨h.plan, h.file, h.ran⟩, h.plan, h.file, h.ran⟩

/-- Once plan ran, it has run. -/
lemma spec_leaf_ran :
    ∀ l ∈ leavesOf "" (createPhases e i.rest), Script.Spec (fun j : Job W => "plan" ∈ j.ran) l.2.run
      (fun j => "plan" ∈ j.ran) fun j => "plan" ∈ j.ran :=
  spec_createPhases (fun _ _ h => h) (fun _ h => h) (fun _ _ _ _ h => h)
    (fun _ _ _ _ _ h => ⟨fun _ _ => h, h⟩) fun _ _ h => ⟨h, h⟩

lemma Kept.replanned_iff {c₁ : Cluster} {ran : List String} (h : Kept c₀ c₁ ran j)
    (hne : c₁.spec.unrecorded ≠ c₀.spec.unrecorded) :
    Replanned c₀ j ↔ j.site.file ≠ some c₀ := by
  constructor
  · rintro ⟨c, hc, hspec⟩ hfile
    rw [Option.mem_def, hfile, Option.some_inj] at hc
    exact hspec (by rw [hc])
  · intro hfile
    obtain ⟨c, hc, hplan⟩ := h.file.resolve_left hfile
    exact ⟨c, hc, by rw [hplan.spec]; exact hne⟩

/-! ### The start of a resume -/

/-- A resume starts from the file, with its status. -/
lemma start_eq_ok (hfile : s.file = some c₀) (h : i.start s = .ok j₀) :
    j₀.site = s ∧ j₀.ran = [] ∧ j₀.cluster.status.isSome = true := by
  simp only [Invocation.start, Checked.bind_eq_ok, Checked.refuseIf_eq_ok, Checked.pure_eq_ok] at h
  obtain ⟨-, hstatus, -, -, c, hc, rfl⟩ := h
  obtain ⟨index, t, -, rfl⟩ := resolve_eq_ok.mp hc
  refine ⟨rfl, rfl, ?_⟩
  rw [hfile] at hstatus ⊢
  simpa [statusOf, Option.isSome_iff_ne_none] using hstatus

/-! ### The exact condition -/

/-- A dry run leaves the hosts alone. -/
lemma file_of_dryRun (hdry : i.dryRun = true) (hj : (i.runner e).run.Reaches j₀ j) :
    j.site.file = j₀.site.file := by
  have hskip : Script.Spec (fun j : Job W => j.site.file = j₀.site.file) Script.skip
      (fun j => j.site.file = j₀.site.file) fun j => j.site.file = j₀.site.file :=
    Script.Spec.skip fun _ h => ⟨h, h⟩
  have hleaf : ∀ l ∈ leavesOf "" (dryRunPhases (W := W)), l.2 = printed := by
    simp [dryRunPhases, leavesOf, Phase.leaves]
  have hvisit : ∀ l ∈ leavesOf "" (i.runner e).phases,
      Script.Spec (fun j => j.site.file = j₀.site.file) ((i.runner e).visit l)
        (fun j => j.site.file = j₀.site.file) fun j => j.site.file = j₀.site.file := by
    intro l hl
    have hl' : l.2 = printed := by
      refine hleaf l ?_
      simpa [Invocation.runner, hdry] using hl
    by_cases hs : (i.runner e).skipped l.1 = true
    · rw [Runner.visit, if_pos hs]
      exact hskip
    · have hd : (i.runner e).dryRun = true := hdry
      rw [Runner.visit_pending (by simpa using hs), hl', hd]
      refine Script.Spec.onlyIf ?_ fun _ h _ => ⟨h, h⟩
      exact (Script.Spec.command fun j h => ⟨h.1, h.1, h.1⟩).seq (hskip.seq hskip)
  rw [Runner.run] at hj
  cases hsel : (i.runner e).selected with
  | error err =>
      rw [hsel] at hj
      exact Script.reaches_fail.mp hj ▸ rfl
  | ok ls =>
      rw [hsel] at hj
      exact (Script.Spec.each_keeps fun l hl =>
        hvisit l (Runner.mem_of_selected hsel l hl)).stops rfl hj

/-- The phases of a create that is no dry run. -/
lemma mem_createPhases {ls : List (String × Leaf (Job W))} (hdry : i.dryRun = false)
    (hsel : (i.runner e).selected = .ok ls) :
    ∀ l ∈ ls, l ∈ leavesOf "" (createPhases e i.rest) := by
  intro l hl
  have hmem := Runner.mem_of_selected hsel l hl
  simpa [Invocation.runner, hdry] using hmem

/-- The file holds the plan of before, or this one's. -/
lemma kept_of_reaches (hfile : j₀.site.file = some c₀) (hj : (i.runner e).run.Reaches j₀ j) :
    Kept c₀ j₀.cluster j.ran j := by
  have hsave : KeepsSave (W := W) fun j => Kept c₀ j₀.cluster j.ran j := fun _ c hc h =>
    ⟨h.plan.trans hc.toSamePlan, Or.inr ⟨c, rfl, h.plan.trans hc.toSamePlan⟩, rfl⟩
  have hrun : Script.Spec (fun j => Kept c₀ j₀.cluster j.ran j) (i.runner e).run
      (fun j => Kept c₀ j₀.cluster j.ran j) fun j => Kept c₀ j₀.cluster j.ran j :=
    i.spec_run (fun _ _ h => ⟨h.plan, h.file, rfl⟩) (fun _ _ h => ⟨h.plan, h.file, rfl⟩)
      hsave.same hsave.recording
      (fun _ _ _ _ _ h => ⟨fun _ _ => ⟨h.plan, h.file, rfl⟩, h.plan, h.file, rfl⟩)
      fun _ _ h => ⟨⟨h.plan, h.file, rfl⟩, h.plan, h.file, rfl⟩
  exact hrun.stops ⟨SamePlan.refl _, Or.inl hfile, rfl⟩ hj

/-- When plan is the first pending phase, it has run before anything is written. -/
lemma ran_of_plan_first {l : String × Leaf (Job W)} {post : List (String × Leaf (Job W))}
    (hdry : i.dryRun = false)
    (hmem : ∀ l' ∈ l :: post, l' ∈ leavesOf "" (createPhases e i.rest)) (hplan : l.1 = "plan")
    (hs : (i.runner e).skipped l.1 = false) (hd : l.2.isDone j₀ = false)
    (hj : ((i.runner e).visits (l :: post)).Reaches j₀ j) : j = j₀ ∨ "plan" ∈ j.ran := by
  have hrun : ∀ l' ∈ l :: post, Script.Spec (fun j : Job W => "plan" ∈ j.ran) l'.2.run
      (fun j => "plan" ∈ j.ran) fun j => "plan" ∈ j.ran :=
    fun l' hl' => spec_leaf_ran l' (hmem l' hl')
  have hrecord : ∀ full, Script.Spec (fun j : Job W => "plan" ∈ j.ran)
      ((i.runner e).record full) (fun j => "plan" ∈ j.ran) fun j => "plan" ∈ j.ran :=
    fun full => spec_recordPhase fun _ _ _ _ h => h
  have hsaid : "plan" ∈ ((i.runner e).say l.1 j₀).ran := by
    simp [Invocation.runner, hplan]
  have hconfirm : Script.Spec (fun j : Job W => "plan" ∈ j.ran) (Runner.confirm l.2)
      (fun j => "plan" ∈ j.ran) fun j => "plan" ∈ j.ran :=
    ⟨fun h ht => Runner.reaches_confirm.mp ht ▸ h, fun h ht => (Runner.ends_confirm.mp ht).1 ▸ h⟩
  have htail := (hrun l (by simp)).seq (hconfirm.seq (hrecord l.1))
  have hd' : (i.runner e).dryRun = false := hdry
  rw [Runner.visits, Script.each_cons, Script.reaches_seq, Runner.reaches_visit_pending hs hd,
    hd', if_neg (by simp)] at hj
  rcases hj with (hj | hj) | ⟨m, hm, hj⟩
  · exact Or.inl hj
  · exact Or.inr (htail.stops hsaid hj)
  · rw [Runner.ends_visit_pending hs hd, hd', if_neg (by simp)] at hm
    have hpost : Script.Spec (fun j : Job W => "plan" ∈ j.ran) ((i.runner e).visits post)
        (fun j => "plan" ∈ j.ran) fun j => "plan" ∈ j.ran :=
      Runner.spec_visits (fun full s h => List.mem_append_left _ h)
        (fun l' hl' => hrun l' (List.mem_cons_of_mem l hl')) hrecord
    exact Or.inr (hpost.stops (htail.ends hsaid hm) hj)

/-- When the first pending phase neither writes nor succeeds, the create leaves the file alone. -/
lemma file_of_not_commits {l : String × Leaf (Job W)} {post : List (String × Leaf (Job W))}
    (hdry : i.dryRun = false) (hs : (i.runner e).skipped l.1 = false)
    (hd : l.2.isDone j₀ = false) (hnot : ¬ l.2.Commits ((i.runner e).say l.1 j₀))
    (hj : ((i.runner e).visits (l :: post)).Reaches j₀ j) : j.site.file = j₀.site.file := by
  have hfile : ∀ m, l.2.run.Reaches ((i.runner e).say l.1 j₀) m → m.site.file = j₀.site.file :=
    fun m hm => not_not.mp fun hne => hnot (Or.inl ⟨m, hm, hne⟩)
  have hend : ∀ m, l.2.run.Ends ((i.runner e).say l.1 j₀) m →
      ¬ (l.2.done.all fun done => done m) = true :=
    fun m hm hdone => hnot (Or.inr ⟨m, hm, hdone⟩)
  have hd' : (i.runner e).dryRun = false := hdry
  rw [Runner.visits, Script.each_cons, Script.reaches_seq, Runner.reaches_visit_pending hs hd,
    hd', if_neg (by simp)] at hj
  rcases hj with (rfl | hj) | ⟨m, hm, -⟩
  · rfl
  · rw [Script.reaches_seq] at hj
    rcases hj with hj | ⟨m, hm, hj⟩
    · exact hfile j hj
    · rw [Script.reaches_seq] at hj
      rcases hj with hj | ⟨m', hm', -⟩
      · rw [Runner.reaches_confirm] at hj
        exact hj ▸ hfile m hm.reaches
      · exact absurd (Runner.ends_confirm.mp hm').2 (hend m hm)
  · rw [Runner.ends_visit_pending hs hd, hd', if_neg (by simp), Script.ends_seq] at hm
    obtain ⟨m₁, hm₁, hm⟩ := hm
    obtain ⟨m₂, hm₂, -⟩ := Script.ends_seq.mp hm
    exact absurd (Runner.ends_confirm.mp hm₂).2 (hend m₁ hm₁)

/-- The selected phases, cut at the first pending one. -/
lemma pending_eq_some {ls : List (String × Leaf (Job W))} {l : String × Leaf (Job W)}
    (h : (i.runner e).pending ls j₀ = some l) : ∃ pre post, ls = pre ++ l :: post ∧
      (i.runner e).skipped l.1 = false ∧ l.2.isDone j₀ = false ∧
      ∀ l' ∈ pre, (i.runner e).skipped l'.1 = true ∨ l'.2.isDone j₀ = true := by
  obtain ⟨hl, pre, post, rfl, hpre⟩ := List.find?_eq_some_iff_append.mp h
  simp only [Bool.and_eq_true, Bool.not_eq_true'] at hl
  refine ⟨pre, post, rfl, hl.1, hl.2, fun l' hl' => ?_⟩
  have hno := hpre l' hl'
  by_cases hs : (i.runner e).skipped l'.1 = true
  · exact Or.inl hs
  · simpa [hs] using hno

lemma onlyPlan_of_planFirst (hfile : j₀.site.file = some c₀) (h : PlanFirst e i c₀ j₀) :
    OnlyPlan e i c₀ j₀ := by
  intro j hj hre
  by_cases hdry : i.dryRun = true
  · obtain ⟨c, hc, hne⟩ := hre
    rw [Option.mem_def, file_of_dryRun hdry hj, hfile, Option.some_inj] at hc
    exact absurd (by rw [hc]) hne
  have hdry' : i.dryRun = false := by simpa using hdry
  have hkept := kept_of_reaches hfile hj
  by_cases hsame : j₀.cluster.spec.unrecorded = c₀.spec.unrecorded
  · obtain ⟨c, hc, hne⟩ := hre
    refine absurd ?_ hne
    cases hkept.file with
    | inl hc' =>
        rw [Option.mem_def, hc', Option.some_inj] at hc
        rw [hc]
    | inr hc' =>
        obtain ⟨c', hc', hplan⟩ := hc'
        rw [Option.mem_def, hc', Option.some_inj] at hc
        rw [← hc, hplan.spec, hsame]
  have hwrote := (hkept.replanned_iff hsame).mp hre
  have hfirst := (h.resolve_left hdry).resolve_left hsame
  rw [Runner.run] at hj
  cases hsel : (i.runner e).selected with
  | error err =>
      rw [hsel] at hj
      exact absurd (Script.reaches_fail.mp hj ▸ hfile) hwrote
  | ok ls =>
      rw [hsel] at hj
      cases hp : (i.runner e).pending ls j₀ with
      | none =>
          have hidle : ∀ l ∈ ls, (i.runner e).skipped l.1 = true ∨ l.2.isDone j₀ = true := by
            intro l hl
            have hno := List.find?_eq_none.mp hp l hl
            by_cases hs : (i.runner e).skipped l.1 = true
            · exact Or.inl hs
            · simpa [hs] using hno
          rw [← List.append_nil ls] at hj
          have hj' : Script.skip.Reaches j₀ j := (Runner.reaches_visits_idle hidle).mp hj
          exact absurd (Script.reaches_skip.mp hj' ▸ hfile) hwrote
      | some l =>
          obtain ⟨pre, post, rfl, hs, hd, hpre⟩ := pending_eq_some hp
          have hj' := (Runner.reaches_visits_idle hpre).mp hj
          have hmem := fun l' hl' => mem_createPhases hdry' hsel l' (List.mem_append_right pre hl')
          cases hfirst _ hsel l hp with
          | inl hplan =>
              refine (ran_of_plan_first hdry' hmem hplan hs hd hj').resolve_left ?_
              rintro rfl
              exact hwrote hfile
          | inr hnot => exact absurd ((file_of_not_commits hdry' hs hd hnot hj').trans hfile) hwrote

/-- A first pending phase other than plan that writes or succeeds changes the spec. -/
lemma planFirst_of_onlyPlan (hfile : j₀.site.file = some c₀) (hran : j₀.ran = [])
    (hstatus : j₀.cluster.status.isSome = true) (h : OnlyPlan e i c₀ j₀) :
    PlanFirst e i c₀ j₀ := by
  by_cases hdry : i.dryRun = true
  · exact Or.inl hdry
  by_cases hsame : j₀.cluster.spec.unrecorded = c₀.spec.unrecorded
  · exact Or.inr (Or.inl hsame)
  refine Or.inr (Or.inr fun ls hsel l hp => ?_)
  by_contra hcon
  rw [not_or, not_not] at hcon
  obtain ⟨hne, hcommits⟩ := hcon
  have hdry' : i.dryRun = false := by simpa using hdry
  obtain ⟨pre, post, rfl, hs, hd, hpre⟩ := pending_eq_some hp
  have hleaf := mem_createPhases hdry' hsel l (by simp)
  have hspec : Script.Spec (Kept c₀ j₀.cluster [l.1]) l.2.run (Kept c₀ j₀.cluster [l.1])
      (Kept c₀ j₀.cluster [l.1]) := spec_leaf_kept l hleaf
  have hsaid : Kept c₀ j₀.cluster [l.1] ((i.runner e).say l.1 j₀) := by
    refine ⟨SamePlan.refl _, Or.inl hfile, ?_⟩
    simp [Invocation.runner, hran]
  -- whatever this phase leaves in the file is there before plan has run
  have hbad : ∀ m, Kept c₀ j₀.cluster [l.1] m → m.site.file ≠ some c₀ →
      (Script.seq l.2.run (Script.seq (Runner.confirm l.2) ((i.runner e).record l.1))).Reaches
        ((i.runner e).say l.1 j₀) m → False := by
    intro m hm hwrote hreach
    have hd' : (i.runner e).dryRun = false := hdry'
    have hvisit : ((i.runner e).visit l).Reaches j₀ m := by
      rw [Runner.reaches_visit_pending hs hd, hd', if_neg (by simp)]
      exact Or.inr hreach
    have hall : (i.runner e).run.Reaches j₀ m := by
      rw [Runner.run, hsel]
      refine (Runner.reaches_visits_idle hpre).mpr ?_
      rw [Runner.visits, Script.each_cons, Script.reaches_seq]
      exact Or.inl hvisit
    have hplan := h m hall ((hm.replanned_iff hsame).mpr hwrote)
    rw [hm.ran, List.mem_singleton] at hplan
    exact hne hplan.symm
  rcases hcommits with ⟨m, hm, hwrote⟩ | ⟨m, hm, hdone⟩
  · refine hbad m (hspec.stops hsaid hm) (fun hc => hwrote (hc.trans hfile.symm)) ?_
    exact Script.reaches_seq.mpr (Or.inl hm)
  · have hkept := hspec.ends hsaid hm
    have hst : m.cluster.status.isSome = true := by
      have hcap := congrArg Option.isSome hkept.plan.capacity
      simpa [hstatus] using hcap
    have hfl : m.site.file.isSome = true := by
      rcases hkept.file with hc | ⟨c, hc, -⟩ <;> simp [hc]
    let saved := m.save (recordCompleted m.cluster l.1 (i.rest.now m.site.other))
    have hplan : OnlyRecorded m.cluster (recordCompleted m.cluster l.1 (i.rest.now m.site.other)) :=
      Recording.apply_onlyRecorded (r := .completed _ _) rfl
    have hrecord : ((i.runner e).record l.1).Reaches m saved := by
      show (recordPhase i.rest l.1).Reaches m saved
      rw [recordPhase, Script.reaches_onlyIf, hst, hfl, Bool.and_self, if_pos rfl]
      exact Script.reaches_command.mpr (Or.inr rfl)
    have hsaved := keepsSave_kept m _ hplan hkept
    refine hbad saved hsaved ?_ ?_
    · rintro hc
      have hspec' := (hkept.plan.trans hplan.toSamePlan).spec
      rw [Option.some_inj.mp hc] at hspec'
      exact hsame hspec'.symm
    · refine Script.reaches_seq.mpr (Or.inr ⟨m, hm, Script.reaches_seq.mpr (Or.inr ⟨m, ?_, hrecord⟩)⟩)
      exact Runner.ends_confirm.mpr ⟨rfl, hdone⟩

/-- **The stored spec changes only in a create that runs plan exactly when the first phase it has to
run is plan**, short of a create that changes nothing. -/
theorem onlyPlan_iff (hfile : s.file = some c₀) (h : i.start s = .ok j₀) :
    OnlyPlan e i c₀ j₀ ↔ PlanFirst e i c₀ j₀ := by
  obtain ⟨hsite, hran, hstatus⟩ := start_eq_ok hfile h
  rw [← hsite] at hfile
  exact ⟨planFirst_of_onlyPlan hfile hran hstatus, onlyPlan_of_planFirst hfile⟩

/-! ### A resume with one more worker -/

/-- Hosts that answer every question with yes and do what they are told. -/
def willing : Rest Unit where
  done _ _ _ := true
  act _ _ := Script.skip
  datapath _ := .veth
  cilium := "1.20.4"
  cidrs _ _ := none
  now _ := 0

/-- `create cluster dev` with `n` nodes after the first: a control plane, then workers. -/
def createDev (workers : List NodeGroup) (skip : List String) : Invocation Unit where
  user := ⟨⟨⟨"dev", clusterName_dev⟩⟩, { nodes := { role := .controlPlane } :: workers }⟩
  facts := { k8sDefault := "1.34.0", usedIndices := [], allowOverlap := false, tk8sVersion := "1" }
  rest := willing
  skip := skip

/-- A create of one node that was stopped after plan. -/
def planned : Except Raised (Site Unit) := do
  let j ← (createDev [] []).start ⟨none, fun _ => {}, ()⟩
  return { j.site with file := some j.cluster }

/-- The interrupted create, and its resume with a worker. -/
def resumeGrown (skip : List String) : Except Raised (Cluster × Job Unit) := do
  let s ← planned
  let c₀ ← Checked.ofOption .assertionError s.file
  let j₀ ← (createDev [{ role := .worker }] skip).start s
  return (c₀, j₀)

lemma resumeGrown_start {skip : List String} {c₀ : Cluster} {j₀ : Job Unit}
    (h : resumeGrown skip = .ok (c₀, j₀)) :
    ∃ s : Site Unit, s.file = some c₀ ∧ (createDev [{ role := .worker }] skip).start s = .ok j₀ := by
  simp only [resumeGrown, Checked.bind_eq_ok, Checked.ofOption_eq_ok, Checked.pure_eq_ok,
    Prod.mk.injEq] at h
  obtain ⟨s, -, c, hc, j, hj, rfl, rfl⟩ := h
  exact ⟨s, hc, hj⟩

/-- Without preflight, plan comes first: the worker is planned by plan. -/
theorem onlyPlan_skip_preflight : ∃ (s : Site Unit) (c₀ : Cluster) (j₀ : Job Unit),
    s.file = some c₀ ∧ (createDev [{ role := .worker }] ["preflight"]).start s = .ok j₀ ∧
      j₀.cluster.spec.unrecorded ≠ c₀.spec.unrecorded ∧
      OnlyPlan someEnv (createDev [{ role := .worker }] ["preflight"]) c₀ j₀ := by
  have hrun : (do
      let (c₀, j₀) ← resumeGrown ["preflight"]
      return decide (j₀.cluster.spec.unrecorded ≠ c₀.spec.unrecorded ∧ planDone j₀ = false) :
        Except Raised Bool) = .ok true := by
    decide +kernel
  simp only [Checked.bind_eq_ok, Checked.pure_eq_ok, decide_eq_true_eq] at hrun
  obtain ⟨⟨c₀, j₀⟩, hres, hne, hdone⟩ := hrun
  obtain ⟨s, hfile, hstart⟩ := resumeGrown_start hres
  refine ⟨s, c₀, j₀, hfile, hstart, hne, (onlyPlan_iff hfile hstart).mpr ?_⟩
  refine Or.inr (Or.inr fun ls hsel l hl => Or.inl ?_)
  obtain rfl := Except.ok.inj hsel
  have hpending : ((createDev [{ role := .worker }] ["preflight"]).runner someEnv).pending
      (leavesOf "" (createPhases someEnv willing)) j₀ = some ("plan", planPhase) := by
    have hplan : (planPhase (W := Unit)).isDone j₀ = false := hdone
    have hfirst : firstName "plan" ≠ "preflight" := by decide
    simp [Runner.pending, createPhases, leavesOf, Phase.leaves, Runner.skipped,
      Invocation.runner, createDev, hplan, hfirst]
  rw [Option.mem_def] at hl
  rw [← Option.some_inj.mp (hpending.symm.trans hl)]

/-- With preflight, the record of preflight writes the worker into `cluster.yaml`. -/
theorem not_onlyPlan_preflight : ∃ (s : Site Unit) (c₀ : Cluster) (j₀ : Job Unit),
    s.file = some c₀ ∧ (createDev [{ role := .worker }] []).start s = .ok j₀ ∧
      ¬ OnlyPlan someEnv (createDev [{ role := .worker }] []) c₀ j₀ := by
  have hrun : (do
      let (c₀, j₀) ← resumeGrown []
      let course := ((createDev [{ role := .worker }] []).runner someEnv).run j₀
      return course.passed.any fun j =>
        j.site.file.any (fun c => c.spec.unrecorded ≠ c₀.spec.unrecorded) && "plan" ∉ j.ran :
        Except Raised Bool) = .ok true := by
    decide +kernel
  simp only [Checked.bind_eq_ok, Checked.pure_eq_ok, List.any_eq_true] at hrun
  obtain ⟨⟨c₀, j₀⟩, hres, j, hj, hbad⟩ := hrun
  obtain ⟨s, hfile, hstart⟩ := resumeGrown_start hres
  refine ⟨s, c₀, j₀, hfile, hstart, fun h => ?_⟩
  simp only [Bool.and_eq_true, decide_eq_true_eq, Option.any_eq_true] at hbad
  obtain ⟨⟨c, hc, hne⟩, hran⟩ := hbad
  exact hran (h j (Or.inr hj) ⟨c, hc, hne⟩)

end Tk8s
