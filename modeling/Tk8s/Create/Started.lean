import Tk8s.Create.Topology
import Tk8s.Lib.Run

/-!
What runs when a cluster becomes Ready: units renders a changed definition again, while nodes/up looks
only at whether things are active.

* `StartedCurrent`: every container of the cluster that runs was started from the text `cluster.yaml`
  renders for it.
* `NothingStale`: the same of the containers that run before a create, with the cluster it resolves.
* `ready_current_iff`: **in every run of creates, stopped anywhere or finished, a cluster is started
  from its `cluster.yaml` whenever it becomes Ready exactly when each create that finishes found
  nothing stale running**.
-/

namespace Tk8s

variable {W : Type} {e : Env} {i : Invocation W} {s : Site W} {c₁ : Cluster} {j₀ j m : Job W}

/-! ### The claim and its condition -/

/-- `status.phase` is Ready. -/
def Cluster.Ready (c : Cluster) : Prop := ∃ st ∈ c.status, st.phase = .ready

/-- What runs is what `cluster.yaml` says. -/
def StartedCurrent (e : Env) (s : Site W) : Prop :=
  ∀ c ∈ s.file, ∀ id stem text, Renders e c id stem text →
    ∀ t ∈ (s.machine id).started stem, t = text

/-- No container of this cluster runs with another text than it renders now. -/
def NothingStale (e : Env) (c : Cluster) (s : Site W) : Prop :=
  ∀ id stem text, Renders e c id stem text → ∀ t ∈ (s.machine id).started stem, t = text

/-- One create of a run: stopped at any command, or finished. -/
def CreateStep (e : Env) (t : Trace.Transition (Site W) (Invocation W)) : Prop :=
  ∃ j₀ j, t.label.start t.source = .ok j₀ ∧ (t.label.script e).Reaches j₀ j ∧ t.target = j.site

/-- When the cluster becomes Ready, what runs is what `cluster.yaml` says. -/
def ReadyCurrent (e : Env) (t : Trace.Transition (Site W) (Invocation W)) : Prop :=
  (∃ c ∈ t.target.file, c.Ready) → StartedCurrent e t.target

/-- A create that gets to Ready finds nothing stale. -/
def FindsNothingStale (e : Env) (t : Trace.Transition (Site W) (Invocation W)) : Prop :=
  (∃ c ∈ t.target.file, c.Ready) →
    ∀ j₀, t.label.start t.source = .ok j₀ → NothingStale e j₀.cluster t.source

/-! ### Only the end marks Ready -/

lemma not_ready_of_start (h : i.start s = .ok j₀) :
    j₀.site = s ∧ ¬ j₀.cluster.Ready ∧ ∀ c ∈ j₀.site.file, ¬ c.Ready := by
  simp only [Invocation.start, Checked.bind_eq_ok, Checked.refuseIf_eq_ok, Checked.pure_eq_ok] at h
  obtain ⟨-, -, -, hready, c, hc, rfl⟩ := h
  obtain ⟨index, t, -, rfl⟩ := resolve_eq_ok.mp hc
  have hfile : ∀ c ∈ s.file, ¬ c.Ready := by
    rintro c hc ⟨st, hst, hph⟩
    exact hready ⟨c, hc, st, hst, hph⟩
  refine ⟨rfl, ?_, hfile⟩
  rintro ⟨st, hst, hph⟩
  cases hf : s.file with
  | none =>
      simp only [hf, statusOf, Option.mem_def, Option.some_inj] at hst
      rw [← hst] at hph
      simp at hph
  | some c =>
      simp only [hf, statusOf, Option.mem_def] at hst
      exact hfile c hf ⟨st, hst, hph⟩

/-- Not Ready, neither in the context nor in the file. -/
def Unfinished (j : Job W) : Prop := ¬ j.cluster.Ready ∧ ∀ c ∈ j.site.file, ¬ c.Ready

lemma ready_iff {c : Cluster} : c.Ready ↔ c.status.map (·.phase) = some .ready := by
  simp [Cluster.Ready]

/-- No phase marks a cluster Ready. -/
lemma spec_run_unfinished :
    Script.Spec (Unfinished (W := W)) (i.runner e).run Unfinished Unfinished := by
  have hsave : KeepsSave (Unfinished (W := W)) := by
    intro j c hc h
    have hnot : ¬ c.Ready := by
      rw [ready_iff, hc.phase, ← ready_iff]
      exact h.1
    refine ⟨hnot, fun c' hc' => ?_⟩
    rwa [← Option.some_inj.mp (Option.mem_def.mp hc')]
  exact i.spec_run (fun _ _ h => h) (fun _ _ h => h) hsave.same hsave.recording
    (fun _ _ _ _ _ h => ⟨fun _ _ => h, h⟩) fun _ _ h => ⟨h, h⟩

/-- A create that runs every phase. -/
structure Invocation.Plain (i : Invocation W) : Prop where
  dryRun : i.dryRun = false
  only : i.only = none
  skip : i.skip = []

lemma reaches_finish (h : i.finish.Reaches m j) : j = m ∨ i.Plain ∧ ∃ st,
    m.cluster.status = some st ∧ j = m.save (m.cluster.withStatus { st with phase := .ready }) := by
  rw [Invocation.finish] at h
  by_cases hplain : i.dryRun = true ∨ i.only ≠ none ∨ i.skip ≠ []
  · rw [if_pos hplain, Script.reaches_skip] at h
    exact Or.inl h
  rw [if_neg hplain] at h
  simp only [not_or, not_not, Bool.not_eq_true, ne_eq] at hplain
  cases hst : m.cluster.status with
  | none =>
      rw [Script.reaches_ask, hst, Script.reaches_skip] at h
      exact Or.inl h
  | some st =>
      simp only [Script.reaches_ask, hst] at h
      by_cases hph : st.phase ≠ .ready
      · rw [if_pos hph, Script.reaches_command] at h
        exact h.imp_right fun hj => ⟨⟨hplain.1, hplain.2.1, hplain.2.2⟩, st, rfl, hj⟩
      · rw [if_neg hph, Script.reaches_skip] at h
        exact Or.inl h

/-- A create is Ready only after all of its phases. -/
lemma ready_cases (h : i.start s = .ok j₀) (hj : (i.script e).Reaches j₀ j)
    (hready : ∃ c ∈ j.site.file, c.Ready) : i.Plain ∧ ∃ m st, (i.runner e).run.Ends j₀ m ∧
      m.cluster.status = some st ∧
      j = m.save (m.cluster.withStatus { st with phase := .ready }) := by
  obtain ⟨-, hc, hf⟩ := not_ready_of_start h
  obtain ⟨c, hc', hr⟩ := hready
  rcases Script.reaches_seq.mp hj with hrun | ⟨m, hm, hfin⟩
  · exact absurd hr ((spec_run_unfinished.stops ⟨hc, hf⟩ hrun).2 c hc')
  · rcases reaches_finish hfin with rfl | ⟨hplain, st, hst, rfl⟩
    · exact absurd hr ((spec_run_unfinished.ends ⟨hc, hf⟩ hm).2 c hc')
    · exact ⟨hplain, m, st, hm, hst, rfl⟩

/-! ### From units to the end -/

/-- Before units: nothing was started. -/
structure Waiting (c₁ : Cluster) (s₀ : Site W) (j : Job W) : Prop where
  plan : SamePlan c₁ j.cluster
  started : ∀ id, (j.site.machine id).started = (s₀.machine id).started

/-- From units on: the units are the cluster's, and what was started since was started from them. -/
structure Settled (e : Env) (c₁ : Cluster) (s₀ : Site W) (j : Job W) : Prop where
  plan : SamePlan c₁ j.cluster
  units : ∀ id stem text, Renders e c₁ id stem text →
    (j.site.machine id).units stem = some text
  kept : ∀ id stem, ∀ t ∈ (s₀.machine id).started stem, t ∈ (j.site.machine id).started stem
  started : ∀ id stem text, Renders e c₁ id stem text → ∀ t ∈ (j.site.machine id).started stem,
    t ∈ (s₀.machine id).started stem ∨ t = text

lemma keepsWrite_waiting {s₀ : Site W} : KeepsWrite e (Waiting c₁ s₀) := by
  intro j l _ hf _ h
  refine ⟨fun u _ => ⟨h.plan, ?_⟩, h.plan, ?_⟩
  · exact onMachine_induction (P := fun id m => m.started = (s₀.machine id).started) h.started
      fun hm => hm
  · exact onMachine_induction (P := fun id m => m.started = (s₀.machine id).started) h.started
      fun hm => hm

lemma settled_of_current {s₀ : Site W} (h : Waiting c₁ s₀ j) (hcur : unitsCurrent e j = true) :
    Settled e c₁ s₀ j where
  plan := h.plan
  units _ _ _ hr := unitsCurrent_renders hcur ((renders_congr h.plan).mpr hr)
  kept id stem t ht := by rwa [h.started id]
  started id stem _ _ t ht := by
    rw [h.started id] at ht
    exact Or.inl ht

lemma keepsSave_settled {s₀ : Site W} : KeepsSave (Settled e c₁ s₀) :=
  fun _ _ hc h => ⟨h.plan.trans hc.toSamePlan, h.units, h.kept, h.started⟩

lemma keepsOther_settled {s₀ : Site W} : KeepsOther (Settled e c₁ s₀) :=
  fun _ _ h => ⟨h.plan, h.units, h.kept, h.started⟩

/-- A machine from units on: its units are the cluster's, what ran still runs, and what was started
was started from them. -/
structure Settled.On (e : Env) (c₁ : Cluster) (s₀ : Site W) (id : MachineId) (m : Machine) :
    Prop where
  units : ∀ stem text, Renders e c₁ id stem text → m.units stem = some text
  kept : ∀ stem, ∀ t ∈ (s₀.machine id).started stem, t ∈ m.started stem
  started : ∀ stem text, Renders e c₁ id stem text → ∀ t ∈ m.started stem,
    t ∈ (s₀.machine id).started stem ∨ t = text

lemma settled_iff {s₀ : Site W} : Settled e c₁ s₀ j ↔
    SamePlan c₁ j.cluster ∧ ∀ id, Settled.On e c₁ s₀ id (j.site.machine id) := by
  constructor
  · intro h
    exact ⟨h.plan, fun id => ⟨h.units id, h.kept id, h.started id⟩⟩
  · intro h
    exact ⟨h.1, fun id => (h.2 id).units, fun id => (h.2 id).kept, fun id => (h.2 id).started⟩

lemma settled_onMachine {s₀ : Site W} {id : MachineId} {f : Machine → Machine}
    (h : Settled e c₁ s₀ j)
    (hf : ∀ m, Settled.On e c₁ s₀ id m → Settled.On e c₁ s₀ id (f m)) :
    Settled e c₁ s₀ (j.onMachine id f) := by
  rw [settled_iff] at h ⊢
  exact ⟨h.1, onMachine_induction h.2 (hf _)⟩

lemma Settled.On.writeUnit {s₀ : Site W} {id : MachineId} {m : Machine} {stem text : String}
    (hr : Renders e c₁ id stem text) (h : Settled.On e c₁ s₀ id m) :
    Settled.On e c₁ s₀ id (m.writeUnit stem text) := by
  -- the unit that is written again is there already, with this very text
  have hsame : m.writeUnit stem text = m := by
    rw [Machine.writeUnit, ← h.units stem text hr, Function.update_eq_self]
  rw [hsame]
  exact h

lemma Settled.On.startTarget {s₀ : Site W} {id : MachineId} {m : Machine}
    (h : Settled.On e c₁ s₀ id m) : Settled.On e c₁ s₀ id m.reload.startTarget where
  units := h.units
  kept stem t ht := by
    have hm := h.kept stem t ht
    rw [Option.mem_def] at hm
    simp [Machine.startTarget, Machine.reload, hm]
  started stem text hr t ht := by
    cases hs : m.started stem with
    | some t' =>
        refine h.started stem text hr t ?_
        simpa [Machine.startTarget, Machine.reload, hs] using ht
    | none =>
        have hload : t ∈ m.units stem := by
          simp only [Machine.startTarget, Machine.reload, hs] at ht
          by_cases hw : stem ∈ m.wants
          · simpa [hw] using ht
          · simp [hw] at ht
        rw [h.units stem text hr, Option.mem_def, Option.some_inj] at hload
        exact Or.inr hload.symm

lemma keepsWrite_settled {s₀ : Site W} : KeepsWrite e (Settled e c₁ s₀) := by
  intro j l hl hf hhf h
  refine ⟨fun u hu => settled_onMachine h fun m hm => hm.writeUnit ?_,
    settled_onMachine h fun m hm => ⟨hm.units, hm.kept, hm.started⟩⟩
  exact (renders_congr h.plan).mp ⟨l, hl, hf, hhf, rfl, hu⟩

lemma onMachine_onMachine {id : MachineId} {f g : Machine → Machine} :
    (j.onMachine id f).onMachine id g = j.onMachine id fun m => g (f m) := by
  simp [Job.onMachine, Site.onMachine]

lemma keepsStart_settled {s₀ : Site W} : KeepsStart (Settled e c₁ s₀) := by
  intro j id h
  refine ⟨settled_onMachine h fun m hm => ⟨hm.units, hm.kept, hm.started⟩, ?_⟩
  rw [onMachine_onMachine]
  exact settled_onMachine h fun m hm => hm.startTarget

/-! ### A create that runs every phase -/

/-- The phases before units, and those after it. -/
lemma createPhases_split {rest : Rest W} : ∃ post,
    leavesOf "" (createPhases e rest) = [("preflight", preflightPhase rest), ("plan", planPhase),
      ("images", rest.leaf "images")] ++ ("units", unitsPhase e rest) :: post :=
  ⟨_, rfl⟩

/-- Before units. -/
lemma spec_before_units {s₀ : Site W} : Script.Spec (Waiting c₁ s₀)
    ((i.runner e).visits [("preflight", preflightPhase i.rest), ("plan", planPhase),
      ("images", i.rest.leaf "images")]) (Waiting c₁ s₀) (Waiting c₁ s₀) := by
  have hother : KeepsOther (W := W) (Waiting c₁ s₀) := fun _ _ h => ⟨h.plan, h.started⟩
  have hsave : KeepsSave (W := W) (Waiting c₁ s₀) :=
    fun _ _ hc h => ⟨h.plan.trans hc.toSamePlan, h.started⟩
  refine Runner.spec_visits (fun _ _ h => ⟨h.plan, h.started⟩) ?_ fun _ => spec_recordPhase fun _ => hsave.recording _
  simp only [List.forall_mem_cons, List.not_mem_nil, false_imp_iff, implies_true, and_true]
  exact ⟨Rest.spec_script hother, spec_planRun hsave.same, Rest.spec_script hother⟩

/-- **units ends with the units of the cluster**, found or written. -/
lemma settled_of_units {s₀ : Site W} (hdry : i.dryRun = false) (hskip : i.skip = [])
    (h : Waiting c₁ s₀ j)
    (hm : ((i.runner e).visit ("units", unitsPhase e i.rest)).Ends j m) :
    Settled e c₁ s₀ m := by
  have hs : (i.runner e).skipped "units" = false := by
    simp [Runner.skipped, Invocation.runner, hskip]
  have hd' : (i.runner e).dryRun = false := hdry
  cases hd : (unitsPhase e i.rest).isDone j with
  | true =>
      rw [Runner.ends_visit_idle (Or.inr hd)] at hm
      simp only [Leaf.isDone, unitsPhase, Option.any_some, Bool.and_eq_true] at hd
      exact hm ▸ settled_of_current h hd.1
  | false =>
      rw [Runner.ends_visit_pending hs hd, hd', if_neg (by simp), Script.ends_seq] at hm
      obtain ⟨m₁, hm₁, hm⟩ := hm
      obtain ⟨m₂, hm₂, hrecord⟩ := Script.ends_seq.mp hm
      obtain ⟨rfl, hdone⟩ := Runner.ends_confirm.mp hm₂
      have hwaiting : Waiting c₁ s₀ m₂ :=
        (spec_unitsRun (Rest.spec_script fun _ _ h => ⟨h.plan, h.started⟩) keepsWrite_waiting).ends
          (show Waiting c₁ s₀ ((i.runner e).say "units" j) from ⟨h.plan, h.started⟩) hm₁
      simp only [unitsPhase, Option.all_some, Bool.and_eq_true] at hdone
      exact (spec_recordPhase fun _ => keepsSave_settled.recording _).ends (settled_of_current hwaiting hdone.1)
        hrecord

/-- **A create that ran every phase is settled.** -/
theorem settled_of_run {s₀ : Site W} (hplain : i.Plain) (h : Waiting c₁ s₀ j)
    (hm : (i.runner e).run.Ends j m) : Settled e c₁ s₀ m := by
  have hsel : (i.runner e).selected = .ok (leavesOf "" (createPhases e i.rest)) := by
    simp [Runner.selected, Invocation.runner, hplain.only, hplain.dryRun]
  obtain ⟨post, hsplit⟩ := createPhases_split (e := e) 
  rw [Runner.run, hsel] at hm
  change (Script.each _ (i.runner e).visit).Ends j m at hm
  rw [hsplit, Script.ends_each_append] at hm
  obtain ⟨m₁, hm₁, hm⟩ := hm
  rw [Script.each_cons, Script.ends_seq] at hm
  obtain ⟨m₂, hm₂, hm⟩ := hm
  have hsettled := settled_of_units hplain.dryRun hplain.skip (spec_before_units.ends h hm₁) hm₂
  have hpost : ∀ l ∈ post, Script.Spec (Settled e c₁ s₀) l.2.run (Settled e c₁ s₀)
      (Settled e c₁ s₀) := by
    intro l hl
    refine spec_createPhases keepsOther_settled keepsSave_settled.same keepsSave_settled.recording
      keepsWrite_settled keepsStart_settled l (?_ : l ∈ leavesOf "" (createPhases e i.rest))
    rw [hsplit]
    simp [hl]
  exact (Runner.spec_visits (fun _ _ h => ⟨h.plan, h.units, h.kept, h.started⟩) hpost
    fun _ => spec_recordPhase fun _ => keepsSave_settled.recording _).ends hsettled hm

/-! ### The exact condition -/

lemma settled_of_ready (h : i.start s = .ok j₀) (hj : (i.script e).Reaches j₀ j)
    (hready : ∃ c ∈ j.site.file, c.Ready) : Settled e j₀.cluster s j ∧
      j.site.file = some j.cluster := by
  obtain ⟨hplain, m, st, hm, hst, rfl⟩ := ready_cases h hj hready
  obtain ⟨hsite, -, -⟩ := not_ready_of_start h
  have hwaiting : Waiting j₀.cluster s j₀ := ⟨SamePlan.refl _, fun id => by rw [hsite]⟩
  have hsettled := settled_of_run hplain hwaiting hm
  have hmarked : SamePlan m.cluster (m.cluster.withStatus { st with phase := .ready }) :=
    ⟨rfl, rfl, by simp [Cluster.withStatus, hst]⟩
  exact ⟨⟨hsettled.plan.trans hmarked, hsettled.units, hsettled.kept, hsettled.started⟩, rfl⟩

/-- One create: what runs at Ready is current exactly when nothing stale ran before. -/
lemma startedCurrent_iff (h : i.start s = .ok j₀) (hj : (i.script e).Reaches j₀ j)
    (hready : ∃ c ∈ j.site.file, c.Ready) :
    StartedCurrent e j.site ↔ NothingStale e j₀.cluster s := by
  obtain ⟨hsettled, hfile⟩ := settled_of_ready h hj hready
  constructor
  · intro hcur id stem text hr t ht
    exact hcur j.cluster hfile id stem text ((renders_congr hsettled.plan).mpr hr) t
      (hsettled.kept id stem t ht)
  · intro hnone c hc id stem text hr t ht
    rw [Option.mem_def, hfile, Option.some_inj] at hc
    rw [← hc, renders_congr hsettled.plan] at hr
    cases hsettled.started id stem text hr t ht with
    | inl hold => exact hnone id stem text hr t hold
    | inr heq => exact heq

/-- **In every run of creates, what runs when the cluster becomes Ready is what `cluster.yaml` says
exactly when each create that finishes finds nothing stale running.** -/
theorem ready_current_iff {ts : List (Trace.Transition (Site W) (Invocation W))} {s₀ : Site W}
    (run : Trace.Run (CreateStep e) s₀ ts s) :
    (∀ t ∈ ts, ReadyCurrent e t) ↔ ∀ t ∈ ts, FindsNothingStale e t := by
  refine run.good_iff_safe (I := fun _ => True) trivial (fun _ _ _ _ => trivial) ?_
  rintro t ⟨j₀, j, hstart, hreach, htarget⟩ -
  refine forall_congr' fun hready => ?_
  rw [htarget] at hready ⊢
  rw [startedCurrent_iff hstart hreach hready]
  constructor
  · intro hnone j₀' hstart'
    rw [hstart] at hstart'
    exact Except.ok.inj hstart' ▸ hnone
  · intro h
    exact h j₀ hstart

/-! ### More cpu after an interrupted create -/

/-- `create cluster dev` of one node with this much cpu. -/
def createCpu (cpu : ℕ+) : Invocation Unit where
  user := ⟨⟨⟨"dev", clusterName_dev⟩⟩, { nodes := { role := .controlPlane, cpu := cpu } :: [] }⟩
  facts := { k8sDefault := "1.34.0", usedIndices := [], allowOverlap := false, tk8sVersion := "1" }
  rest := willing

/-- Nothing was created yet. -/
def bareSite : Site Unit := ⟨none, fun _ => {}, ()⟩

/-- The states `createCpu` passes through. -/
def createdCpu (cpu : ℕ+) (s : Site Unit) : Except Raised (List (Job Unit)) := do
  let j₀ ← (createCpu cpu).start s
  return ((createCpu cpu).script someEnv j₀).passed

lemma createdCpu_step {cpu : ℕ+} {s : Site Unit} {l : List (Job Unit)} {j : Job Unit}
    (h : createdCpu cpu s = .ok l) (hj : j ∈ l) : CreateStep someEnv ⟨s, createCpu cpu, j.site⟩ := by
  simp only [createdCpu, Checked.bind_eq_ok, Checked.pure_eq_ok] at h
  obtain ⟨j₀, hstart, rfl⟩ := h
  exact ⟨j₀, j, hstart, Or.inr hj, rfl⟩

/-- The create of a new cluster that gets to its end. -/
def freshCpu : Except Raised (List (Job Unit) × Job Unit) := do
  let passed ← createdCpu 2 bareSite
  let j ← Checked.ofOption .assertionError passed.getLast?
  return (passed, j)

/-- It becomes Ready. -/
lemma freshCpu_ready : ∃ passed j, createdCpu 2 bareSite = .ok passed ∧ passed.getLast? = some j ∧
    ∃ c ∈ j.site.file, c.Ready := by
  have hrun : (do
      let (_, j) ← freshCpu
      return j.site.file.any fun c => c.status.any fun st => st.phase = .ready :
        Except Raised Bool) = .ok true := by
    decide +kernel
  simp only [Checked.bind_eq_ok, Checked.pure_eq_ok, Option.any_eq_true, decide_eq_true_eq] at hrun
  obtain ⟨⟨passed, j⟩, hfresh, hready⟩ := hrun
  simp only [freshCpu, Checked.bind_eq_ok, Checked.ofOption_eq_ok, Checked.pure_eq_ok,
    Prod.mk.injEq] at hfresh
  obtain ⟨_, hpassed, _, hlast, rfl, rfl⟩ := hfresh
  exact ⟨_, _, hpassed, hlast, hready⟩

/-- A new cluster becomes Ready with what `cluster.yaml` says. -/
theorem ready_current_fresh : ∃ (ts : List (Trace.Transition (Site Unit) (Invocation Unit)))
    (s : Site Unit), Trace.Run (CreateStep someEnv) bareSite ts s ∧ (∃ c ∈ s.file, c.Ready) ∧
      ∀ t ∈ ts, ReadyCurrent someEnv t := by
  obtain ⟨passed, j, hpassed, hlast, hready⟩ := freshCpu_ready
  have run := Trace.Run.nil.snoc (createdCpu_step hpassed (List.mem_of_getLast? hlast))
  refine ⟨_, _, run, hready, (ready_current_iff run).mpr fun t ht => ?_⟩
  rw [List.nil_append, List.mem_singleton] at ht
  -- nothing runs on a bare site
  intro _ j₀ _ id stem text _ t' ht'
  rw [ht] at ht'
  exact absurd ht' (by simp [bareSite])

/-- A create with two cpus, stopped once its node runs, and a resume with four that gets to its
end. -/
def resumedCpu : Except Raised (Job Unit × Job Unit) := do
  let passed ← createdCpu 2 bareSite
  let j ← Checked.ofOption .assertionError <| passed.find? fun j =>
    ((j.site.machine none).started "dev-control-plane-1").isSome
  let resumed ← createdCpu 4 j.site
  let k ← Checked.ofOption .assertionError resumed.getLast?
  return (j, k)

/-- The resumed cluster is Ready with four cpus in its unit, and its node runs with two. -/
theorem not_ready_current_resumed : ∃ (ts : List (Trace.Transition (Site Unit) (Invocation Unit)))
    (s : Site Unit), Trace.Run (CreateStep someEnv) bareSite ts s ∧
      ¬ ∀ t ∈ ts, ReadyCurrent someEnv t := by
  have hrun : (do
      let (_, k) ← resumedCpu
      let c ← Checked.ofOption .assertionError k.site.file
      let files ← unitFiles someEnv c
      let hf ← Checked.ofOption .assertionError files[0]?
      let u ← Checked.ofOption .assertionError <|
        hf.units.find? fun u => u.1 = "dev-control-plane-1"
      return decide ((c.status.any fun st => st.phase = .ready) = true ∧
        ((k.site.machine hf.machine).started u.1).any (· ≠ u.2) = true) :
        Except Raised Bool) = .ok true := by
    decide +kernel
  simp only [Checked.bind_eq_ok, Checked.ofOption_eq_ok, Checked.pure_eq_ok, decide_eq_true_eq,
    Option.any_eq_true] at hrun
  obtain ⟨⟨j, k⟩, hres, c, hc, files, hfiles, hf, hhf, u, hu, hready, t, ht, hne⟩ := hrun
  simp only [resumedCpu, Checked.bind_eq_ok, Checked.ofOption_eq_ok, Checked.pure_eq_ok,
    Prod.mk.injEq] at hres
  obtain ⟨passed, hpassed, _, hj, resumed, hresumed, _, hk, rfl, rfl⟩ := hres
  have hfirst := createdCpu_step hpassed (List.mem_of_find?_eq_some hj)
  have hsecond := createdCpu_step hresumed (List.mem_of_getLast? hk)
  refine ⟨_, _, (Trace.Run.nil.snoc hfirst).snoc hsecond, fun h => hne ?_⟩
  have hcur := h _ (List.mem_append_right _ (List.mem_singleton_self _)) ⟨c, hc, hready⟩
  exact hcur c hc hf.machine u.1 u.2
    ⟨files, hfiles, hf, List.mem_of_getElem? hhf, rfl, List.mem_of_find?_eq_some hu⟩ t ht

end Tk8s
