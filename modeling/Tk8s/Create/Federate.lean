import Tk8s.Create.Started
import Tk8s.Mesh.Ops

/-!
`create/cni.py`: `install_done` looks at objects of the cluster, `install_cilium` records what it
installed as its last command.

* `Kube`: the cilium objects `install_done` looks at, and everything else.
* `Cilium`, `installCilium`: the commands of `install_cilium` up to the record, each of which may
  fail or be the last.
* `CniRecorded`: the record a mesh needs; `canFederate_iff`: a cluster with a mesh address can
  federate then.
* `federates_iff`: **in every run of creates, a cluster has its record whenever it becomes Ready
  exactly when no create that finishes found cilium installed and the record missing**.
-/

namespace Tk8s

/-! ### Cilium -/

/-- The DaemonSet and the LB-IPAM pool of cilium, and everything else. -/
structure Kube (V : Type) where
  daemonSet : Bool
  pool : Bool
  other : V

/-- What the commands of `install_cilium` do and answer. -/
structure Cilium (V : Type) where
  /-- The cilium command line tool, the removal of kube-proxy and the Gateway API CRDs. -/
  prepared : V → Bool
  /-- `cilium install` leaves the DaemonSet behind, whether it succeeds or not. -/
  leavesDaemonSet : V → Bool
  installed : V → Bool
  ready : V → Bool
  applied : V → Bool
  accepted : V → Bool
  act : V → V

variable {V : Type} {e : Env}

/-- A command that has to succeed and changes no cilium object. -/
def Cilium.require (o : Cilium V) (ok : V → Bool) : Script (Kube V) :=
  Script.seq (Script.command fun w => { w with other := o.act w.other }) <|
    Script.cond (fun w => ok w.other) Script.skip Script.fail

/-- `install_cilium`, up to the record. -/
def installCilium (o : Cilium V) : Script (Kube V) :=
  Script.seq (o.require o.prepared) <|
    Script.seq (Script.command fun w =>
      { w with daemonSet := w.daemonSet || o.leavesDaemonSet w.other }) <|
    Script.seq (o.require o.installed) <|
    Script.seq (o.require o.ready) <|
    Script.seq (Script.cond (fun w => o.applied w.other)
      (Script.command fun w => { w with pool := true }) Script.fail) <|
    o.require o.accepted

/-- The rest of the world with the cilium objects in it. -/
def Rest.withCilium (rest : Rest V) (o : Cilium V) : Rest (Kube V) where
  done full c w :=
    if full = "cni/install" then w.daemonSet && w.pool else rest.done full c w.other
  act full c :=
    if full = "cni/install" then installCilium o
    else Script.within (fun w => w.other) (fun v w => { w with other := v }) (rest.act full c)
  datapath w := rest.datapath w.other
  cilium := rest.cilium
  cidrs w := rest.cidrs w.other
  now w := rest.now w.other

def Invocation.withCilium (i : Invocation V) (o : Cilium V) : Invocation (Kube V) where
  user := i.user
  facts := i.facts
  rest := i.rest.withCilium o
  only := i.only
  skip := i.skip
  dryRun := i.dryRun

/-! ### The record -/

/-- The resolved datapath, the cluster id and the Cilium version are in `cluster.yaml`. -/
def CniRecorded (c : Cluster) : Prop :=
  c.spec.datapathResolved.isSome = true ∧
    ∃ st ∈ c.status, st.clusterId = some (c.spec.network.index + 1) ∧ st.cilium.isSome = true

lemma canFederate_of_cniRecorded {c : Cluster} (h : CniRecorded c)
    (hmesh : c.spec.network.mesh.isSome = true) : canFederate c = true := by
  obtain ⟨-, st, hst, hid, hcilium⟩ := h
  rw [Option.mem_def] at hst
  simp [canFederate, hst, hid, hcilium, hmesh]

/-- The same facts of the cni phase. -/
structure SameFacts (c c' : Cluster) : Prop where
  datapath : c'.spec.datapathResolved = c.spec.datapathResolved
  network : c'.spec.network = c.spec.network
  ids : c'.status.map (fun st => (st.clusterId, st.cilium)) =
    c.status.map fun st => (st.clusterId, st.cilium)

namespace SameFacts

variable {c c' c'' : Cluster}

lemma refl (c : Cluster) : SameFacts c c := ⟨rfl, rfl, rfl⟩

lemma trans (h : SameFacts c c') (h' : SameFacts c' c'') : SameFacts c c'' :=
  ⟨h'.datapath.trans h.datapath, h'.network.trans h.network, h'.ids.trans h.ids⟩

lemma isSome (h : SameFacts c c') : c'.status.isSome = c.status.isSome := by
  have hmap := congrArg Option.isSome h.ids
  rwa [Option.isSome_map, Option.isSome_map] at hmap

lemma cniRecorded_iff (h : SameFacts c c') : CniRecorded c' ↔ CniRecorded c := by
  have hids : ∀ c : Cluster, (∃ st ∈ c.status, st.clusterId = some (c.spec.network.index + 1) ∧
      st.cilium.isSome = true) ↔ ∃ p ∈ c.status.map (fun st => (st.clusterId, st.cilium)),
        p.1 = some (c.spec.network.index + 1) ∧ p.2.isSome = true := by
    intro c
    cases hst : c.status <;> simp
  rw [CniRecorded, CniRecorded, hids, hids, h.datapath, h.network, h.ids]

end SameFacts

lemma sameFacts_podCidrs {c c' : Cluster} {cidrs : String → Option String}
    (h : withPodCidrs c cidrs = .ok c') : SameFacts c c' := by
  obtain ⟨nodes, -, rfl⟩ := withPodCidrs_eq_ok.mp h
  exact ⟨rfl, rfl, rfl⟩

lemma sameFacts_completed (c : Cluster) (phase : String) (time : ℕ) :
    SameFacts c (recordCompleted c phase time) := by
  refine ⟨rfl, rfl, ?_⟩
  rw [recordCompleted, Option.map_map]
  rfl

/-- **The last command of the install phase writes the record.** -/
lemma cniRecorded_recordCni {c : Cluster} {datapath : ResolvedDatapath} {cilium : String}
    (h : c.status.isSome = true) : CniRecorded (recordCni c datapath cilium) := by
  obtain ⟨st, hst⟩ := Option.isSome_iff_exists.mp h
  refine ⟨rfl, { st with clusterId := some (c.spec.network.index + 1), cilium := some cilium },
    ?_, rfl, rfl⟩
  rw [recordCni, hst]
  rfl

/-! ### The claim and its condition -/

/-- A create, with what cilium does in it. -/
def CiliumStep (e : Env) (t : Trace.Transition (Site (Kube V)) (Invocation V × Cilium V)) : Prop :=
  CreateStep e ⟨t.source, t.label.1.withCilium t.label.2, t.target⟩

/-- When the cluster becomes Ready, `cluster.yaml` has the record, and it can federate if it has a
mesh address. -/
def ReadyFederates (t : Trace.Transition (Site (Kube V)) (Invocation V × Cilium V)) : Prop :=
  (∃ c ∈ t.target.file, c.Ready) → ∃ c ∈ t.target.file, CniRecorded c ∧
    (c.spec.network.mesh.isSome = true → canFederate c = true)

/-- A create that gets to Ready and finds cilium installed finds the record, too. -/
def FindsRecord (t : Trace.Transition (Site (Kube V)) (Invocation V × Cilium V)) : Prop :=
  (∃ c ∈ t.target.file, c.Ready) →
    t.source.other.daemonSet = true ∧ t.source.other.pool = true →
      ∃ c ∈ t.source.file, CniRecorded c

/-! ### What the other phases keep -/

variable {i : Invocation V} {o : Cilium V} {rest : Rest V} {s : Site (Kube V)}
  {j₀ j m : Job (Kube V)}

/-- The cilium objects and the facts of the cni phase as they were. -/
structure Untouched (c : Cluster) (daemonSet pool : Bool) (j : Job (Kube V)) : Prop where
  facts : SameFacts c j.cluster
  daemonSet : j.site.other.daemonSet = daemonSet
  pool : j.site.other.pool = pool

/-- The commands of any other phase leave the cilium objects alone. -/
lemma spec_script_withCilium {inv : Job (Kube V) → Prop} {full : String}
    (hne : full ≠ "cni/install")
    (hinv : ∀ j v, inv j →
      inv { j with site := { j.site with other := { j.site.other with other := v } } }) :
    Script.Spec inv ((rest.withCilium o).script full) inv inv := by
  refine Script.Spec.ask fun j hj => ?_
  have hact : (rest.withCilium o).act full j.cluster =
      Script.within (fun w => w.other) (fun v w => { w with other := v })
        (rest.act full j.cluster) := if_neg hne
  rw [hact, Script.within_within]
  refine Script.Spec.within (fun _ => rfl) fun s v hs => ?_
  have hs' := hinv s v (hs ▸ hj)
  exact ⟨hs', hs'⟩

section Untouched

variable {c : Cluster} {daemonSet pool : Bool}

lemma untouched_script {full : String} (hne : full ≠ "cni/install") :
    Script.Spec (Untouched (V := V) c daemonSet pool) ((rest.withCilium o).script full)
      (Untouched c daemonSet pool) (Untouched c daemonSet pool) :=
  spec_script_withCilium hne fun _ _ h => ⟨h.facts, h.daemonSet, h.pool⟩

lemma untouched_save {j : Job (Kube V)} {c' : Cluster} (hc : SameFacts j.cluster c')
    (h : Untouched c daemonSet pool j) : Untouched c daemonSet pool (j.save c') :=
  ⟨h.facts.trans hc, h.daemonSet, h.pool⟩

lemma untouched_record {full : String} :
    Script.Spec (Untouched (V := V) c daemonSet pool) (recordPhase (rest.withCilium o) full)
      (Untouched c daemonSet pool) (Untouched c daemonSet pool) := by
  refine spec_recordPhase fun time j c' hc h => untouched_save ?_ h
  exact Except.ok.inj hc ▸ sameFacts_completed ..

/-- The phases before and after the install phase. -/
lemma createPhases_split_install (e : Env) (rest : Rest V) (o : Cilium V) : ∃ before after,
    leavesOf "" (createPhases e (rest.withCilium o)) =
        before ++ ("cni/install", installPhase (rest.withCilium o)) :: after ∧
      ∀ c daemonSet pool, ∀ l ∈ before ++ after, Script.Spec (Untouched (V := V) c daemonSet pool)
        l.2.run (Untouched c daemonSet pool) (Untouched c daemonSet pool) := by
  refine ⟨[_, _, _, _, _, _, _, _, _, _, _], [_, _, _, _, _, _], rfl, fun c daemonSet pool => ?_⟩
  have hscript : ∀ full, full ≠ "cni/install" → Script.Spec (Untouched (V := V) c daemonSet pool)
      ((rest.withCilium o).script full) (Untouched c daemonSet pool) (Untouched c daemonSet pool) :=
    fun _ hne => untouched_script hne
  have hwrite : KeepsWrite e (Untouched (V := V) c daemonSet pool) := fun _ _ _ _ _ h =>
    ⟨fun _ _ => ⟨h.facts, h.daemonSet, h.pool⟩, h.facts, h.daemonSet, h.pool⟩
  have hstart : KeepsStart (Untouched (V := V) c daemonSet pool) := fun _ _ h =>
    ⟨⟨h.facts, h.daemonSet, h.pool⟩, h.facts, h.daemonSet, h.pool⟩
  simp only [List.cons_append, List.nil_append, List.forall_mem_cons, List.not_mem_nil,
    false_imp_iff, implies_true, and_true]
  refine ⟨hscript _ (by decide), spec_planRun fun j => untouched_save (SameFacts.refl _),
    hscript _ (by decide), spec_unitsRun (hscript _ (by decide)) hwrite, hscript _ (by decide),
    spec_upRun (hscript _ (by decide)) hstart, hscript _ (by decide), hscript _ (by decide),
    hscript _ (by decide), hscript _ (by decide), hscript _ (by decide), hscript _ (by decide),
    spec_hostRoutesRun (hscript _ (by decide)) (fun _ j c' hc => untouched_save ?_) hstart,
    hscript _ (by decide), hscript _ (by decide), hscript _ (by decide), hscript _ (by decide)⟩
  exact sameFacts_podCidrs hc

lemma untouched_visits {ls : List (String × Leaf (Job (Kube V)))}
    (h : ∀ l ∈ ls, Script.Spec (Untouched (V := V) c daemonSet pool) l.2.run
      (Untouched c daemonSet pool) (Untouched c daemonSet pool)) :
    Script.Spec (Untouched (V := V) c daemonSet pool)
      (((i.withCilium o).runner e).visits ls) (Untouched c daemonSet pool)
      (Untouched c daemonSet pool) :=
  Runner.spec_visits (fun _ _ h => ⟨h.facts, h.daemonSet, h.pool⟩) h fun _ => untouched_record

end Untouched

/-! ### The install phase -/

/-- **The install phase leaves the record behind, unless it is found done.** -/
lemma cniRecorded_of_install (hplain : (i.withCilium o).Plain)
    (hstatus : j.cluster.status.isSome = true)
    (h : (((i.withCilium o).runner e).visit
      ("cni/install", installPhase (i.rest.withCilium o))).Ends j m) :
    CniRecorded m.cluster ↔
      (j.site.other.daemonSet = true ∧ j.site.other.pool = true → CniRecorded j.cluster) := by
  have hdone : (installPhase (i.rest.withCilium o)).isDone j =
      (j.site.other.daemonSet && j.site.other.pool) := rfl
  rcases Runner.ends_visit hplain.skip hplain.dryRun h with ⟨hd, rfl⟩ | ⟨hpending, u, hrun, -, hrecord⟩
  · rw [hdone, Bool.and_eq_true] at hd
    exact ⟨fun h _ => h, fun h => h hd⟩
  · have hmissing : ¬ (j.site.other.daemonSet = true ∧ j.site.other.pool = true) := by
      rw [← Bool.and_eq_true, ← hdone, hpending]
      simp
    refine iff_of_true ?_ fun h => absurd h hmissing
    -- whatever the commands before it do, the record is made of the same cluster
    have hcluster : Script.Spec (fun j' : Job (Kube V) => j'.cluster = j.cluster)
        ((i.rest.withCilium o).script "cni/install") (fun j' => j'.cluster = j.cluster)
        (fun j' => j'.cluster = j.cluster) := Rest.spec_script fun _ _ h => h
    obtain ⟨k, hk, hu⟩ := Script.ends_seq.mp hrun
    rw [Script.ends_command] at hu
    have hsaid : (((i.withCilium o).runner e).say "cni/install" j).cluster = j.cluster := rfl
    have hkc : k.cluster = j.cluster := hcluster.ends hsaid hk
    have hrec : CniRecorded u.cluster := by
      rw [hu]
      exact cniRecorded_recordCni (by rw [hkc]; exact hstatus)
    have hkeep : Script.Spec (fun j' : Job (Kube V) => CniRecorded j'.cluster)
        (recordPhase (i.rest.withCilium o) "cni/install") (fun j' => CniRecorded j'.cluster)
        (fun j' => CniRecorded j'.cluster) := by
      refine spec_recordPhase fun time j' c' hc h => ?_
      rw [← Except.ok.inj hc]
      exact (sameFacts_completed ..).cniRecorded_iff.mpr h
    exact hkeep.ends hrec hrecord

/-- What a create that runs every phase leaves behind. -/
lemma cniRecorded_of_run (hplain : (i.withCilium o).Plain)
    (hstatus : j₀.cluster.status.isSome = true)
    (h : ((i.withCilium o).runner e).run.Ends j₀ m) :
    CniRecorded m.cluster ↔ (j₀.site.other.daemonSet = true ∧ j₀.site.other.pool = true →
      CniRecorded j₀.cluster) := by
  obtain ⟨before, after, hsplit, hkeep⟩ :=
    createPhases_split_install e i.rest o
  have hsel : ((i.withCilium o).runner e).selected =
      .ok (leavesOf "" (createPhases e (i.rest.withCilium o))) := by
    simp only [Runner.selected, Invocation.runner, hplain.only, hplain.dryRun]
    rfl
  rw [Runner.run, hsel] at h
  change (Script.each _ ((i.withCilium o).runner e).visit).Ends j₀ m at h
  rw [hsplit, Script.ends_each_append] at h
  obtain ⟨m₁, hm₁, h⟩ := h
  rw [Script.each_cons, Script.ends_seq] at h
  obtain ⟨m₂, hm₂, h⟩ := h
  have h₁ : Untouched j₀.cluster j₀.site.other.daemonSet j₀.site.other.pool m₁ :=
    (untouched_visits fun l hl => hkeep _ _ _ l (List.mem_append_left _ hl)).ends
      ⟨SameFacts.refl _, rfl, rfl⟩ hm₁
  have h₂ := cniRecorded_of_install hplain (h₁.facts.isSome.trans hstatus) hm₂
  have h₃ : Untouched m₂.cluster m₂.site.other.daemonSet m₂.site.other.pool m :=
    (untouched_visits fun l hl => hkeep _ _ _ l (List.mem_append_right _ hl)).ends
      ⟨SameFacts.refl _, rfl, rfl⟩ h
  rw [h₃.facts.cniRecorded_iff, h₂, h₁.daemonSet, h₁.pool, h₁.facts.cniRecorded_iff]

/-! ### The exact condition -/

/-- A create starts with the record of the file it resumes. -/
lemma cniRecorded_of_start (h : (i.withCilium o).start s = .ok j₀) :
    j₀.cluster.status.isSome = true ∧
      (CniRecorded j₀.cluster ↔ ∃ c ∈ s.file, CniRecorded c) := by
  simp only [Invocation.start, Checked.bind_eq_ok, Checked.refuseIf_eq_ok, Checked.pure_eq_ok] at h
  obtain ⟨-, hsome, -, -, c, hc, rfl⟩ := h
  obtain ⟨index, t, hres, rfl⟩ := resolve_eq_ok.mp hc
  have hindex := (index_of_topology hres.built).1
  cases hf : s.file with
  | none => simp [statusOf, CniRecorded, specOf]
  | some c₀ =>
      have hst : c₀.status ≠ none := fun hnone => hsome ⟨c₀, hf, hnone⟩
      have hpick := hres.picked
      rw [hf, pickIndex, Except.ok.injEq] at hpick
      refine ⟨by simpa [statusOf, Option.isSome_iff_ne_none] using hst, ?_⟩
      have hnet : t.net.index = c₀.spec.network.index := hindex.trans hpick.symm
      simp [CniRecorded, statusOf, specOf, hnet]

/-- One create: the record is there at Ready exactly when cilium was not found installed without
it. -/
lemma readyFederates_iff {t : Trace.Transition (Site (Kube V)) (Invocation V × Cilium V)}
    (ht : CiliumStep e t) : ReadyFederates t ↔ FindsRecord t := by
  obtain ⟨j₀, j, hstart, hreach, htarget⟩ := ht
  refine forall_congr' fun hready => ?_
  change t.target = j.site at htarget
  rw [htarget] at hready ⊢
  obtain ⟨hplain, m, st, hm, hst, rfl⟩ := ready_cases hstart hreach hready
  obtain ⟨hstatus, hrec⟩ := cniRecorded_of_start hstart
  have hsite : j₀.site = t.source := (not_ready_of_start hstart).1
  have hmarked : SameFacts m.cluster (m.cluster.withStatus { st with phase := .ready }) :=
    ⟨rfl, rfl, by simp [Cluster.withStatus, hst]⟩
  have hrun := cniRecorded_of_run hplain hstatus hm
  rw [hsite, hrec, ← hmarked.cniRecorded_iff] at hrun
  rw [← hrun]
  constructor
  · rintro ⟨c, hc, hcni, -⟩
    exact Option.some_inj.mp (Option.mem_def.mp hc) ▸ hcni
  · intro hcni
    exact ⟨_, rfl, hcni, canFederate_of_cniRecorded hcni⟩

/-- **In every run of creates, a cluster can federate when it becomes Ready exactly when each create
that finishes and finds cilium installed finds the record, too.** -/
theorem federates_iff {ts : List (Trace.Transition (Site (Kube V)) (Invocation V × Cilium V))}
    {s₀ : Site (Kube V)} (run : Trace.Run (CiliumStep e) s₀ ts s) :
    (∀ t ∈ ts, ReadyFederates t) ↔ ∀ t ∈ ts, FindsRecord t :=
  run.good_iff_safe (I := fun _ => True) trivial (fun _ _ _ _ => trivial)
    fun _ ht _ => readyFederates_iff ht

/-! ### A GatewayClass that is accepted late -/

/-- Every command succeeds, but for the wait for the GatewayClass. -/
def lateGateway (accepted : Bool) : Cilium Unit where
  prepared _ := true
  leavesDaemonSet _ := true
  installed _ := true
  ready _ := true
  applied _ := true
  accepted _ := accepted
  act := id

/-- Nothing was created yet. -/
def bareKube : Site (Kube Unit) := ⟨none, fun _ => {}, ⟨false, false, ()⟩⟩

/-- The states a create of one node passes through. -/
def createdLate (accepted : Bool) (s : Site (Kube Unit)) :
    Except Raised (List (Job (Kube Unit))) := do
  let i := (createDev [] []).withCilium (lateGateway accepted)
  let j₀ ← i.start s
  return (i.script someEnv j₀).passed

lemma createdLate_step {accepted : Bool} {s : Site (Kube Unit)} {l : List (Job (Kube Unit))}
    {j : Job (Kube Unit)} (h : createdLate accepted s = .ok l) (hj : j ∈ l) :
    CiliumStep someEnv ⟨s, (createDev [] [], lateGateway accepted), j.site⟩ := by
  simp only [createdLate, Checked.bind_eq_ok, Checked.pure_eq_ok] at h
  obtain ⟨j₀, hstart, rfl⟩ := h
  exact ⟨j₀, j, hstart, Or.inr hj, rfl⟩

/-- A create without a stop: the cluster can federate. -/
theorem federates_fresh :
    ∃ (ts : List (Trace.Transition (Site (Kube Unit)) (Invocation Unit × Cilium Unit)))
      (s : Site (Kube Unit)), Trace.Run (CiliumStep someEnv) bareKube ts s ∧
        (∃ c ∈ s.file, c.Ready) ∧ ∀ t ∈ ts, ReadyFederates t := by
  have hrun : (do
      let passed ← createdLate true bareKube
      let j ← Checked.ofOption .assertionError passed.getLast?
      return j.site.file.any fun c => c.status.any fun st => st.phase = .ready :
        Except Raised Bool) = .ok true := by
    decide +kernel
  simp only [Checked.bind_eq_ok, Checked.ofOption_eq_ok, Checked.pure_eq_ok, Option.any_eq_true,
    decide_eq_true_eq] at hrun
  obtain ⟨passed, hpassed, j, hlast, hready⟩ := hrun
  have run := Trace.Run.nil.snoc (createdLate_step hpassed (List.mem_of_getLast? hlast))
  refine ⟨_, _, run, hready, (federates_iff run).mpr fun t ht _ hfound => ?_⟩
  rw [List.nil_append, List.mem_singleton] at ht
  -- no cilium on a bare site
  rw [ht] at hfound
  exact absurd hfound.1 (by simp [bareKube])

/-- A create that fails while it waits for the GatewayClass, and its resume: the cluster is Ready
without the record. -/
theorem not_federates_resumed :
    ∃ (ts : List (Trace.Transition (Site (Kube Unit)) (Invocation Unit × Cilium Unit)))
      (s : Site (Kube Unit)), Trace.Run (CiliumStep someEnv) bareKube ts s ∧
        ¬ ∀ t ∈ ts, ReadyFederates t := by
  have hrun : (do
      let passed ← createdLate false bareKube
      let j ← Checked.ofOption .assertionError passed.getLast?
      let resumed ← createdLate true j.site
      let k ← Checked.ofOption .assertionError resumed.getLast?
      let c ← Checked.ofOption .assertionError k.site.file
      return (c.status.any fun st => st.phase = .ready) && c.spec.datapathResolved.isNone :
        Except Raised Bool) = .ok true := by
    decide +kernel
  simp only [Checked.bind_eq_ok, Checked.ofOption_eq_ok, Checked.pure_eq_ok, Bool.and_eq_true,
    Option.any_eq_true, decide_eq_true_eq] at hrun
  obtain ⟨passed, hpassed, j, hj, resumed, hresumed, k, hk, c, hc, hready, hnone⟩ := hrun
  have hfirst := createdLate_step hpassed (List.mem_of_getLast? hj)
  have hsecond := createdLate_step hresumed (List.mem_of_getLast? hk)
  refine ⟨_, _, (Trace.Run.nil.snoc hfirst).snoc hsecond, fun h => ?_⟩
  obtain ⟨c', hc', hrec, -⟩ := h _ (List.mem_append_right _ (List.mem_singleton_self _))
    ⟨c, hc, hready⟩
  obtain rfl := Option.some_inj.mp (hc.symm.trans hc')
  rw [Option.isNone_iff_eq_none] at hnone
  have hsome := hrec.1
  simp [hnone] at hsome

end Tk8s
