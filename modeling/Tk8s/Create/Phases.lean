import Tk8s.Site

/-!
`create/__init__.py` and `cmd_create`: the phases of a create, in the order they run.

* `Rest`: what the commands of the phases answer and do beyond `cluster.yaml`, the container units
  and the containers; any behaviour at all.
* `planPhase`, `unitsPhase`, `upPhase`, `installPhase`, `hostRoutesPhase`: the phases that write one
  of these.
* `createPhases`, `dryRunPhases`: the two lists of phases.
* `Invocation`, `Invocation.script`: one `tkctl create cluster` run.
-/

namespace Tk8s

variable {W : Type}

/-! ### The rest of the world -/

/-- What is left open of the phases: the answers of their `done`, what their commands do to the rest
of the hosts, and what Kubernetes and the clock say. -/
structure Rest (W : Type) where
  done : String → Cluster → W → Bool
  act : String → Cluster → Script W
  datapath : W → ResolvedDatapath
  cilium : String
  cidrs : W → String → Option String
  now : W → ℕ

namespace Rest

/-- The commands of a phase on the rest of the hosts. -/
def script (rest : Rest W) (full : String) : Script (Job W) :=
  Script.ask fun j => Script.within (fun j => j.site.other)
    (fun o j => { j with site := { j.site with other := o } }) (rest.act full j.cluster)

def isDone (rest : Rest W) (full : String) (j : Job W) : Bool := rest.done full j.cluster j.site.other

/-- A phase that works on the rest of the hosts only. -/
def leaf (rest : Rest W) (full : String) : Leaf (Job W) where
  done := some (rest.isDone full)
  run := rest.script full

end Rest

/-! ### plan -/

/-- The file on the host holds this very spec. -/
def planDone (j : Job W) : Bool := j.site.file.any fun c => c.spec = j.cluster.spec

def planPhase : Leaf (Job W) where
  done := some planDone
  run := Script.command fun j => j.save j.cluster

/-! ### units -/

/-- Every container unit is on its machine with exactly this content. -/
def unitsCurrent (e : Env) (j : Job W) : Bool :=
  match unitFiles e j.cluster with
  | .error _ => false
  | .ok l => l.all fun hf =>
      (j.site.machine hf.machine).wants = hf.units.map (·.1) &&
        hf.units.all fun u => (j.site.machine hf.machine).units u.1 = some u.2

/-- The container units of one host, then its target. -/
def writeHost (hf : HostFiles) : Script (Job W) :=
  Script.seq
    (Script.each hf.units fun u =>
      Script.command fun j => j.onMachine hf.machine fun m => m.writeUnit u.1 u.2)
    (Script.command fun j => j.onMachine hf.machine fun m => m.writeTarget (hf.units.map (·.1)))

/-- Every host's files; what the other files, links and stale links need is left open. -/
def unitsRun (e : Env) (rest : Rest W) : Script (Job W) :=
  Script.ask fun j =>
    match unitFiles e j.cluster with
    | .error _ => Script.fail
    | .ok l => Script.seq (Script.each l writeHost) (rest.script "units")

def unitsPhase (e : Env) (rest : Rest W) : Leaf (Job W) where
  done := some fun j => unitsCurrent e j && rest.isDone "units" j
  run := unitsRun e rest

/-- units finds, or leaves, every unit as the cluster renders it. -/
lemma unitsCurrent_renders {e : Env} {j : Job W} (h : unitsCurrent e j = true) {id : MachineId} {stem text : String}
    (hr : Renders e j.cluster id stem text) : (j.site.machine id).units stem = some text := by
  obtain ⟨l, hl, hf, hhf, rfl, hmem⟩ := hr
  simp only [unitsCurrent, hl, List.all_eq_true, Bool.and_eq_true, decide_eq_true_eq] at h
  exact (h hf hhf).2 _ hmem

/-! ### nodes/up -/

/-- The machines that run a target. -/
def targetMachines (c : Cluster) : List MachineId := (perHost c).map (·.2)

/-- A node runs, by its container. -/
def nodeRuns (j : Job W) (n : Node) : Bool :=
  (machineOf j.cluster n.host).any fun id => ((j.site.machine id).started n.name.text).isSome

/-- Every target is active and every node answers. -/
def upDone (rest : Rest W) (j : Job W) : Bool :=
  (targetMachines j.cluster).all (fun id => (j.site.machine id).active) &&
    j.cluster.spec.nodes.all (nodeRuns j) && rest.isDone "nodes/up" j

/-- `_start_on`: systemd reads the units, then starts the target. -/
def startOn (id : MachineId) : Script (Job W) :=
  Script.seq (Script.command fun j => j.onMachine id Machine.reload)
    (Script.command fun j => j.onMachine id Machine.startTarget)

def upRun (rest : Rest W) : Script (Job W) :=
  Script.ask fun j =>
    Script.seq (Script.each (targetMachines j.cluster) startOn) (rest.script "nodes/up")

def upPhase (rest : Rest W) : Leaf (Job W) where
  done := some (upDone rest)
  run := upRun rest

/-! ### cni -/

def installPhase (rest : Rest W) : Leaf (Job W) where
  done := some (rest.isDone "cni/install")
  run := Script.seq (rest.script "cni/install") <|
    Script.command fun j =>
      j.save (recordCni j.cluster (rest.datapath j.site.other) rest.cilium)

/-- A joined node that Kubernetes has registered without a pod CIDR. -/
def cidrMissing (c : Cluster) (cidrs : String → Option String) : Bool :=
  c.spec.nodes.any fun n => n.join && cidrs n.name.text = some ""

/-- The pod CIDRs are recorded, the routes unit is written and systemd on the operator reads its
units. -/
def hostRoutesRun (rest : Rest W) : Script (Job W) :=
  Script.ask fun j =>
    if cidrMissing j.cluster (rest.cidrs j.site.other) then Script.fail
    else match withPodCidrs j.cluster (rest.cidrs j.site.other) with
    | .error _ => Script.fail
    | .ok c =>
        Script.seq (Script.command fun j => j.save c) <|
          Script.seq (Script.command fun j => j.onMachine none Machine.reload)
            (rest.script "cni/host-routes")

def hostRoutesPhase (rest : Rest W) : Leaf (Job W) where
  done := some (rest.isDone "cni/host-routes")
  run := hostRoutesRun rest

/-! ### The phases -/

/-- `preflight` has no completion state: it is checked every time. -/
def preflightPhase (rest : Rest W) : Leaf (Job W) where
  done := none
  run := rest.script "preflight"

/-- `PHASES`. -/
def createPhases (e : Env) (rest : Rest W) : List (Phase (Job W)) :=
  [.leaf "preflight" (preflightPhase rest),
   .leaf "plan" planPhase,
   .leaf "images" (rest.leaf "images"),
   .leaf "units" (unitsPhase e rest),
   .group "nodes"
    [.leaf "cni-plugins" (rest.leaf "nodes/cni-plugins"), .leaf "up" (upPhase rest)],
   .group "kubeadm"
    [.leaf "render" (rest.leaf "kubeadm/render"), .leaf "frr" (rest.leaf "kubeadm/frr"),
     .leaf "init" (rest.leaf "kubeadm/init"), .leaf "kubeconfig" (rest.leaf "kubeadm/kubeconfig"),
     .leaf "join" (rest.leaf "kubeadm/join")],
   .group "cni"
    [.leaf "install" (installPhase rest), .leaf "nodes-ready" (rest.leaf "cni/nodes-ready"),
     .leaf "host-routes" (hostRoutesPhase rest)],
   .group "addons"
    [.leaf "runtimeclass" (rest.leaf "addons/runtimeclass"),
     .leaf "gvisor" (rest.leaf "addons/gvisor"),
     .leaf "metrics-server" (rest.leaf "addons/metrics-server"),
     .leaf "local-path" (rest.leaf "addons/local-path")]]

/-- A phase under `--dry-run`: every question is answered "nothing there", every command and file
printed. -/
def printed : Leaf (Job W) where
  done := some fun _ => false
  run := Script.skip

/-- `DRY_RUN_PHASES`. -/
def dryRunPhases : List (Phase (Job W)) :=
  [.leaf "plan" printed, .leaf "units" printed, .group "kubeadm" [.leaf "render" printed]]

/-! ### One create -/

/-- `_record`, once plan has written the file. -/
def recordPhase (rest : Rest W) (full : String) : Script (Job W) :=
  Script.onlyIf (fun j => j.cluster.status.isSome && j.site.file.isSome) <|
    Script.command fun j => j.save (recordCompleted j.cluster full (rest.now j.site.other))

/-- A `tkctl create cluster` command line, with what the hosts answer on the way. -/
structure Invocation (W : Type) where
  user : UserCluster
  facts : Facts
  rest : Rest W
  only : Option String := none
  skip : List String := []
  dryRun : Bool := false

namespace Invocation

/-- The runner of this create. -/
def runner (i : Invocation W) (e : Env) : Runner (Job W) where
  phases := if i.dryRun then dryRunPhases else createPhases e i.rest
  only := i.only
  skip := i.skip
  dryRun := i.dryRun
  say full j := { j with ran := j.ran ++ [full] }
  record := recordPhase i.rest

/-- What comes after the phases: a cluster that ran them all is marked Ready. -/
def finish (i : Invocation W) : Script (Job W) :=
  if i.dryRun = true ∨ i.only ≠ none ∨ i.skip ≠ [] then Script.skip
  else Script.ask fun j =>
    match j.cluster.status with
    | some st =>
        if st.phase ≠ .ready then
          Script.command fun j => j.save (j.cluster.withStatus { st with phase := .ready })
        else Script.skip
    | none => Script.skip

/-- What a create starts from: an interrupted create is resumed, a finished one is left alone. -/
def start (i : Invocation W) (s : Site W) : Except Raised (Job W) := do
  let name := i.user.metadata.name.text
  Checked.refuseIf (∃ c ∈ s.file, c.status = none)
    (.usageError (s!"cluster {name} has a cluster.yaml without status (created by an older tk8s); "
      ++ s!"delete it first: tkctl delete cluster {name}"))
  Checked.refuseIf (∃ c ∈ s.file, ∃ st ∈ c.status, st.phase = .ready)
    (.usageError s!"cluster {name} already exists; delete it first or pick another name")
  let c ← resolve i.user s.file i.facts
  return { cluster := c, site := s }

/-- The phases, then the end. -/
def script (i : Invocation W) (e : Env) : Script (Job W) := Script.seq (i.runner e).run i.finish

end Invocation

/-! ### What the phases keep -/

section Keeps

variable {e : Env} {rest : Rest W} {inv : Job W → Prop}

/-- Kept by whatever happens to the rest of the hosts. -/
def KeepsOther (inv : Job W → Prop) : Prop :=
  ∀ j o, inv j → inv { j with site := { j.site with other := o } }

/-- Kept by saving what create records. -/
def KeepsSave (inv : Job W → Prop) : Prop :=
  ∀ j c, OnlyRecorded j.cluster c → inv j → inv (j.save c)

/-- Kept by saving one of the recordings. -/
def KeepsRecording (r : Recording) (inv : Job W → Prop) : Prop :=
  ∀ j c, r.apply j.cluster = .ok c → inv j → inv (j.save c)

/-- Kept by saving the cluster as it is. -/
lemma KeepsSave.same (h : KeepsSave inv) : ∀ j, inv j → inv (j.save j.cluster) :=
  fun j => h j _ (OnlyRecorded.refl _)

lemma KeepsSave.recording (h : KeepsSave inv) (r : Recording) : KeepsRecording r inv :=
  fun j c hc hj => h j c (Recording.apply_onlyRecorded hc) hj

/-- Kept by writing what the cluster renders. -/
def KeepsWrite (e : Env) (inv : Job W → Prop) : Prop :=
  ∀ j l, unitFiles e j.cluster = .ok l → ∀ hf ∈ l, inv j →
    (∀ u ∈ hf.units, inv (j.onMachine hf.machine fun m => m.writeUnit u.1 u.2)) ∧
      inv (j.onMachine hf.machine fun m => m.writeTarget (hf.units.map (·.1)))

/-- Kept when systemd on a machine reads the units, and starts the target then. -/
def KeepsStart (inv : Job W → Prop) : Prop :=
  ∀ j id, inv j → inv (j.onMachine id Machine.reload) ∧
    inv ((j.onMachine id Machine.reload).onMachine id Machine.startTarget)

lemma Rest.spec_script {full : String} (hother : KeepsOther inv) :
    Script.Spec inv (rest.script full) inv inv := by
  refine Script.Spec.ask fun j hj => Script.Spec.within (fun _ => rfl) ?_
  intro s o hs
  have hs' := hother s o (hs ▸ hj)
  exact ⟨hs', hs'⟩

lemma spec_planRun (hsave : ∀ j, inv j → inv (j.save j.cluster)) :
    Script.Spec inv (planPhase (W := W)).run inv inv :=
  Script.Spec.command fun j hj => ⟨hj, hsave j hj, hsave j hj⟩

lemma spec_writeHost {c : Cluster} {l : List HostFiles} {hf : HostFiles} (hwrite : KeepsWrite e inv)
    (hl : unitFiles e c = .ok l) (hhf : hf ∈ l) :
    Script.Spec (fun j : Job W => inv j ∧ j.cluster = c) (writeHost hf)
      (fun j => inv j ∧ j.cluster = c) (fun j => inv j ∧ j.cluster = c) := by
  refine Script.Spec.seq (Script.Spec.each_keeps fun u hu => ?_) ?_
  · refine Script.Spec.command fun j hj => ?_
    have hj' := (hwrite j l (hj.2 ▸ hl) hf hhf hj.1).1 u hu
    exact ⟨hj, ⟨hj', hj.2⟩, hj', hj.2⟩
  · refine Script.Spec.command fun j hj => ?_
    have hj' := (hwrite j l (hj.2 ▸ hl) hf hhf hj.1).2
    exact ⟨hj, ⟨hj', hj.2⟩, hj', hj.2⟩

lemma spec_unitsRun (hscript : Script.Spec inv (rest.script "units") inv inv)
    (hwrite : KeepsWrite e inv) :
    Script.Spec inv (unitsRun e rest) inv inv := by
  refine Script.Spec.ask fun j hj => ?_
  cases hl : unitFiles e j.cluster with
  | error err => exact Script.Spec.fail fun s hs => hs ▸ hj
  | ok l =>
      have hloop : Script.Spec (fun j' : Job W => inv j' ∧ j'.cluster = j.cluster)
          (Script.each l writeHost) (fun j' => inv j' ∧ j'.cluster = j.cluster)
          (fun j' => inv j' ∧ j'.cluster = j.cluster) :=
        Script.Spec.each_keeps fun hf hhf => spec_writeHost hwrite hl hhf
      refine Script.Spec.seq (hloop.weaken ?_ (fun _ h => h.1) (fun _ h => h.1)) hscript
      rintro _ rfl
      exact ⟨hj, rfl⟩

lemma spec_startOn {id : MachineId} (hstart : KeepsStart inv) :
    Script.Spec inv (startOn id) inv inv where
  stops {s t} hs ht := by
    rw [startOn, Script.reaches_seq] at ht
    simp only [Script.reaches_command, Script.ends_command, exists_eq_left] at ht
    obtain (rfl | rfl) | rfl | rfl := ht
    · exact hs
    · exact (hstart _ id hs).1
    · exact (hstart _ id hs).1
    · exact (hstart _ id hs).2
  ends {s t} hs ht := by
    rw [startOn, Script.ends_seq] at ht
    simp only [Script.ends_command, exists_eq_left] at ht
    exact ht ▸ (hstart _ id hs).2

lemma spec_upRun (hscript : Script.Spec inv (rest.script "nodes/up") inv inv)
    (hstart : KeepsStart inv) :
    Script.Spec inv (upRun rest) inv inv := by
  rw [upRun]
  refine Script.Spec.ask fun j hj => ?_
  have hloop : Script.Spec inv (Script.each (targetMachines j.cluster) startOn) inv inv :=
    Script.Spec.each_keeps fun _ _ => spec_startOn hstart
  refine Script.Spec.seq (hloop.weaken ?_ (fun _ h => h) fun _ h => h) hscript
  rintro _ rfl
  exact hj

lemma spec_installRun (hscript : Script.Spec inv (rest.script "cni/install") inv inv)
    (hsave : ∀ datapath cilium, KeepsRecording (.cni datapath cilium) inv) :
    Script.Spec inv (installPhase rest).run inv inv := by
  refine Script.Spec.seq hscript (Script.Spec.command fun j hj => ?_)
  have hj' := hsave (rest.datapath j.site.other) rest.cilium j _ rfl hj
  exact ⟨hj, hj', hj'⟩

lemma spec_hostRoutesRun (hscript : Script.Spec inv (rest.script "cni/host-routes") inv inv)
    (hsave : ∀ cidrs, KeepsRecording (.podCidrs cidrs) inv) (hstart : KeepsStart inv) :
    Script.Spec inv (hostRoutesRun rest) inv inv := by
  rw [hostRoutesRun]
  refine Script.Spec.ask fun j hj => ?_
  by_cases hmiss : cidrMissing j.cluster (rest.cidrs j.site.other) = true
  · rw [if_pos hmiss]
    exact Script.Spec.fail fun s hs => hs ▸ hj
  rw [if_neg hmiss]
  cases hc : withPodCidrs j.cluster (rest.cidrs j.site.other) with
  | error err => exact Script.Spec.fail fun s hs => hs ▸ hj
  | ok c =>
      have hj' := hsave (rest.cidrs j.site.other) j c hc hj
      have hsaved : Script.Spec (fun t => t = j) (Script.command fun j => j.save c) inv inv := by
        refine Script.Spec.command ?_
        rintro _ rfl
        exact ⟨hj, hj', hj'⟩
      have hread : Script.Spec inv
          (Script.command fun j : Job W => j.onMachine none Machine.reload) inv inv :=
        Script.Spec.command fun j hj => ⟨hj, (hstart j none hj).1, (hstart j none hj).1⟩
      exact hsaved.seq (hread.seq hscript)

/-- A property of every kind of leaf holds for every phase. -/
lemma forall_createPhases {P : Leaf (Job W) → Prop} (hrest : ∀ full, P (rest.leaf full))
    (hpreflight : P (preflightPhase rest)) (hplan : P planPhase) (hunits : P (unitsPhase e rest))
    (hup : P (upPhase rest)) (hinstall : P (installPhase rest))
    (hroutes : P (hostRoutesPhase rest)) : ∀ l ∈ leavesOf "" (createPhases e rest), P l.2 := by
  simp only [createPhases, leavesOf, Phase.leaves, List.append_nil, List.cons_append,
    List.nil_append, List.forall_mem_cons, List.not_mem_nil, false_imp_iff, implies_true, and_true]
  exact ⟨hpreflight, hplan, hrest _, hunits, hrest _, hup, hrest _, hrest _, hrest _, hrest _,
    hrest _, hinstall, hrest _, hroutes, hrest _, hrest _, hrest _, hrest _⟩

/-- **What every phase keeps.** -/
theorem spec_createPhases (hother : KeepsOther inv)
    (hsame : ∀ j, inv j → inv (j.save j.cluster)) (hrec : ∀ r, KeepsRecording r inv)
    (hwrite : KeepsWrite e inv) (hstart : KeepsStart inv) :
    ∀ l ∈ leavesOf "" (createPhases e rest), Script.Spec inv l.2.run inv inv := by
  have hscript : ∀ full, Script.Spec inv (rest.script full) inv inv :=
    fun _ => Rest.spec_script hother
  exact forall_createPhases (P := fun l => Script.Spec inv l.run inv inv) hscript (hscript _)
    (spec_planRun hsame) (spec_unitsRun (hscript _) hwrite) (spec_upRun (hscript _) hstart)
    (spec_installRun (hscript _) fun _ _ => hrec _)
    (spec_hostRoutesRun (hscript _) (fun _ => hrec _) hstart)

lemma spec_recordPhase {full : String}
    (hsave : ∀ time, KeepsRecording (.completed full time) inv) :
    Script.Spec inv (recordPhase rest full) inv inv := by
  refine Script.Spec.onlyIf (Script.Spec.command fun j hj => ?_) fun j hj _ => ⟨hj, hj⟩
  have hj' := hsave (rest.now j.site.other) j _ rfl hj.1
  exact ⟨hj.1, hj', hj'⟩

/-- **What a create keeps**, a dry run included. -/
theorem Invocation.spec_run {i : Invocation W} (hran : ∀ j ran, inv j → inv { j with ran := ran })
    (hother : KeepsOther inv) (hsame : ∀ j, inv j → inv (j.save j.cluster))
    (hrec : ∀ r, KeepsRecording r inv) (hwrite : KeepsWrite e inv) (hstart : KeepsStart inv) :
    Script.Spec inv (i.runner e).run inv inv := by
  have hleaf : ∀ l ∈ leavesOf "" (i.runner e).phases, Script.Spec inv l.2.run inv inv := by
    by_cases hdry : i.dryRun = true
    · have hprinted : Script.Spec inv (printed (W := W)).run inv inv :=
        Script.Spec.skip fun _ h => ⟨h, h⟩
      simp only [Invocation.runner, if_pos hdry, dryRunPhases, leavesOf, Phase.leaves,
        List.append_nil, List.cons_append, List.nil_append, List.forall_mem_cons,
        List.not_mem_nil, false_imp_iff, implies_true, and_true]
      exact ⟨hprinted, hprinted, hprinted⟩
    · simp only [Invocation.runner, if_neg hdry]
      exact spec_createPhases hother hsame hrec hwrite hstart
  rw [Runner.run]
  cases hsel : (i.runner e).selected with
  | error err => exact Script.Spec.fail fun _ h => h
  | ok ls =>
      exact Runner.spec_visits (fun full j h => hran j _ h)
        (fun l hl => hleaf l (Runner.mem_of_selected hsel l hl))
        fun _ => spec_recordPhase fun _ => hrec _

end Keeps

end Tk8s
