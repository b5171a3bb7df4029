import Tk8s.Plan.Resolve

/-!
What create writes into `cluster.yaml` beside the plan: `record_cni` and `with_pod_cidrs` of
`create/cni.py`, and the runner's `status.completed`.

* `recordCni`, `withPodCidrs`, `recordCompleted`: the three recordings; `Recording.apply` runs one
  of them, `recordAll` a sequence.
* `Spec.unrecorded`: a spec without the facts cni records. `unrecorded_recordAll`: **recording
  changes nothing else in the spec**.
* `recordAll_podCidr`: a node has a pod CIDR afterwards exactly when it had one or one was
  reported.
-/

namespace Tk8s

open Net

/-! ### The recordings -/

/-- cni records the datapath it resolved and, for Cluster Mesh, the cluster id and the Cilium
version it installed. -/
def recordCni (c : Cluster) (datapath : ResolvedDatapath) (cilium : String) : Cluster :=
  { c with
    spec := { c.spec with datapathResolved := some datapath }
    status := c.status.map fun st =>
      { st with clusterId := some (c.spec.network.index + 1), cilium := some cilium } }

/-- The node with the pod CIDR Kubernetes reports; only a prefix inside the pod subnet is
accepted. -/
def assignCidr (pods : IPv4Network) (cidrs : String → Option String) (n : Node) :
    Except Raised Node :=
  match (cidrs n.name.text).filter (· ≠ "") with
  | none => .ok n
  | some text => do
      let cidr ← Checked.ofOption (.phaseFailed s!"{n.name.text} reports pod CIDR '{text}'")
        (IPv4Network.parse text)
      Checked.refuseIf (cidr.subnetOf pods = false ∨ cidr = pods)
        (.phaseFailed s!"{n.name.text} reports pod CIDR {cidr.text} outside {pods.text}")
      return { n with podCidr := some cidr }

/-- `cluster.yaml`'s nodes with the pod CIDRs Kubernetes reports; a node it has not registered
keeps what it had. -/
def withPodCidrs (c : Cluster) (cidrs : String → Option String) : Except Raised Cluster := do
  let nodes ← c.spec.nodes.mapM (assignCidr c.spec.network.pods cidrs)
  return { c with spec := { c.spec with nodes := nodes } }

/-- `{**completed, phase: time}`. -/
def setCompleted (phase : String) (time : ℕ) : List (String × ℕ) → List (String × ℕ)
  | [] => [(phase, time)]
  | entry :: rest =>
      if entry.1 = phase then (phase, time) :: rest else entry :: setCompleted phase time rest

/-- The runner's note that a phase ran. -/
def recordCompleted (c : Cluster) (phase : String) (time : ℕ) : Cluster :=
  { c with status := c.status.map fun st =>
      { st with completed := setCompleted phase time st.completed } }

/-- A fact create records in `cluster.yaml`. -/
inductive Recording where
  | cni (datapath : ResolvedDatapath) (cilium : String)
  | podCidrs (cidrs : String → Option String)
  | completed (phase : String) (time : ℕ)

def Recording.apply (c : Cluster) : Recording → Except Raised Cluster
  | cni datapath cilium => .ok (recordCni c datapath cilium)
  | podCidrs cidrs => withPodCidrs c cidrs
  | completed phase time => .ok (recordCompleted c phase time)

def recordAll (c : Cluster) : List Recording → Except Raised Cluster
  | [] => .ok c
  | r :: rest => do
      let c ← r.apply c
      recordAll c rest

/-! ### What they leave alone -/

def Node.unrecorded (n : Node) : Node := { n with podCidr := none }

/-- The spec without what cni records: the resolved datapath and the nodes' pod CIDRs. -/
def Spec.unrecorded (s : Spec) : Spec :=
  { s with datapathResolved := none, nodes := s.nodes.map Node.unrecorded }

lemma assignCidr_unrecorded {pods : IPv4Network} {cidrs : String → Option String} {n n' : Node}
    (h : assignCidr pods cidrs n = .ok n') : n'.unrecorded = n.unrecorded := by
  unfold assignCidr at h
  split at h
  · rw [← Except.ok.inj h]
  · simp only [Checked.bind_eq_ok, Checked.exists_unit, Checked.pure_eq_ok] at h
    obtain ⟨cidr, -, -, rfl⟩ := h
    rfl

lemma withPodCidrs_eq_ok {c c' : Cluster} {cidrs : String → Option String} :
    withPodCidrs c cidrs = .ok c' ↔ ∃ nodes,
      List.Forall₂ (fun n n' => assignCidr c.spec.network.pods cidrs n = .ok n') c.spec.nodes nodes
        ∧ c' = { c with spec := { c.spec with nodes := nodes } } := by
  simp only [withPodCidrs, Checked.bind_eq_ok, Checked.pure_eq_ok, Checked.mapM_eq_ok,
    eq_comm (b := c')]

lemma assignAll_unrecorded {pods : IPv4Network} {cidrs : String → Option String}
    {l l' : List Node} (h : List.Forall₂ (fun n n' => assignCidr pods cidrs n = .ok n') l l') :
    l'.map Node.unrecorded = l.map Node.unrecorded := by
  induction h with
  | nil => rfl
  | cons hn _ ih => rw [List.map_cons, List.map_cons, assignCidr_unrecorded hn, ih]

/-- A recording touches the status and the recorded facts only. -/
lemma Recording.apply_unrecorded {c c' : Cluster} {r : Recording} (h : r.apply c = .ok c') :
    c'.metadata = c.metadata ∧ c'.spec.unrecorded = c.spec.unrecorded := by
  cases r with
  | cni datapath cilium => rw [← Except.ok.inj h]; exact ⟨rfl, rfl⟩
  | completed phase time => rw [← Except.ok.inj h]; exact ⟨rfl, rfl⟩
  | podCidrs cidrs =>
      obtain ⟨nodes, hnodes, rfl⟩ := withPodCidrs_eq_ok.mp h
      exact ⟨rfl, by simp only [Spec.unrecorded, assignAll_unrecorded hnodes]⟩

/-- **Recording changes nothing else in the spec.** -/
theorem unrecorded_recordAll {c c' : Cluster} {rs : List Recording}
    (h : recordAll c rs = .ok c') :
    c'.metadata = c.metadata ∧ c'.spec.unrecorded = c.spec.unrecorded := by
  induction rs generalizing c with
  | nil => rw [← Except.ok.inj h]; exact ⟨rfl, rfl⟩
  | cons r rest ih =>
      obtain ⟨mid, hmid, hrest⟩ := Checked.bind_eq_ok.mp h
      obtain ⟨hm1, hs1⟩ := Recording.apply_unrecorded hmid
      obtain ⟨hm2, hs2⟩ := ih hrest
      exact ⟨hm2.trans hm1, hs2.trans hs1⟩

/-! ### Who gets a pod CIDR -/

/-- Kubernetes reports a pod CIDR for a node of that name. -/
def Recording.Reports (r : Recording) (name : NodeName) : Prop :=
  match r with
  | podCidrs cidrs => ∃ text ∈ cidrs name.text, text ≠ ""
  | _ => False

lemma assignCidr_isSome {pods : IPv4Network} {cidrs : String → Option String} {n n' : Node}
    (h : assignCidr pods cidrs n = .ok n') :
    n'.podCidr.isSome = true ↔
      n.podCidr.isSome = true ∨ (Recording.podCidrs cidrs).Reports n.name := by
  unfold assignCidr at h
  split at h
  · rename_i hnone
    rw [← Except.ok.inj h]
    simp only [Option.filter_eq_none_iff, decide_eq_true_eq, not_not] at hnone
    have hno : ¬ (Recording.podCidrs cidrs).Reports n.name := fun ⟨t, ht, hne⟩ => hne (hnone t ht)
    simp [hno]
  · rename_i text hsome
    simp only [Checked.bind_eq_ok, Checked.exists_unit, Checked.pure_eq_ok] at h
    obtain ⟨cidr, -, -, rfl⟩ := h
    obtain ⟨ht, hne⟩ := Option.filter_eq_some_iff.mp hsome
    have hyes : (Recording.podCidrs cidrs).Reports n.name := ⟨text, ht, by simpa using hne⟩
    simp [hyes]

/-- Some node of the list has a pod CIDR. -/
def Recorded (nodes : List Node) : Prop := ∃ n ∈ nodes, n.podCidr.isSome = true

lemma assignAll_recorded {pods : IPv4Network} {cidrs : String → Option String}
    {l l' : List Node} (h : List.Forall₂ (fun n n' => assignCidr pods cidrs n = .ok n') l l') :
    Recorded l' ↔ Recorded l ∨ ∃ n ∈ l, (Recording.podCidrs cidrs).Reports n.name := by
  unfold Recorded
  induction h with
  | nil => simp
  | cons hn _ ih =>
      rw [List.exists_mem_cons_iff, ih, assignCidr_isSome hn, List.exists_mem_cons_iff,
        List.exists_mem_cons_iff, or_or_or_comm]

lemma Recording.apply_recorded {c c' : Cluster} {r : Recording} (h : r.apply c = .ok c') :
    Recorded c'.spec.nodes ↔ Recorded c.spec.nodes ∨ ∃ n ∈ c.spec.nodes, r.Reports n.name := by
  cases r with
  | cni datapath cilium => rw [← Except.ok.inj h]; simp [Recording.Reports, recordCni]
  | completed phase time => rw [← Except.ok.inj h]; simp [Recording.Reports, recordCompleted]
  | podCidrs cidrs =>
      obtain ⟨nodes, hnodes, rfl⟩ := withPodCidrs_eq_ok.mp h
      exact assignAll_recorded hnodes

lemma names_unrecorded {nodes nodes' : List Node}
    (h : nodes'.map Node.unrecorded = nodes.map Node.unrecorded) :
    nodes'.map (·.name) = nodes.map (·.name) := by
  have hmap := congrArg (List.map (·.name)) h
  simpa [List.map_map, Function.comp_def, Node.unrecorded] using hmap

/-- **A node has a pod CIDR after the recordings exactly when it had one before, or Kubernetes
reported one.** -/
theorem recordAll_recorded {c c' : Cluster} {rs : List Recording} (h : recordAll c rs = .ok c') :
    Recorded c'.spec.nodes ↔
      Recorded c.spec.nodes ∨ ∃ r ∈ rs, ∃ n ∈ c.spec.nodes, r.Reports n.name := by
  induction rs generalizing c with
  | nil => rw [← Except.ok.inj h]; simp
  | cons r rest ih =>
      obtain ⟨mid, hmid, hrest⟩ := Checked.bind_eq_ok.mp h
      have hnames : mid.spec.nodes.map (·.name) = c.spec.nodes.map (·.name) :=
        names_unrecorded (congrArg Spec.nodes (Recording.apply_unrecorded hmid).2)
      have hreports : ∀ r : Recording,
          (∃ n ∈ mid.spec.nodes, r.Reports n.name) ↔ ∃ n ∈ c.spec.nodes, r.Reports n.name := by
        intro r
        have hiff : ∀ l : List Node, (∃ n ∈ l, r.Reports n.name) ↔
            ∃ m ∈ l.map (·.name), r.Reports m := by simp
        rw [hiff, hiff, hnames]
      rw [ih hrest, Recording.apply_recorded hmid, List.exists_mem_cons_iff, or_assoc]
      simp only [hreports]

end Tk8s
