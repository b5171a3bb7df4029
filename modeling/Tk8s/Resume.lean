import Tk8s.Create.Record

/-!
A resume with the same inputs: `resolve` rebuilds the spec from the definition and copies recorded
facts back one field at a time.

* `unrecorded_of_resolve`: a new cluster has no recorded fact.
* `resolve_resume`: **a resume is accepted and plans the same cluster**, with the recorded datapath
  and status, and without the recorded pod CIDRs.
* `resume_same_iff`: it returns the recorded cluster **exactly when no node was given a pod CIDR**.
-/

namespace Tk8s

open Net

/-! ### A new cluster -/

lemma unrecorded_eq_self {s : Spec} :
    s.unrecorded = s ↔ s.datapathResolved = none ∧ ∀ n ∈ s.nodes, n.podCidr = none := by
  have hnode : ∀ n : Node, n.unrecorded = n ↔ n.podCidr = none := fun n => by
    cases n
    simp [Node.unrecorded, eq_comm]
  have hnodes : s.nodes.map Node.unrecorded = s.nodes ↔ ∀ n ∈ s.nodes, n.podCidr = none := by
    have hid := List.map_inj_left (l := s.nodes) (f := Node.unrecorded) (g := id)
    rw [List.map_id] at hid
    exact hid.trans (forall₂_congr fun n _ => hnode n)
  rw [← hnodes]
  cases s
  simp [Spec.unrecorded, eq_comm]

/-- A new cluster has no recorded fact. -/
lemma unrecorded_of_resolve {u : UserCluster} {f : Facts} {c : Cluster}
    (h : resolve u none f = .ok c) : c.spec.unrecorded = c.spec := by
  obtain ⟨index, t, hres, rfl⟩ := resolve_eq_ok.mp h
  obtain ⟨ips, hosts, hnodes⟩ := nodes_of_topology hres.built
  exact unrecorded_eq_self.mpr ⟨rfl, expandFrom_podCidr hnodes⟩

/-! ### The resume -/

/-- The placement is the recorded one when the spec is, up to the recorded facts. -/
lemma samePlacement_of_unrecorded {was : Spec} {hosts : List Host} {nodes : List Node}
    {net : Network} (hnet : was.network = net)
    (hnodes : was.nodes.map Node.unrecorded = nodes.map Node.unrecorded)
    (hnd : (hosts.map (·.name.text)).Nodup) : SamePlacement was hosts hosts nodes net where
  ifaces := fun h hmem old hold => by
    have hfound := List.find?_some (Option.mem_def.mp hold)
    have hname : old.name.text = h.name.text := by rw [of_decide_eq_true hfound]
    rw [List.inj_on_of_nodup_map hnd (List.mem_of_find?_eq_some hold) hmem hname]
  hosts := rfl
  nodes := by
    have hmap := congrArg (List.map fun n => (n.name, n.ip, n.host)) hnodes
    simpa [List.map_map, Function.comp_def, Node.unrecorded] using hmap
  routerHosts := by rw [hnet]
  range := by rw [hnet]

/-- **A resume with the same definition is accepted**, and gives the plan with the recorded datapath
and status. -/
theorem resolve_resume {u : UserCluster} {f f' : Facts} {c₀ c : Cluster}
    (h : resolve u none f = .ok c₀) (hk : f'.k8sDefault = f.k8sDefault) (hl : f'.lans = f.lans)
    (hspec : c.spec.unrecorded = c₀.spec) :
    resolve u (some c) f' = .ok { c₀ with
      spec := { c₀.spec with datapathResolved := c.spec.datapathResolved }, status := c.status } := by
  obtain ⟨index, t, hres, rfl⟩ := resolve_eq_ok.mp h
  have hnet : c.spec.network = t.net := congrArg Spec.network hspec
  have hhosts : c.spec.hosts = t.hosts := congrArg Spec.hosts hspec
  have hplain : t.nodes.map Node.unrecorded = t.nodes :=
    congrArg Spec.nodes (unrecorded_of_resolve h)
  have hnodes : c.spec.nodes.map Node.unrecorded = t.nodes.map Node.unrecorded := by
    rw [hplain]
    exact congrArg Spec.nodes hspec
  obtain ⟨hindex, hrouters⟩ := index_of_topology hres.built
  refine resolve_eq_ok.mpr ⟨index, t, ⟨hres.valid, ?_, by simp, ?_, ?_, ?_⟩, ?_⟩
  · rw [pickIndex, hnet, hindex]
  · rw [checkRouters, Checked.refuseIf_eq_ok, hnet, hrouters]
    simp
  · have hbuilt := hres.built
    rw [topology] at hbuilt ⊢
    cases hu : u.spec.hosts with
    | none => rw [hu] at hbuilt; exact hbuilt
    | some userHosts =>
        rw [hu] at hbuilt
        obtain ⟨p, hp⟩ := resolveMulti_eq_ok.mp hbuilt
        have hchk := hres.spec
        simp only [Spec.check, specOf, hp.hosts, Checked.check_bind_eq_ok] at hchk
        have hnd := (Spec.checkHosts_eq_ok.mp hchk.2.2).nodup
        refine resolveMulti_eq_ok.mpr ⟨p, { hp with told := hl.trans hp.told, resume := ?_ }⟩
        intro c' hc'
        obtain rfl := Option.some_inj.mp (Option.mem_def.mp hc')
        exact checkResume_eq_ok.mpr ⟨p.hosts, hhosts.trans hp.hosts,
          samePlacement_of_unrecorded hnet hnodes hnd⟩
  · exact hres.spec
  · simp only [specOf, statusOf, hk, Option.bind_some]

/-! ### When nothing is lost -/

/-- A spec differs from its plan by the pod CIDRs alone, once the datapath is copied back. -/
lemma spec_eq_iff_notRecorded {s s₀ : Spec} (hs : s.unrecorded = s₀)
    (h₀ : s₀.unrecorded = s₀) :
    { s₀ with datapathResolved := s.datapathResolved } = s ↔ ¬ Recorded s.nodes := by
  have hrec : ¬ Recorded s.nodes ↔ ∀ n ∈ s.nodes, n.podCidr = none := by
    simp [Recorded]
  rw [hrec]
  constructor
  · intro heq n hn
    rw [← heq] at hn
    exact (unrecorded_eq_self.mp h₀).2 n hn
  · intro hnone
    have hself : ({ s with datapathResolved := none } : Spec).unrecorded
        = { s with datapathResolved := none } := unrecorded_eq_self.mpr ⟨rfl, hnone⟩
    have hplain : s₀ = { s with datapathResolved := none } := by
      rw [← hs, ← hself]
      rfl
    rw [hplain]

/-- **A resume with the same inputs returns the recorded spec and status exactly when Kubernetes
never reported a pod CIDR for a node of the cluster**: the pod CIDRs are the one recorded fact
`resolve` does not copy back. -/
theorem resume_same_iff {u : UserCluster} {f f' : Facts} {c₀ c : Cluster} {rs : List Recording}
    (h : resolve u none f = .ok c₀) (hrs : recordAll c₀ rs = .ok c)
    (hk : f'.k8sDefault = f.k8sDefault) (hl : f'.lans = f.lans) :
    (∃ c', resolve u (some c) f' = .ok c' ∧ c'.spec = c.spec ∧ c'.status = c.status) ↔
      ∀ r ∈ rs, ∀ n ∈ c₀.spec.nodes, ¬ r.Reports n.name := by
  have hplain := unrecorded_of_resolve h
  have hspec : c.spec.unrecorded = c₀.spec := (unrecorded_recordAll hrs).2.trans hplain
  have hfresh : ¬ Recorded c₀.spec.nodes := by
    rintro ⟨n, hn, hsome⟩
    simp [(unrecorded_eq_self.mp hplain).2 n hn] at hsome
  have hres := resolve_resume h hk hl hspec
  rw [hres]
  simp only [Except.ok.injEq, exists_eq_left', and_true]
  rw [spec_eq_iff_notRecorded hspec hplain, recordAll_recorded hrs]
  simp [hfresh]

/-! ### A cluster of one node -/

def oneNode : UserCluster where
  metadata := ⟨⟨"dev", clusterName_dev⟩⟩
  spec := { nodes := [{ role := .controlPlane }] }

def oneNodeFacts : Facts where
  k8sDefault := "1.34.0"
  usedIndices := []
  allowOverlap := false
  tk8sVersion := "1"

/-- Before the nodes register, a resume changes nothing. -/
theorem resume_same_before_routes :
    ∃ c₀ c, resolve oneNode none oneNodeFacts = .ok c₀ ∧
      recordAll c₀ [.completed "plan" 1, .cni .veth "1.18"] = .ok c ∧
      ∃ c', resolve oneNode (some c) oneNodeFacts = .ok c' ∧ c'.spec = c.spec ∧
        c'.status = c.status := by
  obtain ⟨c₀, hc₀⟩ : ∃ c₀, resolve oneNode none oneNodeFacts = .ok c₀ := by
    apply Checked.exists_eq_ok
    decide +kernel
  have hrs : recordAll c₀ [.completed "plan" 1, .cni .veth "1.18"]
      = .ok (recordCni (recordCompleted c₀ "plan" 1) .veth "1.18") := rfl
  refine ⟨c₀, _, hc₀, hrs, (resume_same_iff hc₀ hrs rfl rfl).mpr ?_⟩
  intro r hr n _ hrep
  simp only [List.mem_cons, List.not_mem_nil, or_false] at hr
  rcases hr with rfl | rfl <;> exact hrep

/-- After the host routes are recorded, a resume loses them. -/
theorem resume_loses_podCidr :
    ∃ c₀ c c', resolve oneNode none oneNodeFacts = .ok c₀ ∧
      recordAll c₀ [.podCidrs fun _ => some "10.244.0.0/24"] = .ok c ∧
      resolve oneNode (some c) oneNodeFacts = .ok c' ∧ c'.spec ≠ c.spec := by
  have hrun : (do
      let c₀ ← resolve oneNode none oneNodeFacts
      let c ← recordAll c₀ [.podCidrs fun _ => some "10.244.0.0/24"]
      let c' ← resolve oneNode (some c) oneNodeFacts
      return decide (c'.spec ≠ c.spec)) = (.ok true : Except Raised Bool) := by
    decide +kernel
  simp only [Checked.bind_eq_ok, Checked.pure_eq_ok, decide_eq_true_eq] at hrun
  obtain ⟨c₀, h₀, c, hc, c', hc', hne⟩ := hrun
  exact ⟨c₀, c, c', h₀, hc, hc', hne⟩

end Tk8s
