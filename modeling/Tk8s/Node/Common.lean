import Mathlib.Data.List.MinMax
import Tk8s.Plan.Layout

/-!
`node/common.py`: the edits of `cluster.yaml` the node verbs make, as plain functions.

* `nextName`, `nextIp`, `leastLoaded`, `hostForRequest`: name, address and host of a new node.
* `planAdd`, `withNode`, `deletable`, `withoutNode`, `markedJoined`: the edits.
* `Edit.apply`: one successful edit; `edit`: an edit that leaves the cluster alone when it fails.
-/

namespace Tk8s

open Net

/-! ### Name, address and host of a new node -/

/-- The node of that name. -/
def findNode (c : Cluster) (name : String) : Option Node :=
  c.spec.nodes.find? (·.name.text = name)

/-- `<cluster>-<role>-`. -/
def roleBase (c : Cluster) (role : Role) : String := c.name ++ "-" ++ role.text ++ "-"

/-- The numbers behind the base among the node names. -/
def usedSuffixes (c : Cluster) (role : Role) : List ℕ :=
  ((c.spec.nodes.filterMap fun n => Text.removePrefix? (roleBase c role) n.name.text).filter
    (Text.isDigits ·)).map Text.number

/-- Past the highest existing suffix, never by count: a deleted node's name is not reused while a
higher-numbered node exists. -/
def nextName (c : Cluster) (role : Role) : NodeName :=
  autoName c.metadata.name role ((usedSuffixes c role).foldr max 0 + 1)

/-- The lowest free address of the range's node region. -/
def nextIpInRange (c : Cluster) : Except Raised IPv4Address := do
  let region ← nodeRegion c
  let used := c.spec.nodes.map (·.ip)
  let range := c.spec.network.range.getD "None"
  Checked.ofOption
    (.clusterError (s!"no free node address left in {range} "
      ++ s!"(the last {lbPool} are the LoadBalancer pool)"))
    (region.find? (· ∉ used))

/-- The offset of a node in the node subnet. -/
def nodeOffset (c : Cluster) (n : Node) : ℤ := (n.ip.toNat : ℤ) - c.spec.network.nodes.network.toNat

/-- One past the highest node address; `.200`-`.219` is the LB-IPAM pool, so `.199` is the last
node. On several hosts the lowest free address of the node region. -/
def nextIp (c : Cluster) : Except Raised IPv4Address :=
  let net := c.spec.network.nodes
  match c.spec.network.range with
  | some _ => nextIpInRange c
  | none => do
      let last ← Checked.ofOption (.valueError "max() iterable argument is empty")
        (c.spec.nodes.map (nodeOffset c)).max?
      let host := last + 1
      Checked.refuseIf (199 < host)
        (.clusterError s!"no free node address left in {net.text} (.200-.219 is the LB pool)")
      Checked.ofOption (.addressError (toString (net.network.toNat + host)))
        (IPv4Address.ofInt? (net.network.toNat + host))

/-- The host with the fewest nodes, the first in `cluster.yaml` order on a tie. -/
def leastLoaded (c : Cluster) : Except Raised String :=
  let count (h : String) := c.spec.nodes.countP (·.host = some h)
  Checked.ofOption (.valueError "min() iterable argument is empty") (c.hostNames.argmin count)

def hostForRequest (c : Cluster) (req : NodeRequest) : Except Raised (Option String) :=
  match c.multiHost, req.host with
  | false, none => .ok none
  | false, some _ => .error (.clusterError "--host only applies to a multi-host cluster")
  | true, none => some <$> leastLoaded c
  | true, some h =>
      if h ∈ c.hostNames then .ok (some h)
      else
        let hosts := ", ".intercalate c.hostNames
        .error (.clusterError s!"host {h} is not in cluster {c.name} (hosts: {hosts})")

/-! ### The edits -/

/-- The size defaults to the first node of the same role, or the first node at all. -/
def planAdd (c : Cluster) (req : NodeRequest) : Except Raised Node := do
  Checked.refuseIf (req.role = .controlPlane ∧ 5 ≤ c.controlPlanes.length)
    (.clusterError (s!"cluster {c.name} already has 5 control planes; at most 5 "
      ++ "(the apiserver LB has five backend slots, the same limit create enforces)"))
  let first ← Checked.ofOption .indexError c.firstControlPlane
  let like := (c.spec.nodes.find? (·.role = req.role)).getD first
  let ip ← nextIp c
  let host ← hostForRequest c req
  return { role := req.role, name := nextName c req.role, ip := ip, cpu := req.cpu.getD like.cpu,
           memory := req.memory.getD like.memory, join := false, host := host }

/-- The cluster with another node list. -/
def Cluster.withNodes (c : Cluster) (nodes : List Node) : Cluster :=
  { c with spec := { c.spec with nodes := nodes } }

def withNode (c : Cluster) (n : Node) : Cluster := c.withNodes (c.spec.nodes ++ [n])

/-- The first control plane cannot be deleted. -/
def deletable (c : Cluster) (name : String) : Except Raised Node := do
  let first ← Checked.ofOption .indexError c.firstControlPlane
  Checked.refuseIf (name = first.name.text)
    (.clusterError (s!"the first control plane {name} cannot be deleted; delete the cluster "
      ++ "instead"))
  Checked.ofOption (.clusterError s!"node {name} not found in cluster {c.name}") (findNode c name)

def withoutNode (c : Cluster) (name : String) : Except Raised Cluster := do
  let _ ← deletable c name
  return c.withNodes (c.spec.nodes.filter (·.name.text ≠ name))

/-- The node, marked as joined if it has that name. -/
def Node.joinedIf (name : String) (n : Node) : Node :=
  if n.name.text = name then { n with join := true } else n

def markedJoined (c : Cluster) (name : String) : Cluster :=
  c.withNodes (c.spec.nodes.map (Node.joinedIf name))

/-- What a node verb does to `cluster.yaml`. -/
inductive Edit where
  | add (req : NodeRequest)
  | joined (name : String)
  | remove (name : String)

def Edit.apply (c : Cluster) : Edit → Except Raised Cluster
  | add req => withNode c <$> planAdd c req
  | joined name => .ok (markedJoined c name)
  | remove name => withoutNode c name

/-- An edit of the recorded cluster: one that fails is not saved. -/
def edit (c : Cluster) (e : Edit) : Cluster :=
  match e.apply c with
  | .ok c' => c'
  | .error _ => c

@[simp] lemma Cluster.withNodes_nodes (c : Cluster) (nodes : List Node) :
    (c.withNodes nodes).spec.nodes = nodes := rfl

@[simp] lemma Cluster.withNodes_network (c : Cluster) (nodes : List Node) :
    (c.withNodes nodes).spec.network = c.spec.network := rfl

@[simp] lemma Cluster.withNodes_hosts (c : Cluster) (nodes : List Node) :
    (c.withNodes nodes).spec.hosts = c.spec.hosts := rfl

@[simp] lemma Cluster.withNodes_hostNames (c : Cluster) (nodes : List Node) :
    (c.withNodes nodes).hostNames = c.hostNames := rfl

@[simp] lemma Cluster.withNodes_withNodes (c : Cluster) (l l' : List Node) :
    (c.withNodes l).withNodes l' = c.withNodes l' := rfl

@[simp] lemma nodeRegion_withNodes (c : Cluster) (nodes : List Node) :
    nodeRegion (c.withNodes nodes) = nodeRegion c := rfl

/-! ### What a new node gets -/

lemma le_foldr_max {l : List ℕ} {n : ℕ} (h : n ∈ l) : n ≤ l.foldr max 0 := by
  induction l with
  | nil => simp at h
  | cons m l ih =>
      rw [List.foldr_cons]
      rcases List.mem_cons.mp h with rfl | h
      · exact le_max_left _ _
      · exact (ih h).trans (le_max_right _ _)

/-- **The next name is new.** -/
lemma nextName_notMem (c : Cluster) (role : Role) :
    nextName c role ∉ c.spec.nodes.map (·.name) := by
  intro hmem
  obtain ⟨n, hn, hname⟩ := List.mem_map.mp hmem
  have htext : n.name.text = roleBase c role ++ ((usedSuffixes c role).foldr max 0 + 1).repr :=
    congrArg Matching.text hname
  have hsuffix : (usedSuffixes c role).foldr max 0 + 1 ∈ usedSuffixes c role := by
    refine List.mem_map.mpr ⟨((usedSuffixes c role).foldr max 0 + 1).repr, ?_, Text.number_repr _⟩
    refine List.mem_filter.mpr ⟨List.mem_filterMap.mpr ⟨n, hn, ?_⟩, Text.isDigits_repr _⟩
    rw [htext, Text.removePrefix?_append]
  have hle := le_foldr_max hsuffix
  omega

/-- The next address on several hosts is free and in the region. -/
lemma nextIpInRange_eq_ok {c : Cluster} {ip : IPv4Address} (h : nextIpInRange c = .ok ip) :
    ip ∉ c.spec.nodes.map (·.ip) ∧ ∃ region, nodeRegion c = .ok region ∧ ip ∈ region := by
  obtain ⟨region, hregion, hfind⟩ := Checked.bind_eq_ok.mp h
  rw [Checked.ofOption_eq_ok] at hfind
  have hnot := List.find?_some hfind
  exact ⟨of_decide_eq_true hnot, region, hregion, List.mem_of_find?_eq_some hfind⟩

/-- The next address on a single host lies one past every node's. -/
lemma nextIp_single_eq_ok {c : Cluster} {ip : IPv4Address} (hrange : c.spec.network.range = none)
    (h : nextIp c = .ok ip) :
    ∃ last, (c.spec.nodes.map (nodeOffset c)).max? = some last ∧ last + 1 ≤ 199 ∧
      (ip.toNat : ℤ) = c.spec.network.nodes.network.toNat + (last + 1) := by
  simp only [nextIp, hrange, Checked.bind_eq_ok, Checked.exists_unit, Checked.ofOption_eq_ok,
    Checked.refuseIf_eq_ok, IPv4Address.ofInt?_eq_some, not_lt] at h
  exact h

/-- The host of a new node is a listed one, and none on a single host. -/
lemma hostForRequest_eq_ok {c : Cluster} {req : NodeRequest} {host : Option String}
    (h : hostForRequest c req = .ok host) :
    (c.spec.hosts = none → host = none) ∧
      (c.spec.hosts ≠ none → ∃ name ∈ host, name ∈ c.hostNames) := by
  have hmulti : c.multiHost = c.spec.hosts.isSome := rfl
  cases hh : c.spec.hosts with
  | none =>
      rw [hh] at hmulti
      rw [hostForRequest, hmulti] at h
      refine ⟨fun _ => ?_, fun hne => absurd rfl hne⟩
      cases hreq : req.host <;> simp_all
  | some hosts =>
      rw [hh] at hmulti
      rw [hostForRequest, hmulti] at h
      refine ⟨fun hnone => by simp at hnone, fun _ => ?_⟩
      cases hreq : req.host with
      | none =>
          simp only [hreq, Option.isSome_some, Checked.map_eq_ok, leastLoaded,
            Checked.ofOption_eq_ok] at h
          obtain ⟨name, hmin, rfl⟩ := h
          exact ⟨name, rfl, List.argmin_mem hmin⟩
      | some name =>
          simp only [hreq, Option.isSome_some] at h
          by_cases hmem : name ∈ c.hostNames
          · rw [if_pos hmem] at h
            exact ⟨name, by rw [← Except.ok.inj h]; rfl, hmem⟩
          · rw [if_neg hmem] at h
            simp at h

/-- What a planned node is. -/
lemma planAdd_eq_ok {c : Cluster} {req : NodeRequest} {n : Node} (h : planAdd c req = .ok n) :
    ¬(req.role = .controlPlane ∧ 5 ≤ c.controlPlanes.length) ∧ n.role = req.role ∧
      n.name = nextName c req.role ∧ nextIp c = .ok n.ip ∧ hostForRequest c req = .ok n.host := by
  simp only [planAdd, Checked.bind_eq_ok, Checked.exists_unit, Checked.refuseIf_eq_ok,
    Checked.pure_eq_ok] at h
  obtain ⟨hcp, first, -, ip, hip, host, hhost, rfl⟩ := h
  exact ⟨hcp, rfl, rfl, hip, hhost⟩

/-- Marking a node as joined changes nothing else. -/
lemma Node.joinedIf_eq (name : String) (n : Node) :
    n.joinedIf name = n ∨ n.joinedIf name = { n with join := true } := by
  rw [Node.joinedIf]
  by_cases hname : n.name.text = name
  · exact Or.inr (if_pos hname)
  · exact Or.inl (if_neg hname)

/-- Removing a node keeps the first one. -/
lemma withoutNode_eq_ok {c c' : Cluster} {name : String} (h : withoutNode c name = .ok c') :
    c' = c.withNodes (c.spec.nodes.filter (·.name.text ≠ name)) ∧
      ∀ first ∈ c.spec.nodes.head?, first.name.text ≠ name := by
  simp only [withoutNode, deletable, Checked.bind_eq_ok, Checked.exists_unit,
    Checked.ofOption_eq_ok, Checked.refuseIf_eq_ok, Checked.pure_eq_ok] at h
  obtain ⟨-, ⟨first, hfirst, hne, -⟩, rfl⟩ := h
  refine ⟨rfl, fun first' hfirst' => ?_⟩
  rw [Cluster.firstControlPlane] at hfirst
  obtain rfl := Option.some_inj.mp (hfirst.symm.trans (Option.mem_def.mp hfirst'))
  exact fun heq => hne heq.symm

end Tk8s
