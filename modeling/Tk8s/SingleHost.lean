import Tk8s.Addresses
import Tk8s.Node.Edits
import Tk8s.Plan.ByIndex

/-!
The layout of a single-host /24: `network` puts router, Cluster Mesh address, LoadBalancer range and
gateway at fixed offsets, `expand_nodes` numbers the nodes from `.1` upwards without a bound, and
`next_ip` stops at `.199`.

* `SinglePlan`: the addresses of a single-host cluster are distinct and in its node subnet, its
  nodes at offsets 1 to 199.
* `expandFrom_index`: a created cluster has its nodes at offsets 1, 2, and so on.
* `SingleEvolved`, `singleEvolved_edits`: what any sequence of node verbs keeps.
* `singlePlan_iff`: **the plan holds after every sequence of node verbs exactly when at most 199
  nodes were asked for**.
-/

namespace Tk8s

open Net

/-! ### The plan -/

/-- Nodes, Cluster Mesh address, LoadBalancer range, router containers, floating address and gateway
are pairwise distinct and in the node subnet; a single router's container sits at the floating
address; nodes are at offsets 1 to 199. -/
def SinglePlan (c : Cluster) : Prop :=
  ∃ addrs, c.lanAddresses = .ok addrs ∧
    (∀ routers, c.spec.network.routers = .one → c.routers = .ok routers →
      routers.map (·.ip) = [c.floatingIp]) ∧
    (c.spec.network.gateway :: addrs).Nodup ∧
    (∀ a ∈ c.spec.network.gateway :: addrs, a ∈ c.spec.network.nodes) ∧
    ∀ n ∈ c.spec.nodes, ∃ k, 1 ≤ k ∧ k ≤ 199 ∧
      n.ip.toNat = c.spec.network.nodes.network.toNat + k

/-! ### The nodes of a new cluster -/

/-- Without given addresses the nodes are numbered through. -/
lemma expandFrom_index {name : ClusterName} {index : ℕ} {hosts : Option (List String)}
    {groups : List NodeGroup} {ip : ℕ} {seen : Role → ℕ} {nodes : List Node}
    (h : expandFrom name index none hosts ip seen groups = .ok nodes) :
    nodes.map (·.ip.toNat) = List.range' (nodesBase index + ip + 1) groups.length := by
  induction groups generalizing ip seen nodes with
  | nil =>
      rw [expandFrom, Except.ok.injEq] at h
      rw [← h]
      rfl
  | cons g rest ih =>
      obtain ⟨node, tail, hnode, htail, rfl⟩ := expandFrom_cons_eq_ok.mp h
      obtain ⟨address, host, memory, haddr, -, -, rfl⟩ := expandNode_eq_ok.mp hnode
      obtain ⟨hval, -⟩ := ipv4_eq_ok haddr
      have haddress : address.toNat = nodesBase index + ip + 1 := by
        rw [hval, nodesBase]
        omega
      rw [List.map_cons, ih htail, haddress, List.length_cons, List.range'_succ]
      rfl

/-! ### Any sequence of node verbs -/

/-- Nodes at distinct offsets from 1 to 199, and nothing but the node list changed. -/
structure SingleEvolved (c₀ c : Cluster) : Prop where
  ips : (c.spec.nodes.map (·.ip)).Nodup
  region : ∀ n ∈ c.spec.nodes, InRegion c n.ip
  rest : c = c₀.withNodes c.spec.nodes

/-- **One successful edit** keeps the offsets. -/
lemma singleEvolved_apply {c₀ c c' : Cluster} {e : Edit}
    (htog : c₀.spec.hosts = none ↔ c₀.spec.network.range = none) (hc : SingleEvolved c₀ c)
    (h : e.apply c = .ok c') : SingleEvolved c₀ c' := by
  have hrest : ∀ l, c.withNodes l = c₀.withNodes l := by
    intro l
    rw [hc.rest, Cluster.withNodes_withNodes]
  have htog' : c.spec.hosts = none ↔ c.spec.network.range = none := by
    rw [hc.rest]
    exact htog
  cases e with
  | add req =>
      obtain ⟨new, hnew, rfl⟩ := Checked.map_eq_ok.mp h
      obtain ⟨-, -, -, hip, -⟩ := planAdd_eq_ok hnew
      obtain ⟨hfree, hregion⟩ := nextIp_fresh hc.region htog' hip
      refine ⟨?_, fun n hn => ?_, hrest _⟩
      · rw [withNode, Cluster.withNodes_nodes, List.map_append]
        refine List.nodup_append.mpr ⟨hc.ips, List.nodup_singleton _, fun a ha b hb hab => ?_⟩
        have hb' : b = new.ip := by simpa using hb
        exact hfree (hb' ▸ hab ▸ ha)
      · cases List.mem_append.mp hn with
        | inl hold => exact hc.region n hold
        | inr hlast => exact List.mem_singleton.mp hlast ▸ hregion
  | joined name =>
      obtain rfl := Except.ok.inj h
      have hip : ∀ n : Node, (n.joinedIf name).ip = n.ip := by
        intro n
        rcases n.joinedIf_eq name with hn | hn <;> rw [hn]
      refine ⟨?_, fun n hn => ?_, hrest _⟩
      · rw [markedJoined, Cluster.withNodes_nodes, List.map_map]
        convert hc.ips using 2
        funext n
        exact hip n
      · obtain ⟨m, hm, rfl⟩ := List.mem_map.mp hn
        rw [hip m]
        exact hc.region m hm
  | remove name =>
      obtain ⟨rfl, -⟩ := withoutNode_eq_ok h
      have hsub : (c.spec.nodes.filter (·.name.text ≠ name)).Sublist c.spec.nodes :=
        List.filter_sublist
      exact ⟨(hsub.map _).nodup hc.ips, fun n hn => hc.region n (hsub.mem hn), hrest _⟩

/-- **Any sequence of node verbs** keeps the offsets; an edit that fails changes nothing. -/
lemma singleEvolved_edits {c : Cluster}
    (htog : c.spec.hosts = none ↔ c.spec.network.range = none)
    (hips : (c.spec.nodes.map (·.ip)).Nodup) (hregion : ∀ n ∈ c.spec.nodes, InRegion c n.ip)
    (es : List Edit) : SingleEvolved c (es.foldl edit c) := by
  refine List.foldlRecOn es edit ⟨hips, hregion, rfl⟩ fun c' hc' e _ => ?_
  cases h : e.apply c' with
  | error err =>
      rw [edit_of_error h]
      exact hc'
  | ok c'' =>
      have hedit : edit c' e = c'' := by rw [edit, h]
      exact hedit ▸ singleEvolved_apply htog hc' h

/-! ### The fixed addresses -/

/-- A single-host cluster by its index. -/
structure SingleByIndex (index : ℕ) (c : Cluster) : Prop where
  le : index ≤ 31
  nodes : IndexNodes index c.spec.network
  hosts : c.spec.hosts = none
  range : c.spec.network.range = none
  routerHosts : c.spec.network.routerHosts = none
  shim : c.spec.network.shim = none

variable {index : ℕ} {c : Cluster}

/-- The router containers of a single-host cluster. -/
lemma SingleByIndex.routers (h : SingleByIndex index c) : ∃ routers, c.routers = .ok routers ∧
    match c.spec.network.routers with
    | .one => routers.map (·.ip) = [c.spec.network.router]
    | .two => routers.map (·.ip.toNat) = [nodesBase index + 251, nodesBase index + 252] := by
  cases hn : c.spec.network.routers with
  | one =>
      refine ⟨[{ name := s!"{c.name}-router", dir := "router", ip := c.spec.network.router,
                 priority := none, host := none }], ?_, rfl⟩
      simp only [Cluster.routers, hn, h.routerHosts]
      rfl
  | two =>
      have hbase := h.nodes.nodes.1
      have hle := h.le
      have hshift : ∀ k ≤ 255, ∃ a : IPv4Address, a.toNat = nodesBase index + k ∧
          Cluster.shift c.spec.network.nodes.network k = .ok a := by
        intro k hk
        refine ⟨⟨nodesBase index + k, ?_⟩, rfl, Cluster.shift_eq_ok.mpr ?_⟩
        · rw [nodesBase]
          omega
        · rw [hbase]
      obtain ⟨first, hfirst, hfirst'⟩ := hshift 251 (by omega)
      obtain ⟨second, hsecond, hsecond'⟩ := hshift 252 (by omega)
      refine ⟨[{ name := s!"{c.name}-router-1", dir := "router-1", ip := first,
                 priority := some 200, host := none },
               { name := s!"{c.name}-router-2", dir := "router-2", ip := second,
                 priority := some 100, host := none }], ?_, ?_⟩
      · simp only [Cluster.routers, hn, Cluster.routerPair, h.range, h.routerHosts, hfirst', hsecond']
        rfl
      · simp only [List.map_cons, List.map_nil, hfirst, hsecond]

/-- The offsets of everything but the nodes: router, router containers, Cluster Mesh address and
LoadBalancer range, and the gateway. -/
lemma SingleByIndex.addresses (h : SingleByIndex index c) : ∃ addrs, c.lanAddresses = .ok addrs ∧
    ∃ k own, 220 ≤ k ∧ k ≤ 253 ∧
      ((c.spec.network.routers = .one ∧ own = []) ∨
        c.spec.network.routers = .two ∧ k ≠ 251 ∧ k ≠ 252 ∧
          own = [nodesBase index + 251, nodesBase index + 252]) ∧
      addrs.map (·.toNat) = (nodesBase index + k) :: (own ++ (c.spec.nodes.map (·.ip.toNat)
        ++ List.range' (nodesBase index + 200) 20)) := by
  obtain ⟨routers, hr, hown⟩ := h.routers
  obtain ⟨lb, hlb, hlbs⟩ := lbRange_byIndex h.le
  obtain ⟨k, hk1, hk2, hrouter, htwo⟩ := h.nodes.router
  obtain ⟨mesh, hmesh, hmesh'⟩ := h.nodes.mesh
  refine ⟨c.spec.network.router :: (c.ownRouterIps routers ++ (c.spec.network.shim.toList ++
    c.spec.nodes.map (·.ip) ++ (c.spec.network.mesh.toList ++ lb))), ?_, k,
    (c.ownRouterIps routers).map (·.toNat), hk1, hk2, ?_, ?_⟩
  · simp only [Cluster.lanAddresses, hr, h.nodes.lbRange, hlb]
    rfl
  · cases hn : c.spec.network.routers with
    | one => exact Or.inl ⟨rfl, by rw [Cluster.ownRouterIps, hn]; rfl⟩
    | two =>
        rw [hn] at hown
        refine Or.inr ⟨rfl, (htwo hn).1, (htwo hn).2, ?_⟩
        rw [Cluster.ownRouterIps, hn, List.map_map]
        exact hown
  · rw [h.shim, hmesh]
    simp only [Option.toList_none, Option.toList_some, List.map_cons, List.map_append, List.map_map,
      List.nil_append, List.singleton_append, hrouter, hmesh', hlbs, Function.comp_def]
    rfl

/-- **Nodes at distinct offsets from 1 to 199 complete the plan.** -/
theorem SingleByIndex.plan (h : SingleByIndex index c) (hips : (c.spec.nodes.map (·.ip)).Nodup)
    (hregion : ∀ n ∈ c.spec.nodes, InRegion c n.ip) : SinglePlan c := by
  have hbase := h.nodes.nodes.1
  have hsize : c.spec.network.nodes.size = 256 := by
    rw [IPv4Network.size, h.nodes.nodes.2]
    rfl
  have hoffset : ∀ n ∈ c.spec.nodes, ∃ k, 1 ≤ k ∧ k ≤ 199 ∧
      n.ip.toNat = c.spec.network.nodes.network.toNat + k := by
    intro n hn
    have hin := hregion n hn
    rwa [InRegion, h.hosts] at hin
  have hnodes : ∀ x ∈ c.spec.nodes.map (·.ip.toNat),
      nodesBase index + 1 ≤ x ∧ x ≤ nodesBase index + 199 := by
    intro x hx
    obtain ⟨n, hn, rfl⟩ := List.mem_map.mp hx
    obtain ⟨k, hk1, hk2, hk⟩ := hoffset n hn
    rw [hbase] at hk
    omega
  have hnd : (c.spec.nodes.map (·.ip.toNat)).Nodup := by
    have hmap := hips.map IPv4Address.toNat_injective
    rwa [List.map_map] at hmap
  obtain ⟨addrs, haddrs, k, own, hk1, hk2, hown, hval⟩ := h.addresses
  have hgateway := h.nodes.gateway
  have hrange : ∀ x ∈ List.range' (nodesBase index + 200) 20,
      nodesBase index + 200 ≤ x ∧ x < nodesBase index + 220 := by
    intro x hx
    rw [List.mem_range'_1] at hx
    omega
  have htail : (c.spec.nodes.map (·.ip.toNat) ++
      List.range' (nodesBase index + 200) 20).Nodup := by
    refine List.nodup_append.mpr ⟨hnd, List.nodup_range', fun a ha b hb => ?_⟩
    have hlow := hnodes a ha
    have hhigh := hrange b hb
    omega
  have hbound : ∀ x ∈ c.spec.nodes.map (·.ip.toNat) ++ List.range' (nodesBase index + 200) 20,
      nodesBase index < x ∧ x < nodesBase index + 220 := by
    intro x hx
    cases List.mem_append.mp hx with
    | inl hn =>
        have hlow := hnodes x hn
        omega
    | inr hl =>
        have hhigh := hrange x hl
        omega
  -- router containers lie above the LoadBalancer range, apart from the router and the gateway
  have hownNodup : own.Nodup := by
    rcases hown with ⟨-, rfl⟩ | ⟨-, -, -, rfl⟩
    · exact List.nodup_nil
    · simp
  have hownBound : ∀ x ∈ own, nodesBase index + 251 ≤ x ∧ x ≤ nodesBase index + 252 ∧
      x ≠ nodesBase index + k := by
    intro x hx
    rcases hown with ⟨-, rfl⟩ | ⟨-, h1, h2, rfl⟩
    · simp at hx
    · simp only [List.mem_cons, List.not_mem_nil, or_false] at hx
      omega
  have hall : ((c.spec.network.gateway :: addrs).map (·.toNat)).Nodup := by
    rw [List.map_cons, hval, hgateway]
    refine List.nodup_cons.mpr ⟨fun hmem => ?_, List.nodup_cons.mpr ⟨fun hmem => ?_,
      List.nodup_append.mpr ⟨hownNodup, htail, fun a ha b hb => ?_⟩⟩⟩
    · rcases List.mem_cons.mp hmem with heq | hmem
      · omega
      · rcases List.mem_append.mp hmem with hmem | hmem
        · have := hownBound _ hmem
          omega
        · have := hbound _ hmem
          omega
    · rcases List.mem_append.mp hmem with hmem | hmem
      · exact (hownBound _ hmem).2.2 rfl
      · have := hbound _ hmem
        omega
    · have hlow := hownBound a ha
      have hhigh := hbound b hb
      omega
  refine ⟨addrs, haddrs, fun routers hone hr => ?_, hall.of_map _, fun a ha => ?_, hoffset⟩
  · obtain ⟨routers', hr', hone'⟩ := h.routers
    rw [hone] at hone'
    obtain rfl := Except.ok.inj (hr.symm.trans hr')
    exact hone'
  · rw [IPv4Network.mem_iff, hbase, hsize]
    have hmem : a.toNat ∈ (c.spec.network.gateway :: addrs).map (·.toNat) :=
      List.mem_map_of_mem ha
    rw [List.map_cons, hval, hgateway] at hmem
    rcases List.mem_cons.mp hmem with heq | hmem
    · omega
    rcases List.mem_cons.mp hmem with heq | hmem
    · omega
    rcases List.mem_append.mp hmem with hmem | hmem
    · have := hownBound _ hmem
      omega
    · have := hbound _ hmem
      omega

/-! ### The exact condition -/

/-- The number of nodes a definition asks for. -/
def UserCluster.nodeCount (u : UserCluster) : ℕ := (u.spec.nodes.map fun g => (g.count : ℕ)).sum

/-- What a single-host definition becomes. -/
lemma singleByIndex_of_resolve {u : UserCluster} {existing : Option Cluster} {f : Facts}
    {c : Cluster} (hu : u.spec.hosts = none) (h : resolve u existing f = .ok c) :
    ∃ index, SingleByIndex index c ∧
      c.spec.nodes.map (·.ip.toNat) = List.range' (nodesBase index + 1) u.nodeCount := by
  obtain ⟨index, t, hres, rfl⟩ := resolve_eq_ok.mp h
  have hbuilt := hres.built
  rw [topology, hu] at hbuilt
  have hsingle := resolveSingle_eq_ok.mp hbuilt
  obtain ⟨hprefixes, hnodes⟩ := network_byIndex hsingle.net
  obtain ⟨-, -, hrange, hhosts, hshim⟩ := network_fields hsingle.net
  refine ⟨index, ⟨hprefixes.le, hnodes, hsingle.hosts, hrange, hhosts, hshim⟩, ?_⟩
  have hips := expandFrom_index hsingle.nodes
  rw [length_unroll] at hips
  exact hips

/-- **The address plan of a single-host cluster holds after every sequence of node verbs exactly when
at most 199 nodes were asked for.** -/
theorem singlePlan_iff {u : UserCluster} {existing : Option Cluster} {f : Facts} {c : Cluster}
    (hu : u.spec.hosts = none) (h : resolve u existing f = .ok c) :
    (∀ es : List Edit, SinglePlan (es.foldl edit c)) ↔ u.nodeCount ≤ 199 := by
  obtain ⟨index, hc, hips⟩ := singleByIndex_of_resolve hu h
  have hbase := hc.nodes.nodes.1
  constructor
  · intro hplan
    by_contra hmany
    obtain ⟨-, -, -, -, -, hoffset⟩ := hplan []
    have hlast : nodesBase index + u.nodeCount ∈ c.spec.nodes.map (·.ip.toNat) := by
      rw [hips, List.mem_range'_1]
      omega
    obtain ⟨n, hn, hip⟩ := List.mem_map.mp hlast
    obtain ⟨k, -, hk, hip'⟩ := hoffset n hn
    rw [List.foldl_nil, hbase] at hip'
    omega
  · intro hfew es
    have hnd : (c.spec.nodes.map (·.ip)).Nodup := by
      have hnat : (c.spec.nodes.map (·.ip.toNat)).Nodup := by
        rw [hips]
        exact List.nodup_range'
      have hcomp : c.spec.nodes.map (·.ip.toNat) = (c.spec.nodes.map (·.ip)).map (·.toNat) := by
        rw [List.map_map]
        rfl
      rw [hcomp] at hnat
      exact hnat.of_map _
    have hregion : ∀ n ∈ c.spec.nodes, InRegion c n.ip := by
      intro n hn
      have hmem : n.ip.toNat ∈ c.spec.nodes.map (·.ip.toNat) := List.mem_map_of_mem hn
      rw [hips, List.mem_range'_1] at hmem
      rw [InRegion, hc.hosts]
      exact ⟨n.ip.toNat - nodesBase index, by omega, by omega, by rw [hbase]; omega⟩
    have htog : c.spec.hosts = none ↔ c.spec.network.range = none :=
      ⟨fun _ => hc.range, fun _ => hc.hosts⟩
    have hev := singleEvolved_edits htog hnd hregion es
    have hnow : SingleByIndex index (es.foldl edit c) := by
      rw [hev.rest]
      exact ⟨hc.le, hc.nodes, hc.hosts, hc.range, hc.routerHosts, hc.shim⟩
    exact hnow.plan hev.ips hev.region

/-- A definition of one control plane and some workers. -/
def withWorkers (workers : ℕ+) : UserCluster where
  metadata := ⟨⟨"dev", clusterName_dev⟩⟩
  spec := { nodes := [{ role := .controlPlane }, { role := .worker, count := workers }] }

def plainFacts : Facts where
  k8sDefault := "1.34.0"
  usedIndices := []
  allowOverlap := false
  tk8sVersion := "1"

/-- Three nodes keep the plan, whatever comes and goes. -/
theorem singlePlan_three : ∃ c, resolve (withWorkers 2) none plainFacts = .ok c ∧
    ∀ es : List Edit, SinglePlan (es.foldl edit c) := by
  obtain ⟨c, hc⟩ : ∃ c, resolve (withWorkers 2) none plainFacts = .ok c := by
    apply Checked.exists_eq_ok
    decide +kernel
  exact ⟨c, hc, (singlePlan_iff rfl hc).mpr (by decide)⟩

/-- The two hundredth node gets the Cluster Mesh address. -/
theorem not_singlePlan_twoHundred : ∃ c, resolve (withWorkers 199) none plainFacts = .ok c ∧
    ¬ SinglePlan c := by
  have hrun : (do
      let c ← resolve (withWorkers 199) none plainFacts
      return c.spec.nodes.any fun n => c.spec.network.nodes.network.toNat + 199 < n.ip.toNat :
        Except Raised Bool) = .ok true := by
    decide +kernel
  simp only [Checked.bind_eq_ok, Checked.pure_eq_ok, List.any_eq_true, decide_eq_true_eq] at hrun
  obtain ⟨c, hc, n, hn, hfar⟩ := hrun
  refine ⟨c, hc, fun hplan => ?_⟩
  obtain ⟨-, -, -, -, -, hoffset⟩ := hplan
  obtain ⟨k, -, hk, hip⟩ := hoffset n hn
  omega

end Tk8s
