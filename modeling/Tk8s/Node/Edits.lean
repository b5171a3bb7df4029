import Tk8s.Node.Common

/-!
The node verbs keep a cluster well formed, whatever their order.

* `WellFormed`: node names and addresses are distinct, addresses lie in the node region, hosts are
  listed ones, the first node is a control plane, at most five are.
* `Evolved`: what a cluster has in common with the one the verbs started from.
* `evolved_edit`: **one edit** keeps both; `evolved_edits`: **any sequence** does.
-/

namespace Tk8s

open Net

/-! ### Well-formed clusters -/

/-- Where a node may be: offsets 1 to 199 of the node subnet, or the node region. -/
def InRegion (c : Cluster) (ip : IPv4Address) : Prop :=
  match c.spec.hosts with
  | none => ∃ k, 1 ≤ k ∧ k ≤ 199 ∧ ip.toNat = c.spec.network.nodes.network.toNat + k
  | some _ => ∃ region, nodeRegion c = .ok region ∧ ip ∈ region

/-- Where a node may run: a listed host, or none on a single host. -/
def HostListed (c : Cluster) (host : Option String) : Prop :=
  (c.spec.hosts = none → host = none) ∧
    (c.spec.hosts ≠ none → ∃ name ∈ host, name ∈ c.hostNames)

structure WellFormed (c : Cluster) : Prop where
  names : (c.spec.nodes.map (·.name)).Nodup
  ips : (c.spec.nodes.map (·.ip)).Nodup
  region : ∀ n ∈ c.spec.nodes, InRegion c n.ip
  hosts : ∀ n ∈ c.spec.nodes, HostListed c n.host
  first : ∃ n ∈ c.spec.nodes.head?, n.role = .controlPlane
  cps : 1 ≤ c.controlPlanes.length ∧ c.controlPlanes.length ≤ 5

/-- The first node, which may have been marked as joined since. -/
def SameFirst (first now : Node) : Prop := now = first ∨ now = { first with join := true }

/-- A well-formed cluster with the first node of `c₀`, and equal to `c₀` outside the node list. -/
structure Evolved (c₀ c : Cluster) : Prop where
  wf : WellFormed c
  first : ∃ n₀ ∈ c₀.spec.nodes.head?, ∃ n ∈ c.spec.nodes.head?, SameFirst n₀ n
  rest : c = c₀.withNodes c.spec.nodes

/-! ### The node list -/

/-- A new node fits behind the others when its name and address are new. -/
lemma wellFormed_append {c : Cluster} {n : Node} (hwf : WellFormed c)
    (hname : n.name ∉ c.spec.nodes.map (·.name)) (hip : n.ip ∉ c.spec.nodes.map (·.ip))
    (hregion : InRegion c n.ip) (hhost : HostListed c n.host)
    (hcp : ¬(n.role = .controlPlane ∧ 5 ≤ c.controlPlanes.length)) :
    WellFormed (withNode c n) := by
  have happend : ∀ {α : Type} (l : List α) (x : α), l.Nodup → x ∉ l → (l ++ [x]).Nodup := by
    intro α l x hl hx
    refine List.nodup_append.mpr ⟨hl, by simp, fun a ha b hb hab => hx ?_⟩
    rwa [← List.mem_singleton.mp hb, ← hab]
  obtain ⟨first, hfirst, hrole⟩ := hwf.first
  have hforall : ∀ P : Node → Prop, (∀ m ∈ c.spec.nodes, P m) → P n →
      ∀ m ∈ (withNode c n).spec.nodes, P m := by
    intro P hold hnew m hm
    rcases List.mem_append.mp hm with hm | hm
    · exact hold m hm
    · exact List.mem_singleton.mp hm ▸ hnew
  have hcps : (withNode c n).controlPlanes.length =
      c.controlPlanes.length + if n.role = .controlPlane then 1 else 0 := by
    by_cases hr : n.role = .controlPlane
    · simp [withNode, Cluster.controlPlanes, List.filter_append, hr]
    · simp [withNode, Cluster.controlPlanes, List.filter_append, hr]
  refine ⟨?_, ?_, hforall _ hwf.region hregion, hforall _ hwf.hosts hhost, ⟨first, ?_, hrole⟩, ?_⟩
  · rw [withNode, Cluster.withNodes_nodes, List.map_append]
    exact happend _ _ hwf.names hname
  · rw [withNode, Cluster.withNodes_nodes, List.map_append]
    exact happend _ _ hwf.ips hip
  · rw [withNode, Cluster.withNodes_nodes, List.head?_append, Option.mem_def.mp hfirst]
    rfl
  · have h1 := hwf.cps
    rw [hcps]
    by_cases hr : n.role = .controlPlane
    · have h5 : ¬ 5 ≤ c.controlPlanes.length := fun hle => hcp ⟨hr, hle⟩
      rw [if_pos hr]
      omega
    · rw [if_neg hr]
      exact h1

/-- Nodes that keep their name, address, role and host stay well formed. -/
lemma wellFormed_map {c : Cluster} {g : Node → Node} (hwf : WellFormed c)
    (hg : ∀ n, (g n).name = n.name ∧ (g n).ip = n.ip ∧ (g n).role = n.role ∧ (g n).host = n.host) :
    WellFormed (c.withNodes (c.spec.nodes.map g)) := by
  obtain ⟨first, hfirst, hrole⟩ := hwf.first
  have hcps : (c.withNodes (c.spec.nodes.map g)).controlPlanes.length =
      c.controlPlanes.length := by
    rw [Cluster.controlPlanes, Cluster.withNodes_nodes, List.filter_map, List.length_map]
    congr 2
    funext n
    rw [Function.comp_apply, (hg n).2.2.1]
  refine ⟨?_, ?_, ?_, ?_, ⟨g first, ?_, (hg first).2.2.1.trans hrole⟩, ?_⟩
  · rw [Cluster.withNodes_nodes, List.map_map]
    convert hwf.names using 2
    funext n
    exact (hg n).1
  · rw [Cluster.withNodes_nodes, List.map_map]
    convert hwf.ips using 2
    funext n
    exact (hg n).2.1
  · intro m hm
    obtain ⟨n, hn, rfl⟩ := List.mem_map.mp hm
    rw [(hg n).2.1]
    exact hwf.region n hn
  · intro m hm
    obtain ⟨n, hn, rfl⟩ := List.mem_map.mp hm
    rw [(hg n).2.2.2]
    exact hwf.hosts n hn
  · rw [Cluster.withNodes_nodes, List.head?_map, Option.mem_def.mp hfirst]
    rfl
  · rw [hcps]
    exact hwf.cps

/-- Nodes may go, as long as the first one stays. -/
lemma wellFormed_filter {c : Cluster} {p : Node → Bool} (hwf : WellFormed c)
    (hp : ∀ first ∈ c.spec.nodes.head?, p first = true) :
    (c.spec.nodes.filter p).head? = c.spec.nodes.head? ∧
      WellFormed (c.withNodes (c.spec.nodes.filter p)) := by
  obtain ⟨first, hfirst, hrole⟩ := hwf.first
  have hhead : (c.spec.nodes.filter p).head? = c.spec.nodes.head? := by
    obtain ⟨l, hl⟩ := List.head?_eq_some_iff.mp (Option.mem_def.mp hfirst)
    rw [hl, List.filter_cons_of_pos (hp first hfirst), List.head?_cons, List.head?_cons]
  have hsub : (c.spec.nodes.filter p).Sublist c.spec.nodes := List.filter_sublist
  refine ⟨hhead, ⟨(hsub.map _).nodup hwf.names, (hsub.map _).nodup hwf.ips, ?_, ?_,
    ⟨first, hhead ▸ hfirst, hrole⟩, ?_⟩⟩
  · exact fun n hn => hwf.region n (hsub.mem hn)
  · exact fun n hn => hwf.hosts n (hsub.mem hn)
  · have hmem : first ∈ (c.withNodes (c.spec.nodes.filter p)).controlPlanes := by
      refine List.mem_filter.mpr ⟨?_, by simpa using hrole⟩
      exact List.mem_of_mem_head? (hhead ▸ hfirst)
    have hle := (hsub.filter (·.role = .controlPlane)).length_le
    exact ⟨List.length_pos_of_mem hmem, hle.trans hwf.cps.2⟩

/-! ### One edit -/

/-- The next address is free, and where nodes may be. -/
lemma nextIp_fresh {c : Cluster} {ip : IPv4Address} (hnodes : ∀ n ∈ c.spec.nodes, InRegion c n.ip)
    (htog : c.spec.hosts = none ↔ c.spec.network.range = none) (h : nextIp c = .ok ip) :
    ip ∉ c.spec.nodes.map (·.ip) ∧ InRegion c ip := by
  cases hh : c.spec.hosts with
  | none =>
      obtain ⟨last, hmax, hle, heq⟩ := nextIp_single_eq_ok (htog.mp hh) h
      obtain ⟨hlast, hall⟩ := List.max?_eq_some_iff.mp hmax
      obtain ⟨n, hn, hoff⟩ := List.mem_map.mp hlast
      have hregion := hnodes n hn
      rw [InRegion, hh] at hregion
      obtain ⟨k, hk1, hk2, hk⟩ := hregion
      rw [nodeOffset] at hoff
      refine ⟨fun hmem => ?_, ?_⟩
      · -- every node's offset is at most the highest one
        obtain ⟨m, hm, rfl⟩ := List.mem_map.mp hmem
        have hmle := hall _ (List.mem_map_of_mem hm)
        rw [nodeOffset] at hmle
        omega
      · rw [InRegion, hh]
        exact ⟨k + 1, by omega, by omega, by omega⟩
  | some hosts =>
      cases hr : c.spec.network.range with
      | none => simp [htog.mpr hr] at hh
      | some rng =>
          rw [nextIp, hr] at h
          obtain ⟨hnot, region, hregion, hmem⟩ := nextIpInRange_eq_ok h
          refine ⟨hnot, ?_⟩
          rw [InRegion, hh]
          exact ⟨region, hregion, hmem⟩

/-- **One successful edit** keeps the cluster well formed, its first node, and everything outside
the node list. -/
lemma evolved_apply {c₀ c c' : Cluster} {e : Edit}
    (htog : c₀.spec.hosts = none ↔ c₀.spec.network.range = none) (hc : Evolved c₀ c)
    (h : e.apply c = .ok c') : Evolved c₀ c' := by
  have hrest : ∀ l, c.withNodes l = c₀.withNodes l := by
    intro l
    rw [hc.rest, Cluster.withNodes_withNodes]
  have htog' : c.spec.hosts = none ↔ c.spec.network.range = none := by
    rw [hc.rest]
    exact htog
  obtain ⟨n₀, hn₀, n, hn, hsame⟩ := hc.first
  cases e with
  | add req =>
      obtain ⟨new, hnew, rfl⟩ := Checked.map_eq_ok.mp h
      obtain ⟨hcp, hrole, hname, hip, hhost⟩ := planAdd_eq_ok hnew
      obtain ⟨hfree, hregion⟩ := nextIp_fresh hc.wf.region htog' hip
      refine ⟨wellFormed_append hc.wf (hname ▸ nextName_notMem c req.role) hfree hregion
        (hostForRequest_eq_ok hhost) (hrole ▸ hcp), ⟨n₀, hn₀, n, ?_, hsame⟩, hrest _⟩
      rw [withNode, Cluster.withNodes_nodes, List.head?_append, Option.mem_def.mp hn]
      rfl
  | joined name =>
      obtain rfl := Except.ok.inj h
      refine ⟨wellFormed_map hc.wf fun m => ?_, ⟨n₀, hn₀, n.joinedIf name, ?_, ?_⟩, hrest _⟩
      · rcases m.joinedIf_eq name with hm | hm <;> rw [hm] <;> exact ⟨rfl, rfl, rfl, rfl⟩
      · rw [markedJoined, Cluster.withNodes_nodes, List.head?_map, Option.mem_def.mp hn]
        rfl
      · rcases n.joinedIf_eq name with hm | hm
        · rw [hm]
          exact hsame
        · rw [hm]
          rcases hsame with rfl | rfl <;> exact Or.inr rfl
  | remove name =>
      obtain ⟨rfl, hkeep⟩ := withoutNode_eq_ok h
      obtain ⟨hhead, hwf⟩ := wellFormed_filter hc.wf (p := fun m => m.name.text ≠ name)
        fun first hfirst => by simpa using hkeep first hfirst
      exact ⟨hwf, ⟨n₀, hn₀, n, hhead ▸ hn, hsame⟩, hrest _⟩

/-- An edit that fails leaves the cluster as it was. -/
lemma edit_of_error {c : Cluster} {e : Edit} {err : Raised} (h : e.apply c = .error err) :
    edit c e = c := by
  rw [edit, h]

/-- **One edit**, successful or not. -/
lemma evolved_edit {c₀ c : Cluster} (e : Edit)
    (htog : c₀.spec.hosts = none ↔ c₀.spec.network.range = none) (hc : Evolved c₀ c) :
    Evolved c₀ (edit c e) := by
  cases h : e.apply c with
  | error err =>
      rw [edit_of_error h]
      exact hc
  | ok c' =>
      have hedit : edit c e = c' := by rw [edit, h]
      exact hedit ▸ evolved_apply htog hc h

/-! ### Any sequence -/

/-- A valid spec has hosts and a range, or neither. -/
lemma Spec.together {s : Spec} (h : s.check = .ok ()) :
    s.hosts = none ↔ s.network.range = none := by
  simp only [Spec.check, Checked.check_bind_eq_ok, Checked.refuseIf_eq_ok, ne_eq, not_not] at h
  exact iff_of_eq h.2.1

/-- **Any sequence of node verbs keeps a valid, well-formed cluster well formed**, keeps its first
node, and changes nothing outside the node list; an edit that fails changes nothing. -/
theorem evolved_edits {c : Cluster} (hcheck : c.spec.check = .ok ()) (hwf : WellFormed c)
    (es : List Edit) :
    Evolved c (es.foldl edit c) ∧
      ∀ e err, e.apply (es.foldl edit c) = .error err →
        (es ++ [e]).foldl edit c = es.foldl edit c := by
  refine ⟨?_, fun e err herr => ?_⟩
  · obtain ⟨first, hfirst, -⟩ := hwf.first
    have hstart : Evolved c c := ⟨hwf, ⟨first, hfirst, first, hfirst, Or.inl rfl⟩, rfl⟩
    exact List.foldlRecOn es edit hstart fun c' hc' e _ =>
      evolved_edit e (Spec.together hcheck) hc'
  · rw [List.foldl_append, List.foldl_cons, List.foldl_nil, edit_of_error herr]

/-- A cluster of one node. -/
def loneCluster : Cluster where
  metadata := ⟨⟨"dev", clusterName_dev⟩⟩
  spec :=
    { kubernetes := "1.34.0", datapath := .auto, gvisor := false
      network :=
        { index := 0
          nodes := ⟨⟨0xAC160000, by decide⟩, 24, prefixlen_24, by decide⟩
          gateway := ⟨0xAC1600FE, by decide⟩
          router := ⟨0xAC1600FD, by decide⟩
          lbRange := "172.22.0.201-172.22.0.219"
          pods := ⟨⟨0x0AF40000, by decide⟩, 21, prefixlen_21, by decide⟩
          services := ⟨⟨0x0A620000, by decide⟩, 24, prefixlen_24, by decide⟩ }
      nodes :=
        [{ role := .controlPlane, name := ⟨"dev-control-plane-1", by decide⟩
           ip := ⟨0xAC160001, by decide⟩, cpu := 2, memory := ⟨"4g", memory_4g⟩ }] }

lemma wellFormed_loneCluster : WellFormed loneCluster where
  names := List.nodup_singleton _
  ips := List.nodup_singleton _
  region := by
    intro n hn
    obtain rfl := List.mem_singleton.mp hn
    exact ⟨1, by decide, by decide, rfl⟩
  hosts := by
    intro n hn
    obtain rfl := List.mem_singleton.mp hn
    exact ⟨fun _ => rfl, fun hne => absurd rfl hne⟩
  first := ⟨_, rfl, rfl⟩
  cps := by decide

/-- A worker comes, joins and goes; the first node cannot. -/
theorem evolved_loneCluster :
    Evolved loneCluster ([.add { role := .worker }, .joined "dev-worker-1",
      .remove "dev-control-plane-1", .remove "dev-worker-1"].foldl edit loneCluster) :=
  (evolved_edits (by decide) wellFormed_loneCluster _).1

end Tk8s
