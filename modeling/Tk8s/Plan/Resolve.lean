import Tk8s.Plan.Layout

/-!
`create/plan.py`: `resolve` and the check of a resume.

* `resolve`: what the user asked for, with the `cluster.yaml` an interrupted create left, becomes
  the cluster. `topology` is its branch on the hosts, `resolveSingle` and `resolveMulti` the two
  arms.
* `checkResume`: a resume must describe the same hosts and the same placement.
* `resolve_eq_ok`: **what an accepted definition gives**; `resolveSingle_eq_ok` and
  `resolveMulti_eq_ok` say it for the two arms.
-/

namespace Tk8s

open Net

/-- What `resolve` is told beside the definition and the recorded cluster. -/
structure Facts where
  k8sDefault : String
  usedIndices : List ℕ
  allowOverlap : Bool
  tk8sVersion : String
  lans : Option (String → Option LanFacts) := none
  operator : Option String := none

/-- Hosts, nodes and addresses: the part of the spec the two shapes build differently. -/
structure Topology where
  net : Network
  nodes : List Node
  hosts : Option (List Host)

/-! ### The hosts' LAN -/

/-- `lans[name]`. -/
def lanOf (lans : String → Option LanFacts) (name : String) : Except Raised LanFacts :=
  Checked.ofOption (.keyError name) (lans name)

/-- Every host must share one LAN: the first host's. -/
def sharedLan (lans : String → Option LanFacts) (names : List String) : Except Raised LanFacts := do
  let firstName ← Checked.ofOption .indexError names[0]?
  let first ← lanOf lans firstName
  (names.drop 1).forM fun n => do
    let lan ← lanOf lans n
    Checked.refuseIf ((lan.subnet, lan.gateway) ≠ (first.subnet, first.gateway))
      (.planError (s!"host {n} is on {lan.subnet.text} via {lan.gateway.text}, host {firstName} on "
        ++ s!"{first.subnet.text} via {first.gateway.text}; every host must share one LAN"))
  return first

/-- The reserved range lies in the LAN and holds neither its ends nor a host's own address. -/
def checkPool (lans : String → Option LanFacts) (names : List String) (first : LanFacts)
    (pool : List IPv4Address) : Except Raised Unit := do
  let rng := rangesText pool
  Checked.refuseIf (∃ ip ∈ pool, ip ∉ first.subnet)
    (.planError s!"spec.network.range {rng} is outside the hosts' network {first.subnet.text}")
  Checked.refuseIf (first.subnet.network ∈ pool)
    (.planError (s!"spec.network.range {rng}: {first.subnet.network.text} is the network address "
      ++ s!"of {first.subnet.text}"))
  Checked.refuseIf (first.subnet.broadcast ∈ pool)
    (.planError (s!"spec.network.range {rng}: {first.subnet.broadcast.text} is the broadcast "
      ++ s!"address of {first.subnet.text}"))
  names.forM fun n => do
    let lan ← lanOf lans n
    Checked.refuseIf (lan.address ∈ pool)
      (.planError (s!"host {n}'s own address {lan.address.text} is inside spec.network.range "
        ++ rng))

/-- A host as plan records it. -/
def recordHost (lans : String → Option LanFacts) (h : UserHost) : Except Raised Host := do
  let lan ← lanOf lans h.name.text
  return { name := h.name, ssh := h.ssh, iface := lan.iface }

/-- Recording keeps the names and the ways to reach the hosts. -/
lemma map_recordHost {lans : String → Option LanFacts} {userHosts : List UserHost}
    {hosts : List Host} (h : userHosts.mapM (recordHost lans) = .ok hosts) :
    hosts.map (fun h => (h.name, h.ssh)) = userHosts.map (fun h => (h.name, h.ssh)) := by
  rw [Checked.mapM_eq_ok] at h
  induction h with
  | nil => rfl
  | cons hab _ ih =>
      simp only [recordHost, Checked.bind_eq_ok, Checked.pure_eq_ok] at hab
      obtain ⟨lan, -, rfl⟩ := hab
      rw [List.map_cons, List.map_cons, ih]

/-! ### Resume -/

/-- A host keeps the LAN interface `cluster.yaml` recorded. -/
def checkIface (wasHosts : List Host) (h : Host) : Except Raised Unit :=
  match wasHosts.find? (·.name = h.name) with
  | none => .ok ()
  | some old => Checked.refuseIf (old.iface ≠ h.iface)
      (.planError (s!"cluster.yaml says host {h.name.text} on {old.iface}, the host now says "
        ++ s!"{h.iface}; delete the cluster and create it again"))

/-- A resume must describe the same hosts and the same placement: units already written on hosts
that drop out, or nodes that move, would be left running with their addresses. -/
def checkResume (name : String) (existing : Cluster) (hosts : List Host) (nodes : List Node)
    (net : Network) : Except Raised Unit :=
  match existing.spec.hosts with
  | none =>
      .error (.planError (s!"cluster {name} is being created on a single host; rerun without "
        ++ s!"--hosts, or delete it first: tkctl delete cluster {name}"))
  | some wasHosts => do
      let was := existing.spec
      hosts.forM (checkIface wasHosts)
      Checked.refuseIf (wasHosts.map (fun h => (h.name, h.ssh)) ≠ hosts.map fun h => (h.name, h.ssh))
        (.planError (s!"cluster {name} is being created on hosts "
          ++ ", ".intercalate (wasHosts.map (·.name.text))
          ++ s!"; rerun with the same --hosts, or delete it first: tkctl delete cluster {name}"))
      Checked.refuseIf
        (was.nodes.map (fun n => (n.name, n.ip, n.host)) ≠ nodes.map (fun n => (n.name, n.ip, n.host))
          ∨ was.network.routerHosts ≠ net.routerHosts ∨ was.network.range ≠ net.range)
        (.planError (s!"cluster {name} is being created with another placement or range; rerun "
          ++ s!"with the same flags, or delete it first: tkctl delete cluster {name}"))

/-- What a resume on several hosts has in common with the recorded cluster. -/
structure SamePlacement (was : Spec) (wasHosts hosts : List Host) (nodes : List Node)
    (net : Network) : Prop where
  ifaces : ∀ h ∈ hosts, ∀ old ∈ wasHosts.find? (·.name = h.name), old.iface = h.iface
  hosts : wasHosts.map (fun h => (h.name, h.ssh)) = hosts.map fun h => (h.name, h.ssh)
  nodes : was.nodes.map (fun n => (n.name, n.ip, n.host)) =
    nodes.map fun n => (n.name, n.ip, n.host)
  routerHosts : was.network.routerHosts = net.routerHosts
  range : was.network.range = net.range

lemma checkIface_eq_ok {wasHosts : List Host} {h : Host} :
    checkIface wasHosts h = .ok () ↔
      ∀ old ∈ wasHosts.find? (·.name = h.name), old.iface = h.iface := by
  unfold checkIface
  cases wasHosts.find? (·.name = h.name) <;> simp

lemma checkResume_eq_ok {name : String} {existing : Cluster} {hosts : List Host}
    {nodes : List Node} {net : Network} :
    checkResume name existing hosts nodes net = .ok () ↔ ∃ wasHosts,
      existing.spec.hosts = some wasHosts ∧
        SamePlacement existing.spec wasHosts hosts nodes net := by
  unfold checkResume
  cases existing.spec.hosts with
  | none => simp
  | some wasHosts =>
      simp only [Checked.check_bind_eq_ok, Checked.refuseIf_eq_ok, List.forM_eq_forM,
        Checked.forM_eq_ok, checkIface_eq_ok, ne_eq, not_not, not_or, Option.some_inj,
        exists_eq_left']
      constructor
      · rintro ⟨hif, hh, hn, hr, hg⟩
        exact ⟨hif, hh, hn, hr, hg⟩
      · rintro ⟨hif, hh, hn, hr, hg⟩
        exact ⟨hif, hh, hn, hr, hg⟩

/-- The number of routers a definition asks for. -/
def wantedRouters (u : UserCluster) : RouterCount := (u.spec.network.bind (·.routers)).getD .one

/-- A resume re-renders the units but removes none: the number of routers may not change. -/
def checkRouters (u : UserCluster) (existing : Option Cluster) : Except Raised Unit :=
  match existing with
  | none => .ok ()
  | some c =>
      let name := u.metadata.name.text
      Checked.refuseIf (wantedRouters u ≠ c.spec.network.routers)
        (.planError (s!"cluster {name} is being created with routers: "
          ++ s!"{c.spec.network.routers.toNat}; rerun with the same --routers (or --mode), "
          ++ s!"or delete it first: tkctl delete cluster {name}"))

/-! ### The two shapes -/

/-- One host: subnets by index, nodes from `.1` upwards. -/
def resolveSingle (u : UserCluster) (index : ℕ) : Except Raised Topology := do
  let net ← network index (u.spec.network.bind (·.router)) (u.spec.network.bind (·.ha))
    (u.spec.network.bind (·.vip)) (u.spec.network.bind (·.routers))
  let nodes ← expandNodes u.metadata.name u.spec.nodes index none none
  return ⟨net, nodes, none⟩

/-- Several hosts: the LAN, the pool, the placement, the cut. -/
def resolveMulti (u : UserCluster) (existing : Option Cluster) (f : Facts) (index : ℕ)
    (userHosts : List UserHost) : Except Raised Topology := do
  let want := u.spec.network.getD {}
  let wantRouters := want.routers.getD .one
  let lans ← Checked.ofOption
    (.planError "a multi-host cluster needs the hosts' LAN facts to be planned") f.lans
  let names := userHosts.map (·.name.text)
  let first ← sharedLan lans names
  let pool ← parseRange ((want.range.map (·.text)).getD "")
  let rng := rangesText pool
  checkPool lans names first pool
  let placed ← place u.spec.nodes names
  let routerHosts ← placeRouters want.routerHosts names wantRouters
  let shim := userHosts.any (·.ssh.isNone)
  let alloc ← allocate pool shim wantRouters (u.spec.nodes.map fun g => (g.count : ℕ)).sum
  let net ← networkMulti index first rng want.ha want.vip (some wantRouters) alloc routerHosts
  let nodes ← expandNodes u.metadata.name u.spec.nodes index (some alloc.nodes) (some placed)
  let hosts ← userHosts.mapM (recordHost lans)
  match existing with
  | none => return ⟨net, nodes, some hosts⟩
  | some c => do
      checkResume u.metadata.name.text c hosts nodes net
      return ⟨net, nodes, some hosts⟩

/-- The branch on `spec.hosts`. -/
def topology (u : UserCluster) (existing : Option Cluster) (f : Facts) (index : ℕ) :
    Except Raised Topology :=
  match u.spec.hosts with
  | none => resolveSingle u index
  | some userHosts => resolveMulti u existing f index userHosts

/-- The datapath asked for: gVisor needs veth. -/
def wantedDatapath (s : UserSpec) : Datapath :=
  s.datapath.getD (if s.gvisor then .veth else .auto)

/-- The spec around a topology; of a recorded cluster it keeps `datapath_resolved`. -/
def specOf (u : UserCluster) (existing : Option Cluster) (f : Facts) (t : Topology) : Spec where
  kubernetes := (u.spec.kubernetes.filter (· ≠ "")).getD f.k8sDefault
  datapath := wantedDatapath u.spec
  datapathResolved := existing.bind (·.spec.datapathResolved)
  gvisor := u.spec.gvisor
  network := t.net
  nodes := t.nodes
  hosts := t.hosts

/-- The status of a recorded cluster, or that of a new one. -/
def statusOf (existing : Option Cluster) (f : Facts) : Option Status :=
  match existing with
  | some c => c.status
  | none => some { phase := .creating, tk8s := f.tk8sVersion, nodeCapacity := true,
                   operator := f.operator }

/-- Turn what the user asked for into the cluster every other phase reads. -/
def resolve (u : UserCluster) (existing : Option Cluster) (f : Facts) : Except Raised Cluster := do
  validate u
  let index ← pickIndex u existing f.usedIndices
  Checked.refuseIf (existing = none ∧ index ∈ f.usedIndices ∧ f.allowOverlap = false)
    (.planError (s!"subnet 172.22.{index}.0/24 is already used by another cluster; "
      ++ "pass --allow-overlap to force"))
  checkRouters u existing
  let t ← topology u existing f index
  (specOf u existing f t).check
  return { metadata := u.metadata, spec := specOf u existing f t, status := statusOf existing f }

/-! ### What success says -/

/-- The facts behind an accepted definition. -/
structure Resolved (u : UserCluster) (existing : Option Cluster) (f : Facts) (index : ℕ)
    (t : Topology) : Prop where
  valid : validate u = .ok ()
  picked : pickIndex u existing f.usedIndices = .ok index
  free : ¬(existing = none ∧ index ∈ f.usedIndices ∧ f.allowOverlap = false)
  routers : checkRouters u existing = .ok ()
  built : topology u existing f index = .ok t
  spec : (specOf u existing f t).check = .ok ()

/-- **What an accepted definition gives.** -/
theorem resolve_eq_ok {u : UserCluster} {existing : Option Cluster} {f : Facts} {c : Cluster} :
    resolve u existing f = .ok c ↔ ∃ index t, Resolved u existing f index t ∧
      c = { metadata := u.metadata, spec := specOf u existing f t,
            status := statusOf existing f } := by
  simp only [resolve, Checked.bind_eq_ok, Checked.exists_unit, Checked.refuseIf_eq_ok,
    Checked.pure_eq_ok]
  constructor
  · rintro ⟨hv, index, hi, hf, hr, t, ht, hs, rfl⟩
    exact ⟨index, t, ⟨hv, hi, hf, hr, ht, hs⟩, rfl⟩
  · rintro ⟨index, t, ⟨hv, hi, hf, hr, ht, hs⟩, rfl⟩
    exact ⟨hv, index, hi, hf, hr, t, ht, hs, rfl⟩

/-- What `resolveMulti` computes on the way. -/
structure Parts where
  lans : String → Option LanFacts
  first : LanFacts
  pool : List IPv4Address
  placed : List String
  routerHosts : List String
  alloc : Allocation
  hosts : List Host

/-- The facts behind a multi-host topology. -/
structure Multi (u : UserCluster) (existing : Option Cluster) (f : Facts) (index : ℕ)
    (userHosts : List UserHost) (t : Topology) (p : Parts) : Prop where
  told : f.lans = some p.lans
  shared : sharedLan p.lans (userHosts.map (·.name.text)) = .ok p.first
  parsed : parseRange (((u.spec.network.getD {}).range.map (·.text)).getD "") = .ok p.pool
  checked : checkPool p.lans (userHosts.map (·.name.text)) p.first p.pool = .ok ()
  nodeHosts : place u.spec.nodes (userHosts.map (·.name.text)) = .ok p.placed
  routers : placeRouters (u.spec.network.getD {}).routerHosts (userHosts.map (·.name.text))
    ((u.spec.network.getD {}).routers.getD .one) = .ok p.routerHosts
  cut : allocate p.pool (userHosts.any (·.ssh.isNone))
    ((u.spec.network.getD {}).routers.getD .one) (u.spec.nodes.map fun g => (g.count : ℕ)).sum
      = .ok p.alloc
  net : networkMulti index p.first (rangesText p.pool) (u.spec.network.getD {}).ha
    (u.spec.network.getD {}).vip (some ((u.spec.network.getD {}).routers.getD .one)) p.alloc
    p.routerHosts = .ok t.net
  nodes : expandNodes u.metadata.name u.spec.nodes index (some p.alloc.nodes) (some p.placed)
    = .ok t.nodes
  recorded : userHosts.mapM (recordHost p.lans) = .ok p.hosts
  hosts : t.hosts = some p.hosts
  resume : ∀ c ∈ existing, checkResume u.metadata.name.text c p.hosts t.nodes t.net = .ok ()

/-- **What an accepted multi-host definition gives.** -/
theorem resolveMulti_eq_ok {u : UserCluster} {existing : Option Cluster} {f : Facts} {index : ℕ}
    {userHosts : List UserHost} {t : Topology} :
    resolveMulti u existing f index userHosts = .ok t ↔
      ∃ p, Multi u existing f index userHosts t p := by
  simp only [resolveMulti, Checked.bind_eq_ok, Checked.exists_unit, Checked.ofOption_eq_ok]
  constructor
  · rintro ⟨lans, hlans, first, hfirst, pool, hpool, hchk, placed, hplaced, rh, hrh, alloc,
      halloc, net, hnet, nodes, hnodes, hosts, hhosts, hex⟩
    refine ⟨⟨lans, first, pool, placed, rh, alloc, hosts⟩, ?_⟩
    cases existing with
    | none =>
        rw [Checked.pure_eq_ok] at hex
        subst hex
        exact ⟨hlans, hfirst, hpool, hchk, hplaced, hrh, halloc, hnet, hnodes, hhosts, rfl, by simp⟩
    | some c =>
        obtain ⟨hres, ht⟩ := Checked.check_bind_eq_ok.mp hex
        rw [Checked.pure_eq_ok] at ht
        subst ht
        exact ⟨hlans, hfirst, hpool, hchk, hplaced, hrh, halloc, hnet, hnodes, hhosts, rfl,
          by simpa using hres⟩
  · rintro ⟨p, h⟩
    refine ⟨p.lans, h.told, p.first, h.shared, p.pool, h.parsed, h.checked, p.placed, h.nodeHosts,
      p.routerHosts, h.routers, p.alloc, h.cut, t.net, h.net, t.nodes, h.nodes, p.hosts,
      h.recorded, ?_⟩
    have ht : (⟨t.net, t.nodes, some p.hosts⟩ : Topology) = t := by rw [← h.hosts]
    cases existing with
    | none => exact Checked.pure_eq_ok.mpr ht
    | some c => exact Checked.check_bind_eq_ok.mpr ⟨h.resume c rfl, Checked.pure_eq_ok.mpr ht⟩

/-- The facts behind a single-host topology. -/
structure Single (u : UserCluster) (index : ℕ) (t : Topology) : Prop where
  net : network index (u.spec.network.bind (·.router)) (u.spec.network.bind (·.ha))
    (u.spec.network.bind (·.vip)) (u.spec.network.bind (·.routers)) = .ok t.net
  nodes : expandNodes u.metadata.name u.spec.nodes index none none = .ok t.nodes
  hosts : t.hosts = none

theorem resolveSingle_eq_ok {u : UserCluster} {index : ℕ} {t : Topology} :
    resolveSingle u index = .ok t ↔ Single u index t := by
  simp only [resolveSingle, Checked.bind_eq_ok, Checked.pure_eq_ok]
  constructor
  · rintro ⟨net, hnet, nodes, hnodes, rfl⟩
    exact ⟨hnet, hnodes, rfl⟩
  · rintro ⟨hnet, hnodes, hhosts⟩
    exact ⟨t.net, hnet, t.nodes, hnodes, by rw [← hhosts]⟩

/-- The network of either shape: the index and the number of routers. -/
lemma index_of_topology {u : UserCluster} {existing : Option Cluster} {f : Facts} {index : ℕ}
    {t : Topology} (h : topology u existing f index = .ok t) :
    t.net.index = index ∧ t.net.routers = wantedRouters u := by
  rw [topology] at h
  cases hu : u.spec.hosts with
  | none =>
      rw [hu] at h
      have hf := network_fields (resolveSingle_eq_ok.mp h).net
      exact ⟨hf.1, hf.2.1⟩
  | some hosts =>
      rw [hu] at h
      obtain ⟨p, hp⟩ := resolveMulti_eq_ok.mp h
      obtain ⟨byIndex, hby, hnet⟩ := networkMulti_eq_ok.mp hp.net
      have hf := network_fields hby
      rw [hnet]
      refine ⟨hf.1, hf.2.1.trans ?_⟩
      rw [wantedRouters]
      cases u.spec.network <;> rfl

/-- The nodes of either shape come out of `expand_nodes`. -/
lemma nodes_of_topology {u : UserCluster} {existing : Option Cluster} {f : Facts} {index : ℕ}
    {t : Topology} (h : topology u existing f index = .ok t) :
    ∃ ips hosts, expandNodes u.metadata.name u.spec.nodes index ips hosts = .ok t.nodes := by
  rw [topology] at h
  cases hu : u.spec.hosts with
  | none =>
      rw [hu] at h
      exact ⟨none, none, (resolveSingle_eq_ok.mp h).nodes⟩
  | some hosts =>
      rw [hu] at h
      obtain ⟨p, hp⟩ := resolveMulti_eq_ok.mp h
      exact ⟨_, _, hp.nodes⟩

/-- The hosts of an accepted definition are reached as the user says, and as the recorded cluster
says. -/
lemma ssh_of_resolve {u : UserCluster} {existing : Option Cluster} {f : Facts} {c : Cluster}
    (h : resolve u existing f = .ok c) :
    c.spec.hosts.map (·.map (·.ssh)) = u.spec.hosts.map (·.map (·.ssh)) ∧
      (u.spec.hosts.isSome = true → ∀ c₀ ∈ existing,
        c₀.spec.hosts.map (·.map (·.ssh)) = c.spec.hosts.map (·.map (·.ssh))) := by
  obtain ⟨index, t, hr, rfl⟩ := resolve_eq_ok.mp h
  have hbuilt := hr.built
  rw [topology] at hbuilt
  cases hu : u.spec.hosts with
  | none =>
      rw [hu] at hbuilt
      simp [specOf, (resolveSingle_eq_ok.mp hbuilt).hosts]
  | some userHosts =>
      rw [hu] at hbuilt
      obtain ⟨p, hp⟩ := resolveMulti_eq_ok.mp hbuilt
      have hssh := congrArg (List.map Prod.snd) (map_recordHost hp.recorded)
      simp only [List.map_map, Function.comp_def] at hssh
      refine ⟨by simp [specOf, hp.hosts, hssh], fun _ c₀ hc₀ => ?_⟩
      obtain ⟨was, hwas, hsame⟩ := checkResume_eq_ok.mp (hp.resume c₀ hc₀)
      have hold := congrArg (List.map Prod.snd) hsame.hosts
      simp only [List.map_map, Function.comp_def] at hold
      simp [specOf, hp.hosts, hwas, hold]

/-- Success of the checks on the pool. -/
lemma checkPool_eq_ok {lans : String → Option LanFacts} {names : List String} {first : LanFacts}
    {pool : List IPv4Address} :
    checkPool lans names first pool = .ok () ↔
      (∀ ip ∈ pool, ip ∈ first.subnet) ∧ first.subnet.network ∉ pool ∧
        first.subnet.broadcast ∉ pool ∧
        ∀ n ∈ names, ∃ lan, lans n = some lan ∧ lan.address ∉ pool := by
  simp only [checkPool, Checked.check_bind_eq_ok, Checked.refuseIf_eq_ok, List.forM_eq_forM,
    Checked.forM_eq_ok, lanOf]
  refine and_congr (by simp) (and_congr Iff.rfl (and_congr Iff.rfl ?_))
  refine forall₂_congr fun n _ => ?_
  simp only [Checked.bind_eq_ok, Checked.ofOption_eq_ok, Checked.refuseIf_eq_ok]

end Tk8s
