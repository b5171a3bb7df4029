import Tk8s.Plan.Validate

/-!
`create/plan.py`: the address cut, the placement, and the nodes.

* `allocate`: the pool of a multi-host cluster cut in a fixed order; `allocate_eq_ok` says which
  position goes to what.
* `nodeRegion`: the pool addresses nodes may take.
* `place`, `placeRouters`: a host per node and per router container.
* `network`, `networkMulti`: the `Network` of `cluster.yaml`.
* `expandNodes`: each group becomes its nodes; `expandFrom_eq_ok` reads the loop as a statement
  about positions.
-/

namespace Tk8s

open Net

/-- What a host says about its LAN. -/
structure LanFacts where
  iface : String
  subnet : IPv4Network
  gateway : IPv4Address
  address : IPv4Address
deriving DecidableEq

/-! ### The address range -/

/-- `LB_POOL`: LoadBalancer addresses, the tail of the pool. -/
def lbPool : ℕ := 5

/-- `MESH_POOL`: one address for the clustermesh-apiserver, just before the tail. -/
def meshPool : ℕ := 1

/-- The router containers with an address of their own. -/
def physical : RouterCount → ℕ
  | .one => 0
  | .two => 2

structure Allocation where
  router : IPv4Address
  shim : Option IPv4Address
  nodes : List IPv4Address
  mesh : IPv4Address
  lbRange : String
deriving DecidableEq

/-- The pool cut in a fixed order: the floating address, the router containers' own, the shim, the
nodes, free addresses, the Cluster Mesh address, and the LoadBalancer pool at the tail. -/
def allocate (pool : List IPv4Address) (shim : Bool) (routers : RouterCount) (nodes : ℕ) :
    Except Raised Allocation := do
  let physical := physical routers
  let shims := if shim then 1 else 0
  let tail := meshPool + lbPool
  let need := 1 + physical + shims + nodes + tail
  Checked.refuseIf (pool.length < need)
    (.planError (s!"spec.network.range {rangesText pool} has {pool.length} addresses; this cluster "
      ++ s!"needs {need} (1 router address, {physical} router container addresses, "
      ++ s!"{shims} operator shim, {nodes} nodes, {meshPool} Cluster Mesh address, "
      ++ s!"{lbPool} LoadBalancer addresses)"))
  let cursor := 1 + physical
  let shimIp ← if shim then some <$> Checked.ofOption .indexError pool[cursor]? else pure none
  let cursor := cursor + shims
  let router ← Checked.ofOption .indexError pool[0]?
  let mesh ← Checked.ofOption .indexError pool[pool.length - tail]?
  return { router := router, shim := shimIp, nodes := (pool.drop cursor).take nodes, mesh := mesh,
           lbRange := rangesText (pool.drop (pool.length - lbPool)) }

/-- The cut, position by position. -/
structure Cut (pool : List IPv4Address) (shim : Bool) (routers : RouterCount) (nodes : ℕ)
    (a : Allocation) : Prop where
  enough : 1 + physical routers + shim.toNat + nodes + 6 ≤ pool.length
  router : pool[0]? = some a.router
  shims : a.shim.toList = (pool.drop (1 + physical routers)).take shim.toNat
  nodes : a.nodes = (pool.drop (1 + physical routers + shim.toNat)).take nodes
  mesh : pool[pool.length - 6]? = some a.mesh
  lbRange : a.lbRange = rangesText (pool.drop (pool.length - 5))

lemma allocate_cut {pool : List IPv4Address} {shim : Bool} {routers : RouterCount} {nodes : ℕ}
    {a : Allocation} (h : allocate pool shim routers nodes = .ok a) :
    Cut pool shim routers nodes a := by
  simp only [allocate, Checked.check_bind_eq_ok, Checked.refuseIf_eq_ok, Nat.not_lt] at h
  obtain ⟨hlen, h⟩ := h
  cases shim with
  | false =>
      simp only [Bool.false_eq_true, if_false, Checked.bind_eq_ok, Checked.ofOption_eq_ok,
        Checked.pure_eq_ok, exists_eq_left'] at h
      obtain ⟨router, hrouter, mesh, hmesh, rfl⟩ := h
      exact ⟨hlen, hrouter, rfl, rfl, hmesh, rfl⟩
  | true =>
      simp only [if_true, Checked.bind_eq_ok, Checked.map_eq_ok, Checked.ofOption_eq_ok,
        Checked.pure_eq_ok] at h
      obtain ⟨-, ⟨ip, hip, rfl⟩, router, hrouter, mesh, hmesh, rfl⟩ := h
      refine ⟨hlen, hrouter, ?_, rfl, hmesh, rfl⟩
      obtain ⟨hlt, hget⟩ := List.getElem?_eq_some_iff.mp hip
      change [ip] = _
      rw [List.drop_eq_getElem_cons hlt, hget]
      rfl

/-- `l[start:stop]`: a negative end counts from the back. -/
def slice {α : Type} (l : List α) (start : ℕ) (stop : ℤ) : List α :=
  (l.take (if stop < 0 then stop + l.length else stop).toNat).drop start

/-- The pool addresses nodes may take: after the fixed head, before the LoadBalancer tail. -/
def nodeRegion (c : Cluster) : Except Raised (List IPv4Address) := do
  let net := c.spec.network
  let pool ← parseRange (net.range.getD "")
  let head := 1 + physical net.routers + if net.shim.isSome then 1 else 0
  return slice pool head ((pool.length : ℤ) - meshPool - lbPool)

/-! ### Placement -/

/-- Each group's entry once for every node of it. -/
def unroll (groups : List NodeGroup) : List NodeGroup :=
  groups.flatMap fun g => List.replicate g.count g

/-- Round-robin over the hosts for one role: a pinned node takes no turn. -/
def placeRole (hosts : List String) (turn : ℕ) : List (Option String) → Except Raised (List String × ℕ)
  | [] => .ok ([], turn)
  | some h :: rest => do
      let (out, turn) ← placeRole hosts turn rest
      return (h :: out, turn)
  | none :: rest => do
      let h ← Checked.ofOption .zeroDivisionError hosts[turn % hosts.length]?
      let (out, turn) ← placeRole hosts (turn + 1) rest
      return (h :: out, turn)

/-- Back into `cluster.yaml` order: the next host of each entry's role. -/
def weave : List Role → List String → List String → List String
  | .controlPlane :: roles, h :: cps, wks => h :: weave roles cps wks
  | .worker :: roles, cps, h :: wks => h :: weave roles cps wks
  | _, _, _ => []

/-- A host per expanded node: control planes round-robin from the first host, workers carry on
from where they stopped; a group with a host stays there. -/
def place (groups : List NodeGroup) (hosts : List String) : Except Raised (List String) := do
  let pins (role : Role) := ((unroll groups).filter (·.role = role)).map (·.pinned)
  let (cps, turn) ← placeRole hosts 0 (pins .controlPlane)
  let (wks, _) ← placeRole hosts turn (pins .worker)
  return weave ((unroll groups).map (·.role)) cps wks

/-- router-1 on the first host, router-2 on the second (one host: both on it). -/
def placeRouters (want : Option (List String)) (hosts : List String) (routers : RouterCount) :
    Except Raised (List String) :=
  match want with
  | some l => .ok l
  | none => (List.range routers.toNat).mapM fun i =>
      Checked.ofOption .zeroDivisionError hosts[i % hosts.length]?

/-! ### The network -/

/-- `IPv4Address(f"{a}.{b}.{c}.{d}")`, or what `ipaddress` raises. -/
def ipv4 (a b c d : ℕ) : Except Raised IPv4Address :=
  Checked.ofOption (.addressError s!"{a}.{b}.{c}.{d}") (IPv4Address.quad a b c d)

/-- `IPv4Network(f"{a}.{b}.{c}.{d}/{prefixlen}")`. -/
def subnet (a b c d prefixlen : ℕ) (h : prefixlen ≤ 32) : Except Raised IPv4Network := do
  let ip ← ipv4 a b c d
  Checked.ofOption (.addressError s!"{a}.{b}.{c}.{d}/{prefixlen}")
    (IPv4Network.strict ip prefixlen h)

/-- `172.22.N.0/24`, and the `N` it names. -/
def subnetIndex (n : IPv4Network) : Option ℕ :=
  if n.prefixlen = 24 ∧ n.network.octet 3 = 172 ∧ n.network.octet 2 = 22 ∧ n.network.octet 0 = 0 then
    some (n.network.octet 1)
  else none

/-- The smallest number that is not in `used`, from `n` on; `fuel` numbers are looked at. -/
def smallestUnused (used : List ℕ) (n : ℕ) : ℕ → ℕ
  | 0 => n
  | fuel + 1 => if n ∈ used then smallestUnused used (n + 1) fuel else n

/-- The index recorded for this cluster, else the one an explicit subnet implies, else the
smallest one no other cluster uses. -/
def pickIndex (u : UserCluster) (existing : Option Cluster) (used : List ℕ) : Except Raised ℕ :=
  match existing with
  | some c => .ok c.spec.network.index
  | none =>
      match u.spec.network.bind (·.nodes) with
      | some want =>
          Checked.ofOption
            (.planError "spec.network.nodes must be 172.22.N.0/24 (N = 0..255) or omitted for automatic allocation")
            (subnetIndex want)
      | none => .ok (smallestUnused used 0 used.length)

/-- `172.22.<index>.220-253`: where an explicit router address may be. -/
def routerAllowed (index : ℕ) (a : IPv4Address) : Bool :=
  a.octet 3 = 172 && a.octet 2 = 22 && a.octet 1 = index && 220 ≤ a.octet 0 && a.octet 0 ≤ 253

/-- The checks of an explicit router address. -/
def checkWantRouter (index : ℕ) (routers : Option RouterCount) :
    Option IPv4Address → Except Raised Unit
  | none => .ok ()
  | some r => do
      Checked.refuseIf (routerAllowed index r = false)
        (.planError (s!"spec.network.router {r.text} must be 172.22.{index}.220-253 "
          ++ "(the default is .253)"))
      Checked.refuseIf (routers = some .two ∧ (r.octet 0 = 251 ∨ r.octet 0 = 252))
        (.planError (s!"spec.network.router {r.text} is a router itself with routers: 2 "
          ++ s!"(.251 and .252); pick another 172.22.{index}.220-253"))

/-- The checks of an explicit VIP. -/
def checkWantVip (index : ℕ) (mode : Ha) (vipNet : IPv4Network) :
    Option IPv4Address → Except Raised Unit
  | none => .ok ()
  | some v => do
      Checked.refuseIf (mode ≠ .bgp)
        (.planError s!"spec.network.vip {v.text} is only used with ha: bgp")
      Checked.refuseIf (v ∉ vipNet ∨ v = vipNet.network ∨ v = vipNet.broadcast)
        (.planError (s!"spec.network.vip {v.text} must be a host address in {vipNet.text} "
          ++ s!"(the default is 172.23.{index}.1)"))

/-- The anycast address of bgp mode: the one asked for, or `172.23.N.1`. -/
def pickVip (index : ℕ) (wantVip : Option IPv4Address) : Ha → Except Raised (Option IPv4Address)
  | .proxy => .ok none
  | .bgp => some <$> (match wantVip with
      | some v => .ok v
      | none => ipv4 172 23 index 1)

/-- The subnets and addresses of a single-host cluster, by its index. -/
def network (index : ℕ) (wantRouter : Option IPv4Address) (ha : Option Ha)
    (wantVip : Option IPv4Address) (routers : Option RouterCount) : Except Raised Network := do
  let mode := ha.getD .proxy
  checkWantRouter index routers wantRouter
  let vipNet ← subnet 172 23 index 0 24 (by decide)
  checkWantVip index mode vipNet wantVip
  let vip ← pickVip index wantVip mode
  let nodes ← subnet 172 22 index 0 24 (by decide)
  let gateway ← ipv4 172 22 index 254
  let default ← ipv4 172 22 index 253
  let mesh ← ipv4 172 22 index 200
  let pods ← subnet 10 244 (index * 8) 0 21 (by decide)
  let services ← subnet 10 98 index 0 24 (by decide)
  let net : Network :=
    { index := index, nodes := nodes, gateway := gateway, router := wantRouter.getD default,
      ha := mode, routers := routers.getD .one, vip := vip,
      lbRange := s!"172.22.{index}.201-172.22.{index}.219", mesh := some mesh, pods := pods,
      services := services }
  net.check
  return net

/-- The LAN is the node subnet and its gateway the router's upstream; the index still picks the pod
and service subnets and the VIP. -/
def networkMulti (index : ℕ) (lan : LanFacts) (rng : String) (ha : Option Ha)
    (wantVip : Option IPv4Address) (routers : Option RouterCount) (alloc : Allocation)
    (routerHosts : List String) : Except Raised Network := do
  let byIndex ← network index none ha wantVip routers
  return { byIndex with
    nodes := lan.subnet, gateway := lan.gateway, router := alloc.router, lbRange := alloc.lbRange,
    range := some rng, routerHosts := some routerHosts, shim := alloc.shim,
    mesh := some alloc.mesh }

/-- The fields of a single-host network that its index does not decide. -/
lemma network_fields {index : ℕ} {wantRouter : Option IPv4Address} {ha : Option Ha}
    {wantVip : Option IPv4Address} {routers : Option RouterCount} {net : Network}
    (h : network index wantRouter ha wantVip routers = .ok net) :
    net.index = index ∧ net.routers = routers.getD .one ∧ net.range = none ∧
      net.routerHosts = none ∧ net.shim = none := by
  simp only [network, Checked.bind_eq_ok, Checked.exists_unit, Checked.pure_eq_ok] at h
  obtain ⟨-, vipNet, -, -, vip, -, nodes, -, gateway, -, default, -, mesh, -, pods, -, services, -,
    -, rfl⟩ := h
  exact ⟨rfl, rfl, rfl, rfl, rfl⟩

/-- The fields of a multi-host network that the LAN and the cut decide. -/
lemma networkMulti_eq_ok {index : ℕ} {lan : LanFacts} {rng : String} {ha : Option Ha}
    {wantVip : Option IPv4Address} {routers : Option RouterCount} {alloc : Allocation}
    {routerHosts : List String} {net : Network} :
    networkMulti index lan rng ha wantVip routers alloc routerHosts = .ok net ↔
      ∃ byIndex, network index none ha wantVip routers = .ok byIndex ∧
        net = { byIndex with
          nodes := lan.subnet, gateway := lan.gateway, router := alloc.router,
          lbRange := alloc.lbRange, range := some rng, routerHosts := some routerHosts,
          shim := alloc.shim, mesh := some alloc.mesh } := by
  simp only [networkMulti, Checked.bind_eq_ok, Checked.pure_eq_ok, eq_comm (b := net)]

/-! ### Nodes -/

/-- `<cluster>-<role>-N`. -/
def autoText (name : String) (role : Role) (n : ℕ) : String :=
  name ++ "-" ++ role.text ++ "-" ++ n.repr

lemma nameChar_of_mem {s : String} (h : nodeNamePattern s = true) :
    ∀ ch ∈ s.toList, nameChar ch = true := by
  rw [nodeNamePattern] at h
  cases hs : s.toList with
  | nil => simp
  | cons d ds =>
      rw [hs] at h
      simp only [Bool.and_eq_true, List.all_eq_true] at h
      intro ch hch
      rcases List.mem_cons.mp hch with rfl | hmem
      · simp [nameChar, h.1]
      · exact h.2 ch hmem

lemma nodeNamePattern_append {s t : String} (hs : nodeNamePattern s = true)
    (ht : t.toList.all nameChar = true) : nodeNamePattern (s ++ t) = true := by
  unfold nodeNamePattern at hs ⊢
  rw [String.toList_append]
  split at hs
  · rename_i c cs hcs
    rw [hcs, List.cons_append]
    simp only [Bool.and_eq_true, List.all_append] at hs ⊢
    exact ⟨hs.1, hs.2, ht⟩
  · simp at hs

lemma nameChar_repr (n : ℕ) : n.repr.toList.all nameChar = true :=
  List.all_eq_true.mpr fun c hc => by simp [nameChar, Text.isDigit_of_mem_repr hc]

lemma nodeNamePattern_autoText (name : ClusterName) (role : Role) (n : ℕ) :
    nodeNamePattern (autoText name.text role n) = true := by
  have hname : nodeNamePattern name.text = true := by
    have := name.ok
    simp only [clusterNamePattern, Bool.and_eq_true] at this
    exact this.1
  have hrole : role.text.toList.all nameChar = true := by cases role <;> decide
  exact nodeNamePattern_append (nodeNamePattern_append (nodeNamePattern_append
    (nodeNamePattern_append hname (by decide)) hrole) (by decide)) (nameChar_repr n)

/-- The automatic name of a node. -/
def autoName (name : ClusterName) (role : Role) (n : ℕ) : NodeName :=
  ⟨autoText name.text role n, nodeNamePattern_autoText name role n⟩

/-- The address of node number `ip`: the next one given, or `172.22.<index>.<ip>`. -/
def nodeAddress (index : ℕ) (ips : Option (List IPv4Address)) (ip : ℕ) :
    Except Raised IPv4Address :=
  match ips with
  | some l => Checked.ofOption .indexError l[ip - 1]?
  | none => ipv4 172 22 index ip

/-- The host of node number `ip`, on several hosts. -/
def nodeHost (hosts : Option (List String)) (ip : ℕ) : Except Raised (Option String) :=
  match hosts with
  | some l => some <$> Checked.ofOption .indexError l[ip - 1]?
  | none => .ok none

/-- Node number `ip` of the cluster, number `n` of its role. -/
def expandNode (name : ClusterName) (index : ℕ) (ips : Option (List IPv4Address))
    (hosts : Option (List String)) (ip n : ℕ) (g : NodeGroup) : Except Raised Node := do
  let address ← nodeAddress index ips ip
  let host ← nodeHost hosts ip
  let memory ← Checked.ofOption (.validationError "String should match pattern '^[0-9]+[gm]$'")
    (Matching.ofText? g.memory.toLower)
  return { role := g.role, name := g.name.getD (autoName name g.role n), ip := address,
           cpu := g.cpu, memory := memory, join := g.join, host := host }

/-- The loop over the nodes, with its counters: `ip` over all nodes, `seen` for each role. -/
def expandFrom (name : ClusterName) (index : ℕ) (ips : Option (List IPv4Address))
    (hosts : Option (List String)) (ip : ℕ) (seen : Role → ℕ) :
    List NodeGroup → Except Raised (List Node)
  | [] => .ok []
  | g :: rest => do
      let seen := Function.update seen g.role (seen g.role + 1)
      let node ← expandNode name index ips hosts (ip + 1) (seen g.role) g
      let nodes ← expandFrom name index ips hosts (ip + 1) seen rest
      return node :: nodes

/-- Each group becomes `count` nodes named `<cluster>-<role>-N`, with addresses `.1` upwards, or, on
several hosts, the given addresses and hosts in the same order. -/
def expandNodes (name : ClusterName) (groups : List NodeGroup) (index : ℕ)
    (ips : Option (List IPv4Address)) (hosts : Option (List String)) : Except Raised (List Node) :=
  expandFrom name index ips hosts 0 (fun _ => 0) (unroll groups)

/-- What a node is made of. -/
lemma expandNode_eq_ok {name : ClusterName} {index : ℕ} {ips : Option (List IPv4Address)}
    {hosts : Option (List String)} {ip n : ℕ} {g : NodeGroup} {node : Node} :
    expandNode name index ips hosts ip n g = .ok node ↔
      ∃ address host memory, nodeAddress index ips ip = .ok address ∧
        nodeHost hosts ip = .ok host ∧ Matching.ofText? g.memory.toLower = some memory ∧
        node = { role := g.role, name := g.name.getD (autoName name g.role n), ip := address,
                 cpu := g.cpu, memory := memory, join := g.join, host := host } := by
  simp only [expandNode, Checked.bind_eq_ok, Checked.ofOption_eq_ok, Checked.pure_eq_ok,
    eq_comm (b := node)]
  constructor
  · rintro ⟨address, ha, host, hh, memory, hm, hn⟩
    exact ⟨address, host, memory, ha, hh, hm, hn⟩
  · rintro ⟨address, host, memory, ha, hh, hm, hn⟩
    exact ⟨address, ha, host, hh, memory, hm, hn⟩

lemma expandFrom_cons_eq_ok {name : ClusterName} {index : ℕ} {ips : Option (List IPv4Address)}
    {hosts : Option (List String)} {ip : ℕ} {seen : Role → ℕ} {g : NodeGroup}
    {rest : List NodeGroup} {nodes : List Node} :
    expandFrom name index ips hosts ip seen (g :: rest) = .ok nodes ↔
      ∃ node tail, expandNode name index ips hosts (ip + 1) (seen g.role + 1) g = .ok node ∧
        expandFrom name index ips hosts (ip + 1) (Function.update seen g.role (seen g.role + 1)) rest
          = .ok tail ∧ nodes = node :: tail := by
  simp only [expandFrom, Checked.bind_eq_ok, Checked.pure_eq_ok, Function.update_self,
    eq_comm (b := nodes)]
  constructor
  · rintro ⟨node, hn, tail, ht, h⟩
    exact ⟨node, tail, hn, ht, h⟩
  · rintro ⟨node, tail, hn, ht, h⟩
    exact ⟨node, hn, tail, ht, h⟩

lemma length_unroll (groups : List NodeGroup) :
    (unroll groups).length = (groups.map fun g => (g.count : ℕ)).sum := by
  simp [unroll, List.length_flatMap]

/-- Given addresses go to the nodes in order. -/
lemma expandFrom_ips {name : ClusterName} {index : ℕ} {ips : List IPv4Address}
    {hosts : Option (List String)} {groups : List NodeGroup} {ip : ℕ} {seen : Role → ℕ}
    {nodes : List Node} (h : expandFrom name index (some ips) hosts ip seen groups = .ok nodes) :
    nodes.map (·.ip) = (ips.drop ip).take groups.length := by
  induction groups generalizing ip seen nodes with
  | nil => rw [expandFrom, Except.ok.injEq] at h; subst h; simp
  | cons g rest ih =>
      obtain ⟨node, tail, hnode, htail, rfl⟩ := expandFrom_cons_eq_ok.mp h
      obtain ⟨address, host, memory, haddr, -, -, rfl⟩ := expandNode_eq_ok.mp hnode
      rw [nodeAddress, Nat.add_sub_cancel, Checked.ofOption_eq_ok] at haddr
      obtain ⟨hlt, hget⟩ := List.getElem?_eq_some_iff.mp haddr
      rw [List.map_cons, ih htail, List.drop_eq_getElem_cons hlt, List.length_cons,
        List.take_succ_cons, hget]

/-- A planned node has no pod CIDR. -/
lemma expandFrom_podCidr {name : ClusterName} {index : ℕ} {ips : Option (List IPv4Address)}
    {hosts : Option (List String)} {groups : List NodeGroup} {ip : ℕ} {seen : Role → ℕ}
    {nodes : List Node} (h : expandFrom name index ips hosts ip seen groups = .ok nodes) :
    ∀ n ∈ nodes, n.podCidr = none := by
  induction groups generalizing ip seen nodes with
  | nil => rw [← Except.ok.inj h]; simp
  | cons g rest ih =>
      obtain ⟨node, tail, hnode, htail, rfl⟩ := expandFrom_cons_eq_ok.mp h
      obtain ⟨address, host, memory, -, -, -, rfl⟩ := expandNode_eq_ok.mp hnode
      exact List.forall_mem_cons.mpr ⟨rfl, ih htail⟩

end Tk8s
