import Tk8s.Plan.Resolve

/-!
The address cut of a multi-host cluster: `allocate` counts positions in the pool, while
`Cluster.routers` reads the first address off the range text and adds one and two.

* `assigned`: the positions `allocate` hands out; `Cut.assigned_eq` ties them to an `Allocation`.
* `rangeStart_eq_ok`, `routers_one`, `routers_two_eq_ok`: what `Cluster.routers` derives from the
  text of a pool.
* `CutSound`: every LAN address of a cluster is reserved, used once, and free on the LAN.
* `cutSound_iff`: **the two cuts agree exactly when** the pool starts with a run and the third
  address of that run is one nobody holds, and the gateway is not handed out.
-/

namespace Tk8s

open Net

/-! ### What the cluster uses -/

/-- The addresses of the router containers beside the floating one: with one router there is
none, its container sits at the floating address. -/
def Cluster.ownRouterIps (c : Cluster) (routers : List Router) : List IPv4Address :=
  match c.spec.network.routers with
  | .one => []
  | .two => routers.map (·.ip)

/-- The addresses a cluster uses on the LAN: the floating one, the router containers', the shim,
the nodes', the Cluster Mesh one, the LoadBalancer pool. -/
def Cluster.lanAddresses (c : Cluster) : Except Raised (List IPv4Address) := do
  let net := c.spec.network
  let routers ← c.routers
  let lb ← parseRange net.lbRange
  return net.router :: (c.ownRouterIps routers ++ (net.shim.toList ++ c.spec.nodes.map (·.ip)
    ++ (net.mesh.toList ++ lb)))

/-- Every LAN address of the cluster is reserved, used once, and no one else's. -/
def CutSound (c : Cluster) (lans : String → Option LanFacts) : Prop :=
  ∃ pool addrs, parseRange (c.spec.network.range.getD "") = .ok pool ∧
    c.lanAddresses = .ok addrs ∧
    (∀ routers, c.spec.network.routers = .one → c.routers = .ok routers →
      routers.map (·.ip) = [c.floatingIp]) ∧
    (∀ a ∈ addrs, a ∈ pool) ∧ addrs.Nodup ∧
    ∀ a ∈ addrs, a ≠ c.spec.network.nodes.network ∧ a ≠ c.spec.network.nodes.broadcast ∧
      a ≠ c.spec.network.gateway ∧ ∀ h ∈ c.hostNames, ∀ lan ∈ lans h, a ≠ lan.address

/-! ### The positions handed out -/

/-- The pool positions `allocate` hands out: the first, those of the shim and the nodes, and the
last six. -/
def assigned (pool : List IPv4Address) (routers : RouterCount) (shim : Bool) (nodes : ℕ) :
    List IPv4Address :=
  pool.take 1 ++ ((pool.drop (1 + physical routers)).take (shim.toNat + nodes)
    ++ pool.drop (pool.length - 6))

lemma assigned_sublist {pool : List IPv4Address} {routers : RouterCount} {shim : Bool} {nodes : ℕ}
    (h : 1 + physical routers + shim.toNat + nodes + 6 ≤ pool.length) :
    (assigned pool routers shim nodes).Sublist pool := by
  have hdrop : (pool.drop (1 + physical routers)).Sublist (pool.drop 1) := by
    rw [← List.drop_drop]
    exact List.drop_sublist _ _
  have htail : (pool.drop (pool.length - 6)).Sublist
      ((pool.drop (1 + physical routers)).drop (shim.toNat + nodes)) := by
    rw [List.drop_drop]
    exact List.drop_sublist_drop_left _ (by omega)
  have hmid := List.Sublist.append_left htail
    ((pool.drop (1 + physical routers)).take (shim.toNat + nodes))
  rw [List.take_append_drop] at hmid
  have hall := List.Sublist.append_left (hmid.trans hdrop) (pool.take 1)
  rwa [List.take_append_drop] at hall

/-- With two routers the second position is held back. -/
lemma second_notMem_assigned {p0 p1 : IPv4Address} {rest : List IPv4Address} {shim : Bool}
    {nodes : ℕ} (hnd : (p0 :: p1 :: rest).Nodup)
    (h : 1 + physical .two + shim.toNat + nodes + 6 ≤ (p0 :: p1 :: rest).length) :
    p1 ∉ assigned (p0 :: p1 :: rest) .two shim nodes := by
  obtain ⟨h0, h1⟩ := List.nodup_cons.mp hnd
  simp only [physical, List.length_cons] at h
  intro hmem
  rcases List.mem_append.mp hmem with hmem | hmem
  · rw [List.take_succ_cons, List.take_zero, List.mem_singleton] at hmem
    exact h0 (hmem ▸ List.mem_cons_self)
  · have hrest : p1 ∈ rest := by
      rcases List.mem_append.mp hmem with hmem | hmem
      · exact List.mem_of_mem_drop (i := 1) (List.mem_of_mem_take hmem)
      · have hlen : (p0 :: p1 :: rest).length - 6 = rest.length - 6 + 2 := by
          simp only [List.length_cons]
          omega
        rw [hlen] at hmem
        exact List.mem_of_mem_drop hmem
    exact (List.nodup_cons.mp h1).1 hrest

/-- The cut hands out exactly the assigned positions. -/
lemma Cut.assigned_eq {pool : List IPv4Address} {shim : Bool} {routers : RouterCount} {nodes : ℕ}
    {a : Allocation} (h : Cut pool shim routers nodes a) :
    a.router :: (a.shim.toList ++ a.nodes ++ (a.mesh :: pool.drop (pool.length - 5))) =
      assigned pool routers shim nodes := by
  have hlen := h.enough
  obtain ⟨h0, hrouter⟩ := List.getElem?_eq_some_iff.mp h.router
  obtain ⟨h6, hmesh⟩ := List.getElem?_eq_some_iff.mp h.mesh
  have htail : a.mesh :: pool.drop (pool.length - 5) = pool.drop (pool.length - 6) := by
    rw [List.drop_eq_getElem_cons h6, hmesh]
    congr 2
    omega
  have hhead : pool.take 1 = [a.router] := by
    rw [List.take_one, List.head?_eq_getElem?, h.router, Option.toList_some]
  rw [assigned, hhead, htail, h.shims, h.nodes, List.take_add, List.drop_drop]
  simp only [List.singleton_append, List.append_assoc]

/-! ### What the text of the pool gives -/

/-- The first address read back off the text: only when the pool starts with a run. -/
lemma rangeStart_eq_ok {c : Cluster} {p0 p1 : IPv4Address} {rest : List IPv4Address}
    (hrange : c.spec.network.range = some (rangesText (p0 :: p1 :: rest))) {a : IPv4Address} :
    c.rangeStart = .ok a ↔ a = p0 ∧ p1.toNat = p0.toNat + 1 := by
  have hdash : '-' ∉ p0.text.toList := p0.notMem_text (by decide) (by decide)
  rw [Cluster.rangeStart, hrange]
  by_cases hrun : p1.toNat = p0.toNat + 1
  · obtain ⟨x, hx⟩ := rangesText_run hrun rest
    simp only [hx, Text.splitOn_append hdash, List.headD_cons, Checked.ofOption_eq_ok,
      IPv4Address.parse_text, Option.some_inj, hrun, and_true]
    exact eq_comm
  · obtain ⟨x, hx⟩ := rangesText_lone hrun rest
    simp only [hrun, and_false, iff_false, Checked.ofOption_eq_ok, Text.headD_splitOn, hx]
    intro hparse
    have hcomma : ',' ∈ (Text.partition '-' (p0.text ++ String.singleton ',' ++ x)).1.toList := by
      simp only [Text.partition, String.toList_append, String.toList_singleton,
        List.append_assoc, String.toList_ofList]
      have hall : ∀ d ∈ p0.text.toList, decide (d ≠ '-') = true := by
        intro d hd
        simpa using fun hdd : d = '-' => hdash (hdd ▸ hd)
      rw [List.takeWhile_append_of_pos hall]
      simp
    rcases IPv4Address.charIn_of_parse hparse ',' hcomma with h | h <;> exact absurd h (by decide)

/-- One router container: it sits at the floating address. -/
lemma routers_one {c : Cluster} {h : String} {hs : List String}
    (hone : c.spec.network.routers = .one) (hhosts : c.spec.network.routerHosts = some (h :: hs)) :
    c.routers = .ok [{ name := s!"{c.name}-router", dir := "router", ip := c.spec.network.router,
                       priority := none, host := some h }] := by
  simp only [Cluster.routers, hone, hhosts]
  rfl

/-- Two router containers on several hosts: the two addresses after the first one of the text. -/
lemma routers_two_eq_ok {c : Cluster} {p0 p1 : IPv4Address} {rest : List IPv4Address}
    {h1 h2 : String} (htwo : c.spec.network.routers = .two)
    (hrange : c.spec.network.range = some (rangesText (p0 :: p1 :: rest)))
    (hhosts : c.spec.network.routerHosts = some [h1, h2]) {routers : List Router} :
    c.routers = .ok routers ↔ p1.toNat = p0.toNat + 1 ∧ ∃ third : IPv4Address,
      third.toNat = p0.toNat + 2 ∧ routers =
        [{ name := s!"{c.name}-router-1", dir := "router-1", ip := p1, priority := some 200,
           host := some h1 },
         { name := s!"{c.name}-router-2", dir := "router-2", ip := third, priority := some 100,
           host := some h2 }] := by
  simp only [Cluster.routers, htwo, hhosts, Cluster.routerPair, hrange, Checked.bind_eq_ok,
    Checked.pure_eq_ok, Checked.ofOption_eq_ok, rangeStart_eq_ok hrange, Cluster.shift_eq_ok,
    Option.map_some, Option.getD_some, List.map_cons, List.map_nil, List.getElem?_cons_zero,
    List.getElem?_cons_succ, Option.some_inj]
  constructor
  · rintro ⟨_, ⟨_, ⟨rfl, hrun⟩, first, hfirst, second, hsecond, rfl⟩, _, rfl, _, rfl, rfl⟩
    obtain rfl : first = p1 := IPv4Address.ext (hfirst.trans hrun.symm)
    exact ⟨hrun, second, hsecond, rfl⟩
  · rintro ⟨hrun, third, hthird, rfl⟩
    exact ⟨_, ⟨p0, ⟨rfl, hrun⟩, p1, hrun, third, hthird, rfl⟩, _, rfl, _, rfl, rfl⟩

/-! ### When the two cuts agree -/

/-- The condition on the pool and the gateway. -/
structure CutAgrees (pool : List IPv4Address) (routers : RouterCount) (shim : Bool) (nodes : ℕ)
    (gateway : IPv4Address) : Prop where
  outside : gateway ∉ assigned pool routers shim nodes
  derived : routers = .two → ∃ first second third, pool[0]? = some first ∧
    pool[1]? = some second ∧ second.toNat = first.toNat + 1 ∧
    third ∈ pool ∧ third.toNat = first.toNat + 2 ∧ third ∉ assigned pool routers shim nodes ∧
    gateway ≠ second ∧ gateway ≠ third

/-- The condition on a multi-host definition and the LAN facts. -/
def CutCondition (u : UserCluster) (hosts : List UserHost) (f : Facts) : Prop :=
  let want := u.spec.network.getD {}
  ∃ lans lan pool, f.lans = some lans ∧ sharedLan lans (hosts.map (·.name.text)) = .ok lan ∧
    parseRange ((want.range.map (·.text)).getD "") = .ok pool ∧
    CutAgrees pool (want.routers.getD .one) (hosts.any (·.ssh.isNone))
      (u.spec.nodes.map fun g => (g.count : ℕ)).sum lan.gateway

/-- What `resolve` puts into a multi-host cluster, as far as the addresses go. -/
structure Planned (c : Cluster) (lans : String → Option LanFacts) (pool : List IPv4Address)
    (want : RouterCount) (shims : Bool) (count : ℕ) (lan : LanFacts) (a : Allocation) :
    Prop where
  nodup : pool.Nodup
  cut : Cut pool shims want count a
  range : c.spec.network.range = some (rangesText pool)
  routers : c.spec.network.routers = want
  routerHosts : ∃ l, c.spec.network.routerHosts = some l ∧ l.length = want.toNat
  floating : c.spec.network.router = a.router
  shim : c.spec.network.shim = a.shim
  mesh : c.spec.network.mesh = some a.mesh
  lbRange : c.spec.network.lbRange = rangesText (pool.drop (pool.length - 5))
  ips : c.spec.nodes.map (·.ip) = a.nodes
  subnet : c.spec.network.nodes = lan.subnet
  gateway : c.spec.network.gateway = lan.gateway
  network_notMem : lan.subnet.network ∉ pool
  broadcast_notMem : lan.subnet.broadcast ∉ pool
  own_notMem : ∀ h ∈ c.hostNames, ∀ l ∈ lans h, l.address ∉ pool

/-- **A multi-host definition that is accepted is planned that way.** -/
theorem planned_of_resolve {u : UserCluster} {existing : Option Cluster} {f : Facts} {c : Cluster}
    {hosts : List UserHost} (h : resolve u existing f = .ok c) (hu : u.spec.hosts = some hosts) :
    ∃ p : Parts, f.lans = some p.lans ∧
      sharedLan p.lans (hosts.map (·.name.text)) = .ok p.first ∧
      parseRange (((u.spec.network.getD {}).range.map (·.text)).getD "") = .ok p.pool ∧
      Planned c p.lans p.pool ((u.spec.network.getD {}).routers.getD .one)
        (hosts.any (·.ssh.isNone)) (u.spec.nodes.map fun g => (g.count : ℕ)).sum p.first
        p.alloc := by
  obtain ⟨index, t, hres, rfl⟩ := resolve_eq_ok.mp h
  have hbuilt := hres.built
  rw [topology, hu] at hbuilt
  obtain ⟨p, hp⟩ := resolveMulti_eq_ok.mp hbuilt
  refine ⟨p, hp.told, hp.shared, hp.parsed, ?_⟩
  have hcut := allocate_cut hp.cut
  obtain ⟨hin, hnet, hbc, hown⟩ := checkPool_eq_ok.mp hp.checked
  obtain ⟨byIndex, hby, hneteq⟩ := networkMulti_eq_ok.mp hp.net
  have hspec := hres.spec
  simp only [Spec.check, specOf, hp.hosts, Checked.check_bind_eq_ok] at hspec
  have hhosts := Spec.checkHosts_eq_ok.mp hspec.2.2
  have hrouters : t.net.routers = (u.spec.network.getD {}).routers.getD .one := by
    rw [hneteq]
    exact (network_fields hby).2.1
  obtain ⟨l, hl, hlen, -⟩ := hhosts.routerHosts
  have hnames : p.hosts.map (·.name.text) = hosts.map (·.name.text) := by
    have hpairs := congrArg (List.map fun q => q.1.text) (map_recordHost hp.recorded)
    simpa [List.map_map, Function.comp_def] using hpairs
  refine
    { nodup := nodup_parseRange hp.parsed
      cut := hcut
      range := by rw [specOf, hneteq]
      routers := hrouters
      routerHosts := ⟨l, hl, by rw [hlen, hrouters]⟩
      floating := by rw [specOf, hneteq]
      shim := by rw [specOf, hneteq]
      mesh := by rw [specOf, hneteq]
      lbRange := by rw [specOf, hneteq]; exact hcut.lbRange
      ips := ?_
      subnet := by rw [specOf, hneteq]
      gateway := by rw [specOf, hneteq]
      network_notMem := hnet
      broadcast_notMem := hbc
      own_notMem := ?_ }
  · have hips := expandFrom_ips hp.nodes
    rw [List.drop_zero, length_unroll] at hips
    rw [specOf, hips, hcut.nodes, List.take_take, min_self]
  · intro n hn l hl
    have hn' : n ∈ hosts.map (·.name.text) := by
      rw [← hnames]
      simpa [Cluster.hostNames, specOf, hp.hosts] using hn
    obtain ⟨lan, hlan, hnot⟩ := hown n hn'
    rw [Option.mem_def, hlan, Option.some_inj] at hl
    exact hl ▸ hnot

section

variable {c : Cluster} {lans : String → Option LanFacts} {pool : List IPv4Address}
  {want : RouterCount} {shims : Bool} {count : ℕ} {lan : LanFacts} {a : Allocation}

/-- The addresses in use are the routers' own and the assigned ones. -/
lemma Planned.lanAddresses_perm (h : Planned c lans pool want shims count lan a)
    {routers : List Router} (hr : c.routers = .ok routers) :
    ∃ addrs, c.lanAddresses = .ok addrs ∧
      addrs.Perm (c.ownRouterIps routers ++ assigned pool want shims count) := by
  have hlen := h.cut.enough
  have hlb : parseRange c.spec.network.lbRange = .ok (pool.drop (pool.length - 5)) := by
    rw [h.lbRange]
    refine parseRange_rangesText ?_ ((List.drop_sublist _ _).nodup h.nodup)
    rw [ne_eq, List.drop_eq_nil_iff]
    omega
  refine ⟨c.spec.network.router :: (c.ownRouterIps routers ++ (c.spec.network.shim.toList
    ++ c.spec.nodes.map (·.ip) ++ (c.spec.network.mesh.toList ++ pool.drop (pool.length - 5)))),
    ?_, ?_⟩
  · simp only [Cluster.lanAddresses, hr, hlb, Checked.bind_eq_ok, Checked.pure_eq_ok,
      Except.ok.injEq, exists_eq_left']
  · rw [← h.cut.assigned_eq, h.floating, h.shim, h.mesh, h.ips, Option.toList_some]
    exact List.perm_middle.symm

/-- Soundness in terms of the routers' own addresses. -/
lemma Planned.cutSound_iff_own (h : Planned c lans pool want shims count lan a) :
    CutSound c lans ↔ ∃ routers, c.routers = .ok routers ∧
      (∀ x ∈ c.ownRouterIps routers, x ∈ pool) ∧
      (c.ownRouterIps routers ++ assigned pool want shims count).Nodup ∧
      lan.gateway ∉ c.ownRouterIps routers ++ assigned pool want shims count := by
  have hlen := h.cut.enough
  have hne : pool ≠ [] := by rintro rfl; simp at hlen
  have hpool : parseRange (c.spec.network.range.getD "") = .ok pool := by
    rw [h.range, Option.getD_some, parseRange_rangesText hne h.nodup]
  have hsub := assigned_sublist hlen
  constructor
  · rintro ⟨pool', addrs, hpool', haddrs, -, hmem, hnd, hfree⟩
    obtain rfl : pool' = pool := Except.ok.inj (hpool'.symm.trans hpool)
    have hrouters : ∃ routers, c.routers = .ok routers := by
      rw [Cluster.lanAddresses] at haddrs
      obtain ⟨routers, hr, -⟩ := Checked.bind_eq_ok.mp haddrs
      exact ⟨routers, hr⟩
    obtain ⟨routers, hr⟩ := hrouters
    obtain ⟨addrs', haddrs', hperm⟩ := h.lanAddresses_perm hr
    obtain rfl : addrs' = addrs := Except.ok.inj (haddrs'.symm.trans haddrs)
    refine ⟨routers, hr, fun x hx => ?_, hperm.nodup_iff.mp hnd, fun hgw => ?_⟩
    · exact hmem x (hperm.mem_iff.mpr (List.mem_append_left _ hx))
    · exact (hfree _ (hperm.mem_iff.mpr hgw)).2.2.1 h.gateway.symm
  · rintro ⟨routers, hr, hown, hnd, hgw⟩
    obtain ⟨addrs, haddrs, hperm⟩ := h.lanAddresses_perm hr
    have hin : ∀ x ∈ addrs, x ∈ pool := by
      intro x hx
      rcases List.mem_append.mp (hperm.mem_iff.mp hx) with hx | hx
      · exact hown x hx
      · exact hsub.mem hx
    refine ⟨pool, addrs, hpool, haddrs, fun rs hone hrs => ?_, hin, hperm.nodup_iff.mpr hnd,
      fun x hx => ⟨?_, ?_, ?_, ?_⟩⟩
    · obtain ⟨l, hl, hlen1⟩ := h.routerHosts
      rw [← h.routers, hone] at hlen1
      obtain ⟨h1, rfl⟩ := List.length_eq_one_iff.mp hlen1
      rw [routers_one hone hl] at hrs
      rw [← Except.ok.inj hrs]
      rfl
    · rintro rfl
      exact h.network_notMem (h.subnet ▸ hin _ hx)
    · rintro rfl
      exact h.broadcast_notMem (h.subnet ▸ hin _ hx)
    · rintro rfl
      exact hgw (h.gateway ▸ hperm.mem_iff.mp hx)
    · rintro n hn l hl rfl
      exact h.own_notMem n hn l hl (hin _ hx)

/-- **When the two cuts of one pool agree.** -/
lemma Planned.cutSound_iff (h : Planned c lans pool want shims count lan a) :
    CutSound c lans ↔ CutAgrees pool want shims count lan.gateway := by
  have hlen := h.cut.enough
  have hsub := assigned_sublist hlen
  obtain ⟨l, hl, hlen2⟩ := h.routerHosts
  rw [h.cutSound_iff_own]
  cases want with
  | one =>
      obtain ⟨h1, rfl⟩ := List.length_eq_one_iff.mp hlen2
      simp only [routers_one h.routers hl, Except.ok.injEq, exists_eq_left', Cluster.ownRouterIps,
        h.routers, List.nil_append, List.not_mem_nil, false_implies, implies_true, true_and]
      exact ⟨fun hand => ⟨hand.2, fun htwo => by simp at htwo⟩,
        fun hag => ⟨hsub.nodup h.nodup, hag.outside⟩⟩
  | two =>
      obtain ⟨h1, h2, rfl⟩ := List.length_eq_two.mp hlen2
      obtain ⟨p0, p1, rest, rfl⟩ : ∃ p0 p1 rest, pool = p0 :: p1 :: rest := by
        match pool, hlen with
        | p0 :: p1 :: rest, _ => exact ⟨p0, p1, rest, rfl⟩
      have hsecond := second_notMem_assigned h.nodup hlen
      have hnd := hsub.nodup h.nodup
      simp only [routers_two_eq_ok h.routers h.range hl, Cluster.ownRouterIps, h.routers]
      constructor
      · rintro ⟨-, ⟨hrun, third, hthird, rfl⟩, hin, hnodup, hgw⟩
        have hmem := hin third (by simp)
        simp only [List.map_cons, List.map_nil, List.cons_append, List.nil_append,
          List.nodup_cons, List.mem_cons, not_or] at hnodup hgw
        exact ⟨hgw.2.2, fun _ => ⟨p0, p1, third, rfl, rfl, hrun, hmem, hthird, hnodup.2.1,
          hgw.1, hgw.2.1⟩⟩
      · rintro ⟨hout, hder⟩
        obtain ⟨first, second, third, hfirst, hsec, hrun, hmem, hthird, hnot, hg1, hg2⟩ := hder rfl
        simp only [List.getElem?_cons_zero, List.getElem?_cons_succ, Option.some_inj] at hfirst hsec
        subst hfirst hsec
        refine ⟨_, ⟨hrun, third, hthird, rfl⟩, ?_, ?_, ?_⟩
        · simpa using hmem
        · simp only [List.map_cons, List.map_nil, List.cons_append, List.nil_append,
            List.nodup_cons, List.mem_cons, not_or]
          refine ⟨⟨fun heq => ?_, hsecond⟩, hnot, hnd⟩
          have := congrArg IPv4Address.toNat heq
          omega
        · simp only [List.map_cons, List.map_nil, List.cons_append, List.nil_append,
            List.mem_cons, not_or]
          exact ⟨hg1, hg2, hout⟩

end

/-- **The address cut is sound exactly when the two cuts of the pool agree**: with two routers the
second address follows the first, and the third address of that run is in the pool and not handed
out; and the gateway is neither handed out nor a router's. -/
theorem cutSound_iff_cutCondition {u : UserCluster} {existing : Option Cluster} {f : Facts}
    {c : Cluster} {hosts : List UserHost} {lans : String → Option LanFacts}
    (h : resolve u existing f = .ok c) (hu : u.spec.hosts = some hosts)
    (hf : f.lans = some lans) : CutSound c lans ↔ CutCondition u hosts f := by
  obtain ⟨p, htold, hshared, hparsed, hp⟩ := planned_of_resolve h hu
  obtain rfl : p.lans = lans := Option.some_inj.mp (htold.symm.trans hf)
  rw [hp.cutSound_iff]
  constructor
  · intro hag
    exact ⟨p.lans, p.first, p.pool, htold, hshared, hparsed, hag⟩
  · rintro ⟨lans', lan', pool', htold', hshared', hparsed', hag⟩
    obtain rfl : p.lans = lans' := Option.some_inj.mp (htold.symm.trans htold')
    obtain rfl : p.first = lan' := Except.ok.inj (hshared.symm.trans hshared')
    obtain rfl : p.pool = pool' := Except.ok.inj (hparsed.symm.trans hparsed')
    exact hag

/-! ### Two hosts -/

/-- One control plane and two routers on two hosts. -/
def twoHosts (range : RangeText) : UserCluster where
  metadata := ⟨⟨"dev", clusterName_dev⟩⟩
  spec :=
    { network := some { routers := some .two, range := some range }
      nodes := [{ role := .controlPlane }]
      hosts := some [⟨⟨"a", hostName_a⟩, none⟩, ⟨⟨"b", hostName_b⟩, some "b"⟩] }

/-- The hosts at .10 and .11 of 192.168.1.0/24, the gateway at .1. -/
def twoHostsLan (name : String) : Option LanFacts :=
  let lan (address : IPv4Address) : LanFacts :=
    ⟨"eth0", ⟨⟨0xC0A80100, by decide⟩, 24, prefixlen_24, by decide⟩, ⟨0xC0A80101, by decide⟩, address⟩
  if name = "a" then some (lan ⟨0xC0A8010A, by decide⟩)
  else if name = "b" then some (lan ⟨0xC0A8010B, by decide⟩)
  else none

def twoHostsFacts : Facts where
  k8sDefault := "1.34.0"
  usedIndices := []
  allowOverlap := false
  tk8sVersion := "1"
  lans := some twoHostsLan
  operator := some "a"

/-- A range in one piece: the cut is sound. -/
theorem cutSound_of_one_piece :
    ∃ c, resolve (twoHosts ⟨"192.168.1.64-79", by decide⟩) none twoHostsFacts = .ok c ∧
      CutSound c twoHostsLan := by
  obtain ⟨c, hc⟩ : ∃ c, resolve (twoHosts ⟨"192.168.1.64-79", by decide⟩) none twoHostsFacts
      = .ok c := by
    apply Checked.exists_eq_ok
    decide +kernel
  refine ⟨c, hc, (cutSound_iff_cutCondition hc rfl rfl).mpr ?_⟩
  have hlan : sharedLan twoHostsLan ["a", "b"] = .ok ⟨"eth0", ⟨⟨0xC0A80100, by decide⟩, 24,
      by decide, by decide⟩, ⟨0xC0A80101, by decide⟩, ⟨0xC0A8010A, by decide⟩⟩ := by
    decide
  have hpool : parseRange "192.168.1.64-79"
      = .ok (IPv4Address.upTo ⟨0xC0A80140, by decide⟩ ⟨0xC0A8014F, by decide⟩) := by
    decide
  refine ⟨twoHostsLan, _, _, rfl, hlan, hpool, by decide, fun _ => ?_⟩
  exact ⟨⟨0xC0A80140, by decide⟩, ⟨0xC0A80141, by decide⟩, ⟨0xC0A80142, by decide⟩,
    by decide⟩

/-- A range whose first piece has two addresses: router-2 sits on one nobody reserved. -/
theorem not_cutSound_of_two_pieces :
    ∃ c, resolve (twoHosts ⟨"192.168.1.64-65,192.168.1.80-95", by decide⟩) none twoHostsFacts
      = .ok c ∧ ¬ CutSound c twoHostsLan := by
  have hrun : (do
      let c ← resolve (twoHosts ⟨"192.168.1.64-65,192.168.1.80-95", by decide⟩) none twoHostsFacts
      let addrs ← c.lanAddresses
      let pool ← parseRange (c.spec.network.range.getD "")
      return addrs.all (· ∈ pool)) = (.ok false : Except Raised Bool) := by
    decide +kernel
  simp only [Checked.bind_eq_ok, Checked.pure_eq_ok] at hrun
  obtain ⟨c, hc, addrs, haddrs, pool, hpool, hall⟩ := hrun
  refine ⟨c, hc, ?_⟩
  rintro ⟨pool', addrs', hpool', haddrs', -, hin, -⟩
  obtain rfl : pool = pool' := Except.ok.inj (hpool.symm.trans hpool')
  obtain rfl : addrs = addrs' := Except.ok.inj (haddrs.symm.trans haddrs')
  simp only [List.all_eq_false, decide_eq_true_eq] at hall
  obtain ⟨a, ha, hnot⟩ := hall
  exact hnot (hin a ha)

end Tk8s
