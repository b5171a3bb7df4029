import Tk8s.Plan.Resolve

/-!
What the subnet index of a cluster decides.

* `nodesBase`, `podsBase`, `servicesBase`, `vipBase`: where the prefixes of an index start.
* `IndexPrefixes`: pods, services and VIP of a network, by its index, whatever its shape.
* `IndexNodes`: the node subnet of a single-host network and its fixed addresses.
* `network_byIndex`, `prefixes_of_topology`: **an accepted network lies where its index says**.
-/

namespace Tk8s

open Net

/-! ### The four formulas -/

/-- `172.22.N.0`. -/
def nodesBase (index : ℕ) : ℕ := 0xAC160000 + 256 * index

/-- `10.244.(8N).0`. -/
def podsBase (index : ℕ) : ℕ := 0x0AF40000 + 2048 * index

/-- `10.98.N.0`. -/
def servicesBase (index : ℕ) : ℕ := 0x0A620000 + 256 * index

/-- `172.23.N.0`. -/
def vipBase (index : ℕ) : ℕ := 0xAC170000 + 256 * index

/-- The prefix that starts there. -/
def StartsAt (n : IPv4Network) (base prefixlen : ℕ) : Prop :=
  n.network.toNat = base ∧ n.prefixlen = prefixlen

/-- Pods, services and VIP, by the index. -/
structure IndexPrefixes (index : ℕ) (net : Network) : Prop where
  eq : net.index = index
  le : index ≤ 31
  pods : StartsAt net.pods (podsBase index) 21
  services : StartsAt net.services (servicesBase index) 24
  vip : ∀ v ∈ net.vip, vipBase index < v.toNat ∧ v.toNat < vipBase index + 255

/-- The node subnet of a single-host network, by the index. -/
structure IndexNodes (index : ℕ) (net : Network) : Prop where
  nodes : StartsAt net.nodes (nodesBase index) 24
  gateway : net.gateway.toNat = nodesBase index + 254
  router : ∃ k, 220 ≤ k ∧ k ≤ 253 ∧ net.router.toNat = nodesBase index + k ∧
    (net.routers = .two → k ≠ 251 ∧ k ≠ 252)
  mesh : ∃ m, net.mesh = some m ∧ m.toNat = nodesBase index + 200
  lbRange : net.lbRange = s!"172.22.{index}.201-172.22.{index}.219"

/-! ### Addresses and subnets of four numbers -/

lemma ipv4_eq_ok {a b c d : ℕ} {x : IPv4Address} (h : ipv4 a b c d = .ok x) :
    x.toNat = ((a * 256 + b) * 256 + c) * 256 + d ∧ a ≤ 255 ∧ b ≤ 255 ∧ c ≤ 255 ∧ d ≤ 255 := by
  rw [ipv4, Checked.ofOption_eq_ok] at h
  exact IPv4Address.quad_toNat h

lemma subnet_eq_ok {a b c d prefixlen : ℕ} {hle : prefixlen ≤ 32} {n : IPv4Network}
    (h : subnet a b c d prefixlen hle = .ok n) :
    StartsAt n (((a * 256 + b) * 256 + c) * 256 + d) prefixlen ∧ c ≤ 255 := by
  simp only [subnet, Checked.bind_eq_ok, Checked.ofOption_eq_ok] at h
  obtain ⟨ip, hip, hn⟩ := h
  obtain ⟨hval, -, -, hc, -⟩ := ipv4_eq_ok hip
  rw [IPv4Network.strict] at hn
  by_cases hdvd : 2 ^ (32 - prefixlen) ∣ ip.toNat
  · rw [dif_pos hdvd, Option.some_inj] at hn
    rw [← hn]
    exact ⟨⟨hval, rfl⟩, hc⟩
  · simp [hdvd] at hn

/-- An allowed router address, by its last octet. -/
lemma routerAllowed_iff {index : ℕ} {a : IPv4Address} (h : routerAllowed index a = true) :
    220 ≤ a.octet 0 ∧ a.octet 0 ≤ 253 ∧ a.toNat = nodesBase index + a.octet 0 := by
  have hlt := a.lt
  simp only [routerAllowed, Bool.and_eq_true, decide_eq_true_eq] at h
  obtain ⟨⟨⟨⟨h3, h2⟩, h1⟩, hlow⟩, hhigh⟩ := h
  refine ⟨hlow, hhigh, ?_⟩
  simp only [IPv4Address.octet, Nat.reducePow, Nat.div_one] at h3 h2 h1 ⊢
  rw [nodesBase]
  omega

/-- The router: the one asked for, or `.253`. -/
lemma router_byIndex {index : ℕ} {wantRouter : Option IPv4Address}
    {routers : Option RouterCount} {default : IPv4Address}
    (hcheck : checkWantRouter index routers wantRouter = .ok ())
    (hdefault : default.toNat = nodesBase index + 253) :
    ∃ k, 220 ≤ k ∧ k ≤ 253 ∧ (wantRouter.getD default).toNat = nodesBase index + k ∧
      (routers.getD .one = .two → k ≠ 251 ∧ k ≠ 252) := by
  cases wantRouter with
  | none => exact ⟨253, by omega, by omega, hdefault, fun _ => by omega⟩
  | some r =>
      simp only [checkWantRouter, Checked.check_bind_eq_ok, Checked.refuseIf_eq_ok,
        Bool.not_eq_false] at hcheck
      obtain ⟨hallowed, htwo⟩ := hcheck
      obtain ⟨hlow, hhigh, hval⟩ := routerAllowed_iff hallowed
      refine ⟨r.octet 0, hlow, hhigh, hval, fun h => ?_⟩
      cases routers with
      | none => simp at h
      | some n =>
          rw [Option.getD_some] at h
          rw [h] at htwo
          simpa using htwo

/-- An explicit VIP that may be: of bgp mode, and a host address of its subnet. -/
def VipAllowed (index : ℕ) (ha : Option Ha) (wantVip : Option IPv4Address) : Prop :=
  ∀ v ∈ wantVip, ha = some .bgp ∧ vipBase index < v.toNat ∧ v.toNat < vipBase index + 255

/-- A host address of the VIP subnet, by its number. -/
lemma vipHost_iff {index : ℕ} {vipNet : IPv4Network} {w : IPv4Address}
    (hnet : StartsAt vipNet (vipBase index) 24) :
    ¬(w ∉ vipNet ∨ w = vipNet.network ∨ w = vipNet.broadcast) ↔
      vipBase index < w.toNat ∧ w.toNat < vipBase index + 255 := by
  have hsize : vipNet.size = 256 := by
    rw [IPv4Network.size, hnet.2]
    rfl
  have hlast : vipNet.broadcast.toNat = vipBase index + 255 := by
    have hval : vipNet.broadcast.toNat = vipNet.network.toNat + vipNet.size - 1 := rfl
    rw [hval, hnet.1, hsize]
    rfl
  rw [not_or, not_or, not_not, IPv4Network.mem_iff, hnet.1, hsize, IPv4Address.ext_iff,
    IPv4Address.ext_iff, hnet.1, hlast]
  omega

/-- The checks of an explicit VIP pass when it may be. -/
lemma checkWantVip_eq_ok {index : ℕ} {ha : Option Ha} {vipNet : IPv4Network}
    {wantVip : Option IPv4Address} (hnet : StartsAt vipNet (vipBase index) 24) :
    checkWantVip index (ha.getD .proxy) vipNet wantVip = .ok () ↔ VipAllowed index ha wantVip := by
  cases wantVip with
  | none => simp [checkWantVip, VipAllowed]
  | some w =>
      have hmode : ha.getD .proxy = .bgp ↔ ha = some .bgp := by
        cases ha with
        | none => simp
        | some mode => simp
      simp only [checkWantVip, Checked.check_bind_eq_ok, Checked.refuseIf_eq_ok, vipHost_iff hnet,
        VipAllowed, Option.mem_some_iff, forall_eq', ne_eq, not_not, hmode]

/-- The VIP: the one asked for, or `.1`. -/
lemma vip_byIndex {index : ℕ} {wantVip : Option IPv4Address} {ha : Option Ha}
    {vip : Option IPv4Address} (hallowed : VipAllowed index ha wantVip)
    (hvip : pickVip index wantVip (ha.getD .proxy) = .ok vip) :
    ∀ v ∈ vip, vipBase index < v.toNat ∧ v.toNat < vipBase index + 255 := by
  intro v hv
  cases hmode : ha.getD .proxy with
  | proxy =>
      rw [hmode, pickVip, Except.ok.injEq] at hvip
      simp [← hvip] at hv
  | bgp =>
      rw [hmode] at hvip
      cases wantVip with
      | none =>
          simp only [pickVip, Checked.map_eq_ok] at hvip
          obtain ⟨a, ha, rfl⟩ := hvip
          obtain ⟨hval, -⟩ := ipv4_eq_ok ha
          rw [Option.mem_def, Option.some_inj] at hv
          rw [← hv, hval, vipBase]
          omega
      | some w =>
          simp only [pickVip, Checked.map_eq_ok, Except.ok.injEq, exists_eq_left'] at hvip
          rw [← hvip, Option.mem_def, Option.some_inj] at hv
          exact hv ▸ (hallowed w rfl).2

/-- **A network lies where its index says.** -/
theorem network_byIndex {index : ℕ} {wantRouter : Option IPv4Address} {ha : Option Ha}
    {wantVip : Option IPv4Address} {routers : Option RouterCount} {net : Network}
    (h : network index wantRouter ha wantVip routers = .ok net) :
    IndexPrefixes index net ∧ IndexNodes index net := by
  simp only [network, Checked.bind_eq_ok, Checked.exists_unit, Checked.pure_eq_ok] at h
  obtain ⟨hrouter, vipNet, hvipNet, hwantVip, vip, hvip, nodes, hnodes, gateway, hgateway, default,
    hdefault, mesh, hmesh, pods, hpods, services, hservices, -, rfl⟩ := h
  obtain ⟨hvn, -⟩ := subnet_eq_ok hvipNet
  obtain ⟨hn, -⟩ := subnet_eq_ok hnodes
  obtain ⟨hp, hle⟩ := subnet_eq_ok hpods
  obtain ⟨hs, -⟩ := subnet_eq_ok hservices
  obtain ⟨hg, -⟩ := ipv4_eq_ok hgateway
  obtain ⟨hd, -⟩ := ipv4_eq_ok hdefault
  obtain ⟨hm, -⟩ := ipv4_eq_ok hmesh
  constructor
  · have hbase : StartsAt vipNet (vipBase index) 24 := by
      refine ⟨hvn.1.trans ?_, hvn.2⟩
      rw [vipBase]
      omega
    refine ⟨rfl, by omega, ⟨hp.1.trans ?_, hp.2⟩, ⟨hs.1.trans ?_, hs.2⟩,
      vip_byIndex ((checkWantVip_eq_ok hbase).mp hwantVip) hvip⟩
    · rw [podsBase]
      omega
    · rw [servicesBase]
      omega
  · refine ⟨⟨hn.1.trans ?_, hn.2⟩, hg.trans ?_, router_byIndex hrouter (hd.trans ?_),
      ⟨mesh, rfl, hm.trans ?_⟩, rfl⟩
    all_goals
      rw [nodesBase]
      omega

/-- The prefixes of an accepted topology, of either shape. -/
theorem prefixes_of_topology {u : UserCluster} {existing : Option Cluster} {f : Facts} {index : ℕ}
    {t : Topology} (h : topology u existing f index = .ok t) : IndexPrefixes index t.net := by
  rw [topology] at h
  cases hu : u.spec.hosts with
  | none =>
      rw [hu] at h
      exact (network_byIndex (resolveSingle_eq_ok.mp h).net).1
  | some hosts =>
      rw [hu] at h
      obtain ⟨p, hp⟩ := resolveMulti_eq_ok.mp h
      obtain ⟨byIndex, hby, hnet⟩ := networkMulti_eq_ok.mp hp.net
      have hprefixes := (network_byIndex hby).1
      rw [hnet]
      exact ⟨hprefixes.eq, hprefixes.le, hprefixes.pods, hprefixes.services, hprefixes.vip⟩

/-! ### The LoadBalancer range -/

/-- The range text of a single-host network stands for `.201` to `.219`. -/
lemma lbRange_byIndex {index : ℕ} (h : index ≤ 31) :
    ∃ pool, parseRange s!"172.22.{index}.201-172.22.{index}.219" = .ok pool ∧
      pool.map (·.toNat) = List.range' (nodesBase index + 201) 19 := by
  have hquad : ∀ k ≤ 255, ∃ a : IPv4Address, IPv4Address.quad 172 22 index k = some a ∧
      a.toNat = nodesBase index + k := by
    intro k hk
    refine ⟨⟨nodesBase index + k, ?_⟩, ?_, rfl⟩
    · rw [nodesBase]
      omega
    · rw [IPv4Address.quad, if_pos (by omega), IPv4Address.ofOctets, IPv4Address.ofNat?_eq_some]
      simp only [nodesBase]
      omega
  obtain ⟨a, ha, hval⟩ := hquad 201 (by omega)
  obtain ⟨b, hb, hval'⟩ := hquad 219 (by omega)
  have htext : s!"172.22.{index}.201-172.22.{index}.219" = a.text ++ "-" ++ b.text := by
    rw [IPv4Address.text_quad ha, IPv4Address.text_quad hb]
    have h172 : Nat.repr 172 = "172" := by decide
    have h22 : Nat.repr 22 = "22" := by decide
    have h201 : Nat.repr 201 = "201" := by decide
    have h219 : Nat.repr 219 = "219" := by decide
    simp [Text.join, String.ext_iff, toString, h172, h22, h201, h219, -Nat.toList_repr]
  refine ⟨IPv4Address.upTo a b, ?_, ?_⟩
  · rw [htext]
    exact parseRange_interval (IPv4Address.le_def.mpr (by omega))
  · rw [IPv4Address.map_toNat_upTo, hval, hval',
      show nodesBase index + 219 + 1 - (nodesBase index + 201) = 19 by omega]

end Tk8s
