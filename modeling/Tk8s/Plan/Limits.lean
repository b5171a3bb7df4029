import Tk8s.Addresses
import Tk8s.Plan.Refusals
import Tk8s.RoundTrip
import Tk8s.SingleHost

/-!
What plan raises beside `PlanError`, and when.

* `exists_network`, `network_over`: the network of an index, and where its arithmetic ends.
* `exists_place`, `exists_expandFrom`, `expandFrom_over`: the placement and the nodes.
* `Usable`, `Decides`: **plan refuses with `PlanError`, or gives a cluster the rest can work with**.
* `SingleOver`, `MultiOver`: behind every check, an index over 31, a node over `.255`, no host at all,
  or two routers on a range whose text `Cluster.range_start` cannot read.
* `decides_iff`: **plan answers exactly when** it does not come to one of these.
-/

namespace Tk8s

open Net

/-! ### Addresses of four numbers -/

lemma exists_ipv4 {a b c d : ℕ} (ha : a ≤ 255) (hb : b ≤ 255) (hc : c ≤ 255) (hd : d ≤ 255) :
    ∃ x, ipv4 a b c d = .ok x ∧ x.toNat = ((a * 256 + b) * 256 + c) * 256 + d := by
  refine ⟨⟨((a * 256 + b) * 256 + c) * 256 + d, by omega⟩, ?_, rfl⟩
  rw [ipv4, Checked.ofOption_eq_ok, IPv4Address.quad, if_pos ⟨ha, hb, hc, hd⟩]
  exact IPv4Address.ofNat?_eq_some.mpr rfl

lemma ipv4_over {a b c d : ℕ} (h : 255 < c ∨ 255 < d) :
    ipv4 a b c d = .error (.addressError s!"{a}.{b}.{c}.{d}") := by
  have hnone : ¬(a ≤ 255 ∧ b ≤ 255 ∧ c ≤ 255 ∧ d ≤ 255) := by omega
  rw [ipv4, IPv4Address.quad, if_neg hnone]
  rfl

lemma exists_subnet {a b c prefixlen : ℕ} (hle : prefixlen ≤ 32) (ha : a ≤ 255) (hb : b ≤ 255)
    (hc : c ≤ 255) (hdvd : 2 ^ (32 - prefixlen) ∣ ((a * 256 + b) * 256 + c) * 256 + 0) :
    ∃ n, subnet a b c 0 prefixlen hle = .ok n := by
  obtain ⟨x, hx, hval⟩ := exists_ipv4 ha hb hc (Nat.zero_le 255)
  rw [← hval] at hdvd
  exact ⟨⟨x, prefixlen, hle, hdvd⟩, by
    rw [subnet, hx, Checked.ok_bind, IPv4Network.strict, dif_pos hdvd]; rfl⟩

lemma subnet_over {a b c d prefixlen : ℕ} {hle : prefixlen ≤ 32} (h : 255 < c) :
    subnet a b c d prefixlen hle = .error (.addressError s!"{a}.{b}.{c}.{d}") := by
  rw [subnet, ipv4_over (Or.inl h)]
  rfl

/-! ### The network -/

/-- What `network` makes before its checks are through. -/
lemma exists_vipNet {index : ℕ} (h : index ≤ 255) :
    ∃ n, subnet 172 23 index 0 24 (by decide) = .ok n ∧ StartsAt n (vipBase index) 24 := by
  obtain ⟨n, hn⟩ : ∃ n, subnet 172 23 index 0 24 (by decide) = .ok n :=
    exists_subnet (by decide) (by omega) (by omega) h (by omega)
  obtain ⟨hstart, -⟩ := subnet_eq_ok hn
  refine ⟨n, hn, hstart.1.trans ?_, hstart.2⟩
  rw [vipBase]
  omega

lemma exists_pickVip {index : ℕ} (h : index ≤ 255) (wantVip : Option IPv4Address) (mode : Ha) :
    ∃ vip, pickVip index wantVip mode = .ok vip ∧ (mode = .bgp ↔ vip.isSome = true) := by
  cases mode with
  | proxy => exact ⟨none, rfl, by simp⟩
  | bgp =>
      cases wantVip with
      | some w => exact ⟨some w, rfl, by simp⟩
      | none =>
          obtain ⟨x, hx, -⟩ := exists_ipv4 (a := 172) (b := 23) (d := 1) (by omega) (by omega) h
            (by omega)
          exact ⟨some x, by simp only [pickVip, hx]; rfl, by simp⟩

/-- Up to index 31, what passes the checks is a network. -/
lemma exists_network {index : ℕ} {wantRouter : Option IPv4Address} {ha : Option Ha}
    {wantVip : Option IPv4Address} {routers : Option RouterCount} (hindex : index ≤ 31)
    (hrouter : checkWantRouter index routers wantRouter = .ok ())
    (hvip : VipAllowed index ha wantVip) :
    ∃ net, network index wantRouter ha wantVip routers = .ok net := by
  have hle : index ≤ 255 := by omega
  obtain ⟨vipNet, hvipNet, hbase⟩ := exists_vipNet hle
  obtain ⟨vip, hpick, hmode⟩ := exists_pickVip hle wantVip (ha.getD .proxy)
  obtain ⟨nodes, hnodes⟩ : ∃ n, subnet 172 22 index 0 24 (by decide) = .ok n :=
    exists_subnet (by decide) (by omega) (by omega) (by omega) (by omega)
  obtain ⟨gateway, hgateway, -⟩ := exists_ipv4 (a := 172) (b := 22) (c := index) (d := 254)
    (by omega) (by omega) (by omega) (by omega)
  obtain ⟨default, hdefault, -⟩ := exists_ipv4 (a := 172) (b := 22) (c := index) (d := 253)
    (by omega) (by omega) (by omega) (by omega)
  obtain ⟨mesh, hmesh, -⟩ := exists_ipv4 (a := 172) (b := 22) (c := index) (d := 200)
    (by omega) (by omega) (by omega) (by omega)
  obtain ⟨pods, hpods⟩ : ∃ n, subnet 10 244 (index * 8) 0 21 (by decide) = .ok n :=
    exists_subnet (by decide) (by omega) (by omega) (by omega) (by omega)
  obtain ⟨services, hservices⟩ : ∃ n, subnet 10 98 index 0 24 (by decide) = .ok n :=
    exists_subnet (by decide) (by omega) (by omega) (by omega) (by omega)
  have hwant := (checkWantVip_eq_ok hbase).mpr hvip
  have hfits : ¬ 255 < index := by omega
  simp only [network, hrouter, hvipNet, hwant, hpick, hnodes, hgateway, hdefault, hmesh, hpods,
    hservices, Checked.ok_bind, Network.check, Checked.refuseIf, hfits, hmode, ne_eq,
    not_true_eq_false, if_false, Checked.pure_eq_ok, exists_eq']

/-- From index 32 on, what passes the checks has no pod subnet. -/
lemma network_over {index : ℕ} {wantRouter : Option IPv4Address} {ha : Option Ha}
    {wantVip : Option IPv4Address} {routers : Option RouterCount} (hindex : 31 < index)
    (hrouter : checkWantRouter index routers wantRouter = .ok ())
    (hvip : 255 < index ∨ VipAllowed index ha wantVip) :
    ∃ t, network index wantRouter ha wantVip routers = .error (.addressError t) := by
  by_cases hlarge : 255 < index
  · simp only [network, hrouter, Checked.ok_bind, subnet_over hlarge, Checked.error_bind]
    exact ⟨_, rfl⟩
  · have hle : index ≤ 255 := by omega
    obtain ⟨vipNet, hvipNet, hbase⟩ := exists_vipNet hle
    obtain ⟨vip, hpick, -⟩ := exists_pickVip hle wantVip (ha.getD .proxy)
    obtain ⟨nodes, hnodes⟩ : ∃ n, subnet 172 22 index 0 24 (by decide) = .ok n :=
    exists_subnet (by decide) (by omega) (by omega) hle (by omega)
    obtain ⟨gateway, hgateway, -⟩ := exists_ipv4 (a := 172) (b := 22) (c := index) (d := 254)
      (by omega) (by omega) hle (by omega)
    obtain ⟨default, hdefault, -⟩ := exists_ipv4 (a := 172) (b := 22) (c := index) (d := 253)
      (by omega) (by omega) hle (by omega)
    obtain ⟨mesh, hmesh, -⟩ := exists_ipv4 (a := 172) (b := 22) (c := index) (d := 200)
      (by omega) (by omega) hle (by omega)
    have hwant := (checkWantVip_eq_ok hbase).mpr (hvip.resolve_left hlarge)
    have hpods : 255 < index * 8 := by omega
    simp only [network, hrouter, hvipNet, hwant, hpick, hnodes, hgateway, hdefault, hmesh,
      Checked.ok_bind, subnet_over hpods, Checked.error_bind]
    exact ⟨_, rfl⟩

/-- Otherwise a check refuses, or the network is there. -/
lemma planOnly_network {index : ℕ} {wantRouter : Option IPv4Address} {ha : Option Ha}
    {wantVip : Option IPv4Address} {routers : Option RouterCount}
    (h : ¬(31 < index ∧ checkWantRouter index routers wantRouter = .ok () ∧
      (255 < index ∨ VipAllowed index ha wantVip))) :
    PlanOnly (network index wantRouter ha wantVip routers) := by
  have hwantRouter : PlanOnly (checkWantRouter index routers wantRouter) := by
    cases wantRouter with
    | none => exact Checked.failsOnly_of_ok rfl
    | some r => exact planOnly_check fun _ => planOnly_refuseIf
  by_cases hrouter : checkWantRouter index routers wantRouter = .ok ()
  · by_cases hvip : VipAllowed index ha wantVip
    · have hindex : index ≤ 31 := by
        by_contra hover
        exact h ⟨by omega, hrouter, Or.inr hvip⟩
      obtain ⟨net, hnet⟩ := exists_network hindex hrouter hvip
      exact Checked.failsOnly_of_ok hnet
    · have hle : index ≤ 255 := by
        by_contra hover
        exact h ⟨by omega, hrouter, Or.inl (by omega)⟩
      obtain ⟨vipNet, hvipNet, hbase⟩ := exists_vipNet hle
      have hwantVip : PlanOnly (checkWantVip index (ha.getD .proxy) vipNet wantVip) := by
        cases wantVip with
        | none => exact Checked.failsOnly_of_ok rfl
        | some v => exact planOnly_check fun _ => planOnly_refuseIf
      refine Checked.failsOnly_bind hwantRouter fun _ _ =>
        Checked.failsOnly_bind (Checked.failsOnly_of_ok hvipNet) fun n hn =>
          Checked.failsOnly_bind ?_ fun _ hok => ?_
      · obtain rfl := Except.ok.inj (hvipNet.symm.trans hn)
        exact hwantVip
      · obtain rfl := Except.ok.inj (hvipNet.symm.trans hn)
        exact absurd ((checkWantVip_eq_ok hbase).mp hok) hvip
  · exact Checked.failsOnly_bind hwantRouter fun _ hok => absurd hok hrouter

/-! ### The placement -/

/-- On at least one host the round-robin succeeds, on the hosts and the pins. -/
lemma exists_placeRole {hosts : List String} (hne : hosts ≠ []) (turn : ℕ)
    (pins : List (Option String)) :
    ∃ out turn', placeRole hosts turn pins = .ok (out, turn') ∧ out.length = pins.length ∧
      ∀ h ∈ out, h ∈ hosts ∨ some h ∈ pins := by
  induction pins generalizing turn with
  | nil => exact ⟨[], turn, rfl, rfl, by simp⟩
  | cons pin rest ih =>
      cases pin with
      | some h =>
          obtain ⟨out, turn', hout, hlen, hmem⟩ := ih turn
          refine ⟨h :: out, turn', by rw [placeRole, hout]; rfl, by simp [hlen], ?_⟩
          refine List.forall_mem_cons.mpr ⟨Or.inr List.mem_cons_self, fun h' hh' => ?_⟩
          exact (hmem h' hh').imp (fun hin => hin) (List.mem_cons_of_mem _)
      | none =>
          have hlt : turn % hosts.length < hosts.length :=
            Nat.mod_lt _ (List.length_pos_of_ne_nil hne)
          obtain ⟨out, turn', hout, hlen, hmem⟩ := ih (turn + 1)
          refine ⟨hosts[turn % hosts.length] :: out, turn', ?_, by simp [hlen], ?_⟩
          · rw [placeRole, List.getElem?_eq_getElem hlt, Checked.ofOption, Checked.ok_bind, hout]
            rfl
          · refine List.forall_mem_cons.mpr ⟨Or.inl (List.getElem_mem hlt), fun h' hh' => ?_⟩
            exact (hmem h' hh').imp (fun hin => hin) (List.mem_cons_of_mem _)

/-- Every entry finds the next host of its role. -/
lemma weave_spec {roles : List Role} {cps wks : List String}
    (hcps : cps.length = roles.count .controlPlane) (hwks : wks.length = roles.count .worker) :
    (weave roles cps wks).length = roles.length ∧ ∀ h ∈ weave roles cps wks, h ∈ cps ∨ h ∈ wks := by
  induction roles generalizing cps wks with
  | nil => simp [weave]
  | cons role rest ih =>
      cases role with
      | controlPlane =>
          rw [List.count_cons_self] at hcps
          rw [List.count_cons_of_ne (by decide)] at hwks
          obtain ⟨h, cps, rfl⟩ := List.exists_cons_of_length_eq_add_one hcps
          obtain ⟨hlen, hmem⟩ := ih (Nat.succ.inj hcps) hwks
          refine ⟨by simp [weave, hlen], List.forall_mem_cons.mpr ⟨by simp, fun h' hh' => ?_⟩⟩
          exact (hmem h' hh').imp (List.mem_cons_of_mem _) fun hin => hin
      | worker =>
          rw [List.count_cons_self] at hwks
          rw [List.count_cons_of_ne (by decide)] at hcps
          obtain ⟨h, wks, rfl⟩ := List.exists_cons_of_length_eq_add_one hwks
          obtain ⟨hlen, hmem⟩ := ih hcps (Nat.succ.inj hwks)
          refine ⟨by cases cps <;> simp [weave, hlen], ?_⟩
          intro h' hh'
          have hin : h' ∈ h :: weave rest cps wks := by cases cps <;> exact hh'
          rcases List.mem_cons.mp hin with rfl | hin
          · exact Or.inr List.mem_cons_self
          · exact (hmem h' hin).imp (fun hc => hc) (List.mem_cons_of_mem _)

/-- **The placement on at least one host** gives every node a host of the list. -/
lemma exists_place {groups : List NodeGroup} {hosts : List String} (hne : hosts ≠ [])
    (hpins : ∀ g ∈ groups, ∀ h ∈ g.pinned, h ∈ hosts) :
    ∃ placed, place groups hosts = .ok placed ∧ placed.length = (unroll groups).length ∧
      ∀ h ∈ placed, h ∈ hosts := by
  obtain ⟨cps, turn, hcps, hcpsLen, hcpsMem⟩ := exists_placeRole hne 0
    (((unroll groups).filter (·.role = .controlPlane)).map (·.pinned))
  obtain ⟨wks, turn', hwks, hwksLen, hwksMem⟩ := exists_placeRole hne turn
    (((unroll groups).filter (·.role = .worker)).map (·.pinned))
  have hcount : ∀ role : Role, (((unroll groups).filter (·.role = role)).map (·.pinned)).length =
      ((unroll groups).map (·.role)).count role := by
    intro role
    rw [List.length_map, List.count_eq_countP, List.countP_map, List.countP_eq_length_filter]
    rfl
  have hpinned : ∀ role : Role, ∀ h, some h ∈ ((unroll groups).filter (·.role = role)).map (·.pinned) →
      h ∈ hosts := by
    intro role h hmem
    obtain ⟨g, hg, hpin⟩ := List.mem_map.mp hmem
    obtain ⟨g', hg', hrep⟩ := List.mem_flatMap.mp (List.mem_of_mem_filter hg)
    obtain rfl := List.eq_of_mem_replicate hrep
    exact hpins g hg' h hpin
  obtain ⟨hlen, hmem⟩ := weave_spec (hcpsLen.trans (hcount .controlPlane))
    (hwksLen.trans (hcount .worker))
  refine ⟨weave ((unroll groups).map (·.role)) cps wks, ?_, ?_, fun h hh => ?_⟩
  · simp only [place, hcps, hwks, Checked.ok_bind]
    rfl
  · rw [hlen, List.length_map]
  · rcases hmem h hh with hh | hh
    · exact (hcpsMem h hh).elim (fun hin => hin) (hpinned _ h)
    · exact (hwksMem h hh).elim (fun hin => hin) (hpinned _ h)

lemma exists_placeRouters {want : Option (List String)} {hosts : List String} {routers : RouterCount}
    (hne : hosts ≠ []) (hwant : ∀ l ∈ want, (∀ r ∈ l, r ∈ hosts) ∧ l.length = routers.toNat) :
    ∃ l, placeRouters want hosts routers = .ok l ∧ l.length = routers.toNat ∧ ∀ r ∈ l, r ∈ hosts := by
  cases want with
  | some l => exact ⟨l, rfl, (hwant l rfl).2, (hwant l rfl).1⟩
  | none =>
      have hlt : ∀ i, i % hosts.length < hosts.length := fun i =>
        Nat.mod_lt _ (List.length_pos_of_ne_nil hne)
      obtain ⟨l, hl⟩ := Checked.exists_mapM (ε := Raised) (l := List.range routers.toNat)
        (f := fun i => Checked.ofOption .zeroDivisionError hosts[i % hosts.length]?)
        fun i _ => ⟨_, by rw [List.getElem?_eq_getElem (hlt i)]; rfl⟩
      have hpointwise := Checked.mapM_eq_ok.mp hl
      refine ⟨l, hl, ?_, fun r hr => ?_⟩
      · rw [← hpointwise.length_eq, List.length_range]
      · obtain ⟨i, -, hi⟩ := Checked.exists_of_forall₂ hpointwise r hr
        exact List.mem_of_getElem? (Checked.ofOption_eq_ok.mp hi)

/-! ### The nodes -/

/-- A size that was checked is no obstacle to a node. -/
lemma exists_expandNode {name : ClusterName} {index : ℕ} {ips : Option (List IPv4Address)}
    {hosts : Option (List String)} {ip n : ℕ} {g : NodeGroup} {address : IPv4Address}
    {host : Option String} (hsize : sizePattern g.memory = true)
    (haddress : nodeAddress index ips ip = .ok address) (hhost : nodeHost hosts ip = .ok host) :
    ∃ node, expandNode name index ips hosts ip n g = .ok node ∧ node.host = host :=
  ⟨_, expandNode_eq_ok.mpr ⟨address, host, ⟨_, memoryPattern_toLower hsize⟩, haddress, hhost,
    Matching.ofText?_eq_some.mpr rfl, rfl⟩, rfl⟩

/-- With an address and a host for each, every node can be written. -/
lemma exists_expandFrom {name : ClusterName} {index : ℕ} {ips : Option (List IPv4Address)}
    {hosts : Option (List String)} {groups : List NodeGroup} {ip : ℕ} {seen : Role → ℕ}
    {P : Option String → Prop} (hsize : ∀ g ∈ groups, sizePattern g.memory = true)
    (hgiven : ∀ i, ip < i → i ≤ ip + groups.length → ∃ address host,
      nodeAddress index ips i = .ok address ∧ nodeHost hosts i = .ok host ∧ P host) :
    ∃ nodes, expandFrom name index ips hosts ip seen groups = .ok nodes ∧
      nodes.length = groups.length ∧ ∀ n ∈ nodes, P n.host := by
  induction groups generalizing ip seen with
  | nil => exact ⟨[], rfl, rfl, by simp⟩
  | cons g rest ih =>
      obtain ⟨hg, hrest⟩ := List.forall_mem_cons.mp hsize
      rw [List.length_cons] at hgiven
      obtain ⟨address, host, haddress, hhost, hP⟩ := hgiven (ip + 1) (by omega) (by omega)
      obtain ⟨node, hnode, rfl⟩ : ∃ node,
          expandNode name index ips hosts (ip + 1) (seen g.role + 1) g = .ok node ∧ node.host = host :=
        exists_expandNode hg haddress hhost
      obtain ⟨tail, htail, hlen, hall⟩ : ∃ tail, expandFrom name index ips hosts (ip + 1)
          (Function.update seen g.role (seen g.role + 1)) rest = .ok tail ∧
            tail.length = rest.length ∧ ∀ n ∈ tail, P n.host :=
        ih hrest fun i hlow hhigh => hgiven i (by omega) (by omega)
      exact ⟨node :: tail, expandFrom_cons_eq_ok.mpr ⟨node, tail, hnode, htail, rfl⟩, by simp [hlen],
        List.forall_mem_cons.mpr ⟨hP, hall⟩⟩

/-- Counted addresses end at `.255`. -/
lemma expandFrom_over {name : ClusterName} {index : ℕ} {groups : List NodeGroup} {ip : ℕ}
    {seen : Role → ℕ} (hsize : ∀ g ∈ groups, sizePattern g.memory = true) (hindex : index ≤ 255)
    (hip : ip ≤ 255) (hover : 255 < ip + groups.length) :
    ∃ t, expandFrom name index none none ip seen groups = .error (.addressError t) := by
  induction groups generalizing ip seen with
  | nil => exact absurd hover (by simpa using hip)
  | cons g rest ih =>
      obtain ⟨hg, hrest⟩ := List.forall_mem_cons.mp hsize
      by_cases hnext : ip + 1 ≤ 255
      · obtain ⟨address, haddress, -⟩ := exists_ipv4 (a := 172) (b := 22) (c := index) (d := ip + 1)
          (by omega) (by omega) hindex hnext
        obtain ⟨node, hnode, -⟩ : ∃ node,
            expandNode name index none none (ip + 1) (seen g.role + 1) g = .ok node ∧
              node.host = none := exists_expandNode hg haddress rfl
        rw [List.length_cons] at hover
        obtain ⟨t, ht⟩ : ∃ t, expandFrom name index none none (ip + 1)
            (Function.update seen g.role (seen g.role + 1)) rest = .error (.addressError t) :=
          ih hrest hnext (by omega)
        refine ⟨t, ?_⟩
        simp only [expandFrom, Function.update_self, hnode, Checked.ok_bind, ht, Checked.error_bind]
      · have haddress : nodeAddress index none (ip + 1) =
            .error (.addressError s!"{172}.{22}.{index}.{ip + 1}") := ipv4_over (by omega)
        simp only [expandFrom, expandNode, haddress, Checked.error_bind]
        exact ⟨_, rfl⟩

/-- Without hosts no node has one. -/
lemma expandFrom_unplaced {name : ClusterName} {index : ℕ} {ips : Option (List IPv4Address)}
    {groups : List NodeGroup} {ip : ℕ} {seen : Role → ℕ} {nodes : List Node}
    (h : expandFrom name index ips none ip seen groups = .ok nodes) : ∀ n ∈ nodes, n.host = none := by
  induction groups generalizing ip seen nodes with
  | nil => rw [← Except.ok.inj h]; simp
  | cons g rest ih =>
      obtain ⟨node, tail, hnode, htail, rfl⟩ := expandFrom_cons_eq_ok.mp h
      obtain ⟨address, host, memory, -, hhost, -, rfl⟩ := expandNode_eq_ok.mp hnode
      exact List.forall_mem_cons.mpr ⟨(Except.ok.inj hhost).symm, ih htail⟩

/-! ### What a definition becomes -/

/-- A cluster that the rest of tkctl can work with: it passes the validators, and what is derived from
it is there. The endpoint address always is. -/
structure Usable (c : Cluster) : Prop where
  spec : c.spec.check = .ok ()
  network : c.spec.network.check = .ok ()
  range : ∀ r ∈ c.spec.network.range, rangePattern r = true
  routers : ∃ routers, c.routers = .ok routers
  first : ∃ n, c.firstControlPlane = some n ∧ n.role = .controlPlane

/-- `PlanError`, or a cluster that works. -/
structure Decides (u : UserCluster) (existing : Option Cluster) (f : Facts) : Prop where
  refuses : PlanOnly (resolve u existing f)
  gives : ∀ c, resolve u existing f = .ok c → Usable c

/-- What is checked before plan looks at the hosts. -/
structure Considered (u : UserCluster) (existing : Option Cluster) (f : Facts) (index : ℕ) :
    Prop where
  valid : validate u = .ok ()
  picked : pickIndex u existing f.usedIndices = .ok index
  free : ¬(existing = none ∧ index ∈ f.usedIndices ∧ f.allowOverlap = false)
  routers : checkRouters u existing = .ok ()

/-- One host, behind every check: no such subnet, or no such address for a node. -/
structure SingleOver (u : UserCluster) (index : ℕ) : Prop where
  router : checkWantRouter index (u.spec.network.bind (·.routers)) (u.spec.network.bind (·.router))
    = .ok ()
  passed : 255 < index ∨ VipAllowed index (u.spec.network.bind (·.ha)) (u.spec.network.bind (·.vip)) ∧
    (31 < index ∨ 255 < u.nodeCount)

/-- The checks of hosts and range pass, and the range is long enough. -/
structure RangeCut (u : UserCluster) (userHosts : List UserHost) (lans : String → Option LanFacts)
    (pool : List IPv4Address) (a : Allocation) : Prop where
  inLan : ∃ first, sharedLan lans (userHosts.map (·.name.text)) = .ok first ∧
    checkPool lans (userHosts.map (·.name.text)) first pool = .ok ()
  parsed : parseRange (((u.spec.network.getD {}).range.map (·.text)).getD "") = .ok pool
  cut : allocate pool (userHosts.any (·.ssh.isNone)) ((u.spec.network.getD {}).routers.getD .one)
    u.nodeCount = .ok a

/-- The recorded cluster has the hosts, the placement and the range of the definition. -/
def ResumesCut (u : UserCluster) (userHosts : List UserHost) (lans : String → Option LanFacts)
    (pool : List IPv4Address) (a : Allocation) (index : ℕ) (c : Cluster) : Prop :=
  ∃ placed routerHosts nodes hosts,
    place u.spec.nodes (userHosts.map (·.name.text)) = .ok placed ∧
    placeRouters (u.spec.network.getD {}).routerHosts (userHosts.map (·.name.text))
      ((u.spec.network.getD {}).routers.getD .one) = .ok routerHosts ∧
    expandNodes u.metadata.name u.spec.nodes index (some a.nodes) (some placed) = .ok nodes ∧
    userHosts.mapM (recordHost lans) = .ok hosts ∧
    checkResume u.metadata.name.text c hosts nodes { c.spec.network with
      range := some (rangesText pool), routerHosts := some routerHosts } = .ok ()

/-- Several hosts, behind every check: no host, no such subnet, or two routers that `Cluster.routers`
cannot derive from the range. -/
def MultiOver (u : UserCluster) (existing : Option Cluster) (f : Facts) (index : ℕ)
    (userHosts : List UserHost) : Prop :=
  userHosts = [] ∨ ∃ lans pool a, f.lans = some lans ∧ RangeCut u userHosts lans pool a ∧
    (255 < index ∨ VipAllowed index (u.spec.network.getD {}).ha (u.spec.network.getD {}).vip ∧
      (31 < index ∨ wantedRouters u = .two ∧ ¬ StartsInRun pool ∧
        ∀ c ∈ existing, ResumesCut u userHosts lans pool a index c))

/-- Plan comes to a limit that it does not check. -/
def Over (u : UserCluster) (existing : Option Cluster) (f : Facts) (index : ℕ) : Prop :=
  match u.spec.hosts with
  | none => SingleOver u index
  | some userHosts => MultiOver u existing f index userHosts

lemma resolve_of_considered {u : UserCluster} {existing : Option Cluster} {f : Facts} {index : ℕ}
    (h : Considered u existing f index) : resolve u existing f = (do
      let t ← topology u existing f index
      (specOf u existing f t).check
      return { metadata := u.metadata, spec := specOf u existing f t,
               status := statusOf existing f }) := by
  have hfree := Checked.refuseIf_eq_ok (u := ()) (e := Raised.planError
    (s!"subnet 172.22.{index}.0/24 is already used by another cluster; "
      ++ "pass --allow-overlap to force")) |>.mpr h.free
  simp only [resolve, h.valid, h.picked, h.routers, hfree, Checked.ok_bind]

/-- Before that, plan raises `PlanError` only. -/
lemma planOnly_resolve {u : UserCluster} {existing : Option Cluster} {f : Facts}
    (h : ∀ index, Considered u existing f index → PlanOnly (topology u existing f index) ∧
      ∀ t, topology u existing f index = .ok t → (specOf u existing f t).check = .ok ()) :
    PlanOnly (resolve u existing f) := by
  refine Checked.failsOnly_bind (planOnly_validate u) fun _ hvalid =>
    Checked.failsOnly_bind (planOnly_pickIndex u existing f.usedIndices) fun index hpicked =>
      planOnly_check fun hfree => Checked.failsOnly_bind (planOnly_checkRouters u existing)
        fun _ hrouters => ?_
  obtain ⟨honly, hcheck⟩ := h index ⟨hvalid, hpicked, hfree, hrouters⟩
  exact Checked.failsOnly_bind honly fun t ht =>
    Checked.failsOnly_bind (Checked.failsOnly_of_ok (hcheck t ht)) fun _ _ => Checked.failsOnly_of_ok rfl

/-! ### One host -/

/-- A network passed the checks, and its index has prefixes. -/
lemma checks_of_network {index : ℕ} {wantRouter : Option IPv4Address} {ha : Option Ha}
    {wantVip : Option IPv4Address} {routers : Option RouterCount} {net : Network}
    (h : network index wantRouter ha wantVip routers = .ok net) :
    index ≤ 31 ∧ checkWantRouter index routers wantRouter = .ok () ∧ VipAllowed index ha wantVip := by
  have hle := (network_byIndex h).1.le
  simp only [network, Checked.bind_eq_ok, Checked.exists_unit] at h
  obtain ⟨hrouter, vipNet, hvipNet, hwantVip, -⟩ := h
  have hsmall : index ≤ 255 := by omega
  obtain ⟨vipNet', hvipNet', hbase⟩ := exists_vipNet hsmall
  obtain rfl := Except.ok.inj (hvipNet'.symm.trans hvipNet)
  exact ⟨hle, hrouter, (checkWantVip_eq_ok hbase).mp hwantVip⟩

section Single

variable {u : UserCluster} {index : ℕ} (hvalid : validate u = .ok ())

include hvalid

lemma sizePattern_of_mem_unroll : ∀ g ∈ unroll u.spec.nodes, sizePattern g.memory = true := by
  intro g hg
  obtain ⟨g', hg', hrep⟩ := List.mem_flatMap.mp hg
  obtain rfl := List.eq_of_mem_replicate hrep
  exact ((accepted_of_validate hvalid).groups g hg').size

/-- Up to 255 nodes have addresses. -/
lemma exists_counted (hindex : index ≤ 31) (hcount : u.nodeCount ≤ 255) :
    ∃ nodes, expandNodes u.metadata.name u.spec.nodes index none none = .ok nodes := by
  have hgiven : ∀ i, 0 < i → i ≤ 0 + (unroll u.spec.nodes).length → ∃ address host,
      nodeAddress index none i = .ok address ∧ nodeHost none i = .ok host ∧ True := by
    intro i _ hi
    rw [Nat.zero_add, length_unroll] at hi
    obtain ⟨address, haddress, -⟩ := exists_ipv4 (a := 172) (b := 22) (c := index) (d := i)
      (by omega) (by omega) (by omega) (hi.trans hcount)
    exact ⟨address, none, haddress, rfl, trivial⟩
  obtain ⟨nodes, hnodes, -⟩ := exists_expandFrom (P := fun _ => True)
    (sizePattern_of_mem_unroll hvalid) hgiven
  exact ⟨nodes, hnodes⟩

lemma planOnly_single (h : ¬ SingleOver u index) : PlanOnly (resolveSingle u index) := by
  refine Checked.failsOnly_bind (planOnly_network fun hover => h ⟨hover.2.1, ?_⟩) fun net hnet =>
    ?_
  · exact hover.2.2.imp (fun hlarge => hlarge) fun hvip => ⟨hvip, Or.inl hover.1⟩
  · obtain ⟨hindex, hrouter, hvip⟩ := checks_of_network hnet
    have hcount : u.nodeCount ≤ 255 := by
      by_contra hover
      exact h ⟨hrouter, Or.inr ⟨hvip, Or.inr (by omega)⟩⟩
    obtain ⟨nodes, hnodes⟩ := exists_counted hvalid hindex hcount
    exact Checked.failsOnly_bind (Checked.failsOnly_of_ok hnodes) fun _ _ =>
      Checked.failsOnly_of_ok rfl

lemma resolveSingle_over (h : SingleOver u index) :
    ∃ t, resolveSingle u index = .error (.addressError t) := by
  by_cases hindex : 31 < index
  · obtain ⟨t, ht⟩ := network_over hindex h.router (h.passed.imp (fun hl => hl) And.left)
    exact ⟨t, by rw [resolveSingle, ht]; rfl⟩
  · obtain ⟨hvip, hcount⟩ := h.passed.resolve_left (by omega)
    obtain ⟨net, hnet⟩ := exists_network (Nat.le_of_not_lt hindex) h.router hvip
    have hlen := length_unroll u.spec.nodes
    have hover : 255 < (unroll u.spec.nodes).length := by
      rw [hlen]
      exact hcount.resolve_left hindex
    obtain ⟨t, ht⟩ : ∃ t, expandFrom u.metadata.name index none none 0 (fun _ => 0)
        (unroll u.spec.nodes) = .error (.addressError t) :=
      expandFrom_over (sizePattern_of_mem_unroll hvalid) (by omega) (Nat.zero_le 255) (by omega)
    exact ⟨t, by rw [resolveSingle, hnet, Checked.ok_bind, expandNodes, ht]; rfl⟩

end Single

/-! ### Several hosts -/

section Multi

variable {u : UserCluster} {existing : Option Cluster} {f : Facts} {index : ℕ}
  {userHosts : List UserHost} {lans : String → Option LanFacts} {pool : List IPv4Address}
  {a : Allocation}

/-- What plan lays out on the hosts, with every place it names on the list. -/
structure Laid (u : UserCluster) (userHosts : List UserHost) (lans : String → Option LanFacts)
    (a : Allocation) (index : ℕ) (placed routerHosts : List String) (nodes : List Node)
    (hosts : List Host) : Prop where
  place : place u.spec.nodes (userHosts.map (·.name.text)) = .ok placed
  placeRouters : placeRouters (u.spec.network.getD {}).routerHosts (userHosts.map (·.name.text))
    ((u.spec.network.getD {}).routers.getD .one) = .ok routerHosts
  expand : expandNodes u.metadata.name u.spec.nodes index (some a.nodes) (some placed) = .ok nodes
  record : userHosts.mapM (recordHost lans) = .ok hosts
  length : routerHosts.length = ((u.spec.network.getD {}).routers.getD .one).toNat
  routersListed : ∀ r ∈ routerHosts, r ∈ userHosts.map (·.name.text)
  nodesListed : ∀ n ∈ nodes, ∃ h ∈ n.host, h ∈ userHosts.map (·.name.text)

/-- Behind the cut the layout succeeds. -/
lemma exists_laid (index : ℕ) (hvalid : validate u = .ok ()) (hu : u.spec.hosts = some userHosts)
    (hne : userHosts ≠ []) (hlans : ∀ h ∈ userHosts, ∃ lan, lans h.name.text = some lan)
    (hcut : allocate pool (userHosts.any (·.ssh.isNone)) ((u.spec.network.getD {}).routers.getD .one)
      u.nodeCount = .ok a) :
    ∃ placed routerHosts nodes hosts, Laid u userHosts lans a index placed routerHosts nodes hosts := by
  obtain ⟨net, hnet⟩ := acceptedHosts_of_validate hvalid hu
  have hnames : userHosts.map (·.name.text) ≠ [] := by simpa using hne
  have hwant : u.spec.network.getD {} = net := by rw [hnet.network, Option.getD_some]
  obtain ⟨placed, hplaced, hlen, hmem⟩ := exists_place hnames hnet.pinned
  obtain ⟨routerHosts, hrouterHosts, hrlen, hrmem⟩ := exists_placeRouters hnames
    hnet.routerHosts
  have halloc := allocate_cut hcut
  have hunroll : (unroll u.spec.nodes).length = u.nodeCount := length_unroll _
  have hips : a.nodes.length = u.nodeCount := by
    have henough := halloc.enough
    rw [halloc.nodes, List.length_take, List.length_drop]
    omega
  have hgiven : ∀ i, 0 < i → i ≤ 0 + (unroll u.spec.nodes).length → ∃ address host,
      nodeAddress index (some a.nodes) i = .ok address ∧ nodeHost (some placed) i = .ok host ∧
        ∃ h ∈ host, h ∈ userHosts.map (·.name.text) := by
    intro i hlow hhigh
    rw [Nat.zero_add] at hhigh
    have haddress : i - 1 < a.nodes.length := by omega
    have hhost : i - 1 < placed.length := by omega
    exact ⟨a.nodes[i - 1], some placed[i - 1],
      by rw [nodeAddress, List.getElem?_eq_getElem haddress]; rfl,
      by rw [nodeHost, List.getElem?_eq_getElem hhost]; rfl,
      placed[i - 1], rfl, hmem _ (List.getElem_mem hhost)⟩
  obtain ⟨nodes, hnodes, -, hhosts⟩ := exists_expandFrom
    (P := fun host => ∃ h ∈ host, h ∈ userHosts.map (·.name.text))
    (sizePattern_of_mem_unroll hvalid) hgiven
  obtain ⟨hosts, hrecord⟩ := Checked.exists_mapM (f := recordHost lans) (l := userHosts) fun h hh => by
    obtain ⟨lan, hlan⟩ := hlans h hh
    exact ⟨_, by rw [recordHost, lanOf, hlan]; rfl⟩
  exact ⟨placed, routerHosts, nodes, hosts,
    { place := hplaced
      placeRouters := by rw [hwant]; exact hrouterHosts
      expand := hnodes
      record := hrecord
      length := by rw [hwant]; exact hrlen
      routersListed := hrmem
      nodesListed := hhosts }⟩

/-- What the layout is made of is determined. -/
lemma Laid.eq {placed routerHosts : List String} {nodes : List Node} {hosts : List Host} {t : Topology}
    {p : Parts} (h : Laid u userHosts lans p.alloc index placed routerHosts nodes hosts)
    (hp : Multi u existing f index userHosts t p) (hlans : p.lans = lans) :
    placed = p.placed ∧ routerHosts = p.routerHosts ∧ nodes = t.nodes ∧ hosts = p.hosts := by
  obtain rfl := Except.ok.inj (h.place.symm.trans hp.nodeHosts)
  obtain rfl := Except.ok.inj (h.placeRouters.symm.trans hp.routers)
  obtain rfl := Except.ok.inj (h.expand.symm.trans hp.nodes)
  obtain rfl := Except.ok.inj (h.record.symm.trans (hlans ▸ hp.recorded))
  exact ⟨rfl, rfl, rfl, rfl⟩

/-- **A topology on several hosts passes the validators of the spec.** -/
lemma check_multi (hvalid : validate u = .ok ()) (hu : u.spec.hosts = some userHosts)
    (hne : userHosts ≠ []) {t : Topology} (h : resolveMulti u existing f index userHosts = .ok t) :
    (specOf u existing f t).check = .ok () := by
  obtain ⟨p, hp⟩ := resolveMulti_eq_ok.mp h
  obtain ⟨net, hnet⟩ := acceptedHosts_of_validate hvalid hu
  have hlans : ∀ h ∈ userHosts, ∃ lan, p.lans h.name.text = some lan := by
    intro h hh
    obtain ⟨-, -, -, hown⟩ := checkPool_eq_ok.mp hp.checked
    obtain ⟨lan, hlan, -⟩ := hown h.name.text (List.mem_map_of_mem hh)
    exact ⟨lan, hlan⟩
  obtain ⟨placed, routerHosts, nodes, hosts, hlaid⟩ := exists_laid index hvalid hu hne
    hlans hp.cut
  obtain ⟨rfl, rfl, rfl, rfl⟩ := hlaid.eq hp rfl
  obtain ⟨byIndex, hby, hneteq⟩ := networkMulti_eq_ok.mp hp.net
  have hrouters : t.net.routers = (u.spec.network.getD {}).routers.getD .one := by
    rw [hneteq]
    exact (network_fields hby).2.1
  have hpairs := map_recordHost hp.recorded
  have hnames : p.hosts.map (·.name.text) = userHosts.map (·.name.text) := by
    simpa [List.map_map, Function.comp_def] using congrArg (List.map fun q => q.1.text) hpairs
  have hops : p.hosts.countP (·.ssh.isNone) = userHosts.countP (·.ssh.isNone) := by
    have hcount := congrArg (List.countP fun q => q.2.isNone) hpairs
    simpa [List.countP_map, Function.comp_def] using hcount
  have hnodes : t.nodes ≠ [] := by
    intro hnil
    have hips := expandFrom_ips hp.nodes
    have hfirst := (accepted_of_validate hvalid).first
    rw [hnil, List.drop_zero, length_unroll, (allocate_cut hp.cut).nodes, List.take_take, min_self,
      List.map_nil, eq_comm, List.take_eq_nil_iff] at hips
    have henough := (allocate_cut hp.cut).enough
    rcases hips with hzero | hshort
    · cases hgs : u.spec.nodes with
      | nil => simp [hgs] at hfirst
      | cons g rest =>
          have hpos := g.count.pos
          simp [hgs] at hzero
    · rw [List.drop_eq_nil_iff] at hshort
      omega
  have hok : HostsOk t.net t.nodes p.hosts :=
    { nodup := by rw [hnames]; exact hnet.nodup
      operator := by rw [hops]; exact hnet.operator
      placed := by rw [hnames]; exact hlaid.nodesListed
      routerHosts := ⟨p.routerHosts, by rw [hneteq], by rw [hrouters]; exact hlaid.length,
        by rw [hnames]; exact hlaid.routersListed⟩ }
  have hrange : t.net.range = some (rangesText p.pool) := by rw [hneteq]
  simp only [Spec.check, specOf, hp.hosts, hrange, Checked.check_bind_eq_ok, Checked.refuseIf_eq_ok,
    hnodes, not_false_eq_true, reduceCtorEq, ne_eq, not_true_eq_false, true_and]
  exact Spec.checkHosts_eq_ok.mpr hok

/-- A resume in terms of the layout. -/
lemma resumes_iff (c : Cluster) {placed routerHosts : List String} {nodes : List Node}
    {hosts : List Host} (h : Laid u userHosts lans a index placed routerHosts nodes hosts) :
    ResumesCut u userHosts lans pool a index c ↔
      checkResume u.metadata.name.text c hosts nodes { c.spec.network with
        range := some (rangesText pool), routerHosts := some routerHosts } = .ok () := by
  constructor
  · rintro ⟨placed', routerHosts', nodes', hosts', hplace, hrouters, hexpand, hrecord, hresume⟩
    obtain rfl := Except.ok.inj (h.place.symm.trans hplace)
    obtain rfl := Except.ok.inj (h.placeRouters.symm.trans hrouters)
    obtain rfl := Except.ok.inj (h.expand.symm.trans hexpand)
    obtain rfl := Except.ok.inj (h.record.symm.trans hrecord)
    exact hresume
  · exact fun hresume => ⟨placed, routerHosts, nodes, hosts, h.place, h.placeRouters, h.expand,
      h.record, hresume⟩

/-- A resume looks at the range and the router hosts of the network only. -/
lemma checkResume_congr {name : String} {c : Cluster} {hosts : List Host} {nodes : List Node}
    {net net' : Network} (hrange : net.range = net'.range)
    (hhosts : net.routerHosts = net'.routerHosts) :
    checkResume name c hosts nodes net = checkResume name c hosts nodes net' := by
  simp only [checkResume, hrange, hhosts]

lemma planOnly_multi (hvalid : validate u = .ok ()) (hu : u.spec.hosts = some userHosts)
    (hlans : ∃ lans, f.lans = some lans ∧ ∀ h ∈ userHosts, ∃ lan, lans h.name.text = some lan)
    (h : ¬ MultiOver u existing f index userHosts) :
    PlanOnly (resolveMulti u existing f index userHosts) := by
  obtain ⟨lans, htold, hknown⟩ := hlans
  have hne : userHosts ≠ [] := fun hnil => h (Or.inl hnil)
  have hnames : ∀ n ∈ userHosts.map (·.name.text), ∃ lan, lans n = some lan := by
    intro n hn
    obtain ⟨h, hh, rfl⟩ := List.mem_map.mp hn
    exact hknown h hh
  have hlook : Checked.ofOption (Raised.planError
      "a multi-host cluster needs the hosts' LAN facts to be planned") f.lans = .ok lans := by
    rw [htold]
    rfl
  rw [resolveMulti, hlook, Checked.ok_bind]
  refine Checked.failsOnly_bind (planOnly_sharedLan hnames (by simpa using hne)) fun first hfirst =>
    Checked.failsOnly_bind (planOnly_parseRange _) fun pool hpool =>
      Checked.failsOnly_bind (planOnly_checkPool hnames) fun _ hchecked => ?_
  by_cases hcut : ∃ a, allocate pool (userHosts.any (·.ssh.isNone))
      ((u.spec.network.getD {}).routers.getD .one) u.nodeCount = .ok a
  · obtain ⟨a, ha⟩ := hcut
    obtain ⟨placed, routerHosts, nodes, hosts, hlaid⟩ := exists_laid index hvalid hu hne
      hknown ha
    have hreached : RangeCut u userHosts lans pool a := ⟨⟨first, hfirst, hchecked⟩, hpool, ha⟩
    have hnetwork : PlanOnly (networkMulti index first (rangesText pool) (u.spec.network.getD {}).ha
        (u.spec.network.getD {}).vip (some ((u.spec.network.getD {}).routers.getD .one)) a
        routerHosts) := by
      refine Checked.failsOnly_bind (planOnly_network fun hover => h (Or.inr
        ⟨lans, pool, a, htold, hreached, ?_⟩)) fun _ _ => Checked.failsOnly_of_ok rfl
      exact hover.2.2.imp (fun hl => hl) fun hvip => ⟨hvip, Or.inl hover.1⟩
    refine Checked.failsOnly_bind (Checked.failsOnly_of_ok hlaid.place) fun placed' hplaced =>
      Checked.failsOnly_bind (Checked.failsOnly_of_ok hlaid.placeRouters) fun routerHosts' hrouters =>
        Checked.failsOnly_bind (Checked.failsOnly_of_ok ha) fun a' ha' => ?_
    obtain rfl := Except.ok.inj (hlaid.place.symm.trans hplaced)
    obtain rfl := Except.ok.inj (hlaid.placeRouters.symm.trans hrouters)
    obtain rfl := Except.ok.inj (ha.symm.trans ha')
    refine Checked.failsOnly_bind hnetwork fun net _ =>
      Checked.failsOnly_bind (Checked.failsOnly_of_ok hlaid.expand) fun _ _ =>
        Checked.failsOnly_bind (Checked.failsOnly_of_ok hlaid.record) fun _ _ => ?_
    cases existing with
    | none => exact Checked.failsOnly_of_ok rfl
    | some c => exact Checked.failsOnly_bind planOnly_checkResume fun _ _ => Checked.failsOnly_of_ok rfl
  · obtain ⟨net, hnet⟩ := acceptedHosts_of_validate hvalid hu
    have hnames' : userHosts.map (·.name.text) ≠ [] := by simpa using hne
    obtain ⟨placed, hplaced, -⟩ := exists_place hnames' hnet.pinned
    have hwant : u.spec.network.getD {} = net := by rw [hnet.network, Option.getD_some]
    obtain ⟨routerHosts, hrouters, -⟩ := exists_placeRouters hnames'
      hnet.routerHosts
    refine Checked.failsOnly_bind (Checked.failsOnly_of_ok hplaced) fun _ _ =>
      Checked.failsOnly_bind (Checked.failsOnly_of_ok (by rw [hwant]; exact hrouters)) fun _ _ =>
        Checked.failsOnly_bind planOnly_allocate fun a ha => absurd ⟨a, ha⟩ hcut

/-- An index over 31 behind the checks. -/
lemma resolveMulti_over (existing : Option Cluster) (hvalid : validate u = .ok ())
    (hu : u.spec.hosts = some userHosts)
    (hne : userHosts ≠ []) (htold : f.lans = some lans)
    (hlans : ∀ h ∈ userHosts, ∃ lan, lans h.name.text = some lan)
    (hcut : RangeCut u userHosts lans pool a) (hindex : 31 < index)
    (hvip : 255 < index ∨ VipAllowed index (u.spec.network.getD {}).ha (u.spec.network.getD {}).vip) :
    ∃ t, resolveMulti u existing f index userHosts = .error (.addressError t) := by
  obtain ⟨placed, routerHosts, nodes, hosts, hlaid⟩ := exists_laid index hvalid hu hne
    hlans hcut.cut
  obtain ⟨first, hfirst, hchecked⟩ := hcut.inLan
  obtain ⟨t, ht⟩ : ∃ t, network index none (u.spec.network.getD {}).ha (u.spec.network.getD {}).vip
      (some ((u.spec.network.getD {}).routers.getD .one)) = .error (.addressError t) :=
    network_over hindex rfl hvip
  have hcut' := hcut.cut
  rw [UserCluster.nodeCount] at hcut'
  refine ⟨t, ?_⟩
  simp only [resolveMulti, htold, Checked.ofOption, hfirst, hcut.parsed, hchecked, hlaid.place,
    hlaid.placeRouters, hcut', networkMulti, ht, Checked.ok_bind, Checked.error_bind]

/-- Behind the checks, with an index that has prefixes, plan gives a topology. -/
lemma exists_topology (hvalid : validate u = .ok ()) (hu : u.spec.hosts = some userHosts)
    (hne : userHosts ≠ []) (htold : f.lans = some lans)
    (hlans : ∀ h ∈ userHosts, ∃ lan, lans h.name.text = some lan)
    (hcut : RangeCut u userHosts lans pool a) (hindex : index ≤ 31)
    (hvip : VipAllowed index (u.spec.network.getD {}).ha (u.spec.network.getD {}).vip)
    (hresume : ∀ c ∈ existing, ResumesCut u userHosts lans pool a index c) :
    ∃ t p, Multi u existing f index userHosts t p ∧ p.pool = pool := by
  obtain ⟨placed, routerHosts, nodes, hosts, hlaid⟩ := exists_laid index hvalid hu hne
    hlans hcut.cut
  obtain ⟨first, hfirst, hchecked⟩ := hcut.inLan
  obtain ⟨byIndex, hby⟩ : ∃ net, network index none (u.spec.network.getD {}).ha
      (u.spec.network.getD {}).vip (some ((u.spec.network.getD {}).routers.getD .one)) = .ok net :=
    exists_network hindex rfl hvip
  have hnet : networkMulti index first (rangesText pool) (u.spec.network.getD {}).ha
      (u.spec.network.getD {}).vip (some ((u.spec.network.getD {}).routers.getD .one)) a routerHosts
        = .ok _ := networkMulti_eq_ok.mpr ⟨byIndex, hby, rfl⟩
  refine ⟨⟨_, nodes, some hosts⟩, ⟨lans, first, pool, placed, routerHosts, a, hosts⟩,
    { told := htold
      shared := hfirst
      parsed := hcut.parsed
      checked := hchecked
      nodeHosts := hlaid.place
      routers := hlaid.placeRouters
      cut := hcut.cut
      net := hnet
      nodes := hlaid.expand
      recorded := hlaid.record
      hosts := rfl
      resume := fun c hc => ?_ }, rfl⟩
  have hsame := (resumes_iff c hlaid).mp (hresume c hc)
  exact (checkResume_congr rfl rfl).trans hsame

end Multi

/-! ### What the routers are derived from -/

/-- On several hosts the routers are there unless two of them need the start of a range whose text
does not start with a run. -/
lemma exists_routers_iff {c : Cluster} {pool : List IPv4Address} {l : List String}
    (hrange : c.spec.network.range = some (rangesText pool))
    (hhosts : c.spec.network.routerHosts = some l) (hlen : l.length = c.spec.network.routers.toNat)
    (hlong : 2 ≤ pool.length) (hbelow : ∀ a ∈ pool, a.toNat + 1 < 2 ^ 32) :
    (∃ routers, c.routers = .ok routers) ↔
      (c.spec.network.routers = .two → StartsInRun pool) := by
  obtain ⟨first, second, rest, rfl⟩ : ∃ first second rest, pool = first :: second :: rest := by
    match pool, hlong with
    | first :: second :: rest, _ => exact ⟨first, second, rest, rfl⟩
  cases hrouters : c.spec.network.routers with
  | one =>
      rw [hrouters] at hlen
      obtain ⟨h, rfl⟩ := List.length_eq_one_iff.mp hlen
      simp only [routers_one hrouters hhosts, Except.ok.injEq, exists_eq', reduceCtorEq,
        false_implies]
  | two =>
      rw [hrouters] at hlen
      obtain ⟨h1, h2, rfl⟩ := List.length_eq_two.mp hlen
      have hthird : ∀ n : ℕ, first.toNat + 2 = n → second.toNat = first.toNat + 1 →
          ∃ third : IPv4Address, third.toNat = n := by
        intro n hn hrun
        have hlt := hbelow second (by simp)
        exact ⟨⟨n, by omega⟩, rfl⟩
      simp only [routers_two_eq_ok hrouters hrange hhosts, StartsInRun, List.cons.injEq,
        forall_const]
      constructor
      · rintro ⟨routers, hrun, -⟩ a b rest' ⟨rfl, rfl, -⟩
        exact hrun
      · intro h
        have hrun := h first second rest ⟨rfl, rfl, rfl⟩
        obtain ⟨third, hval⟩ := hthird _ rfl hrun
        exact ⟨_, hrun, third, hval, rfl⟩

/-- The addresses of a pool that is checked against its LAN are not the last one. -/
lemma below_of_checkPool {lans : String → Option LanFacts} {names : List String} {first : LanFacts}
    {pool : List IPv4Address} (h : checkPool lans names first pool = .ok ()) :
    ∀ a ∈ pool, a.toNat + 1 < 2 ^ 32 := by
  obtain ⟨hin, -, hbroadcast, -⟩ := checkPool_eq_ok.mp h
  intro a ha
  have hle : a.toNat ≤ first.subnet.broadcast.toNat := (hin a ha).2
  have hne : a.toNat ≠ first.subnet.broadcast.toNat := fun heq =>
    hbroadcast (IPv4Address.ext heq ▸ ha)
  have hlt := first.subnet.broadcast.lt
  omega

/-- The first node of an expansion is of the first group. -/
lemma first_of_expandNodes {name : ClusterName} {groups : List NodeGroup} {index : ℕ}
    {ips : Option (List IPv4Address)} {hosts : Option (List String)} {nodes : List Node}
    (h : expandNodes name groups index ips hosts = .ok nodes)
    (hfirst : groups.head?.map (·.role) = some .controlPlane) :
    ∃ n, nodes.head? = some n ∧ n.role = .controlPlane := by
  cases groups with
  | nil => simp at hfirst
  | cons g rest =>
      obtain ⟨k, hk⟩ := Nat.exists_eq_add_of_le' g.count.pos
      have hunroll : unroll (g :: rest) = g :: (List.replicate k g ++ unroll rest) := by
        rw [unroll, List.flatMap_cons, hk, List.replicate_succ, List.cons_append]
        rfl
      rw [expandNodes, hunroll] at h
      obtain ⟨node, tail, hnode, -, rfl⟩ := expandFrom_cons_eq_ok.mp h
      obtain ⟨address, host, memory, -, -, -, rfl⟩ := expandNode_eq_ok.mp hnode
      exact ⟨_, rfl, by simpa using hfirst⟩

/-! ### When plan answers -/

variable {u : UserCluster} {existing : Option Cluster} {f : Facts} {index : ℕ}

/-- A topology on one host passes the validators of the spec. -/
lemma check_single (hvalid : validate u = .ok ()) {t : Topology}
    (h : resolveSingle u index = .ok t) : (specOf u existing f t).check = .ok () := by
  have hsingle := resolveSingle_eq_ok.mp h
  obtain ⟨n, hn, -⟩ := first_of_expandNodes hsingle.nodes (accepted_of_validate hvalid).first
  have hne : t.nodes ≠ [] := fun hnil => by simp [hnil] at hn
  have hhost : ∀ m ∈ t.nodes, m.host = none := expandFrom_unplaced hsingle.nodes
  obtain ⟨-, -, hrange, hrouterHosts, -⟩ := network_fields hsingle.net
  simp only [Spec.check, specOf, hsingle.hosts, hrange, hrouterHosts, Checked.check_bind_eq_ok,
    Checked.refuseIf_eq_ok, hne, not_false_eq_true, ne_eq, not_true_eq_false, true_and,
    and_true, not_exists, not_and, not_not]
  exact hhost

/-- A cluster that plan gives is usable when its routers can be derived. -/
lemma usable_iff {c : Cluster} (h : resolve u existing f = .ok c) :
    Usable c ↔ ∃ routers, c.routers = .ok routers := by
  refine ⟨fun hc => hc.routers, fun hrouters => ?_⟩
  obtain ⟨index, t, hr, rfl⟩ := resolve_eq_ok.mp h
  obtain ⟨hnet, hrange⟩ := checks_of_topology hr.built
  obtain ⟨ips, hosts, hexpand⟩ := nodes_of_topology hr.built
  exact
    { spec := hr.spec
      network := hnet
      range := hrange
      routers := hrouters
      first := first_of_expandNodes hexpand (accepted_of_validate hr.valid).first }

/-- On several hosts the routers of a cluster that plan gives. -/
lemma routers_of_multi {userHosts : List UserHost} {t : Topology} {p : Parts}
    (hp : Multi u existing f index userHosts t p) (hcheck : (specOf u existing f t).check = .ok ()) :
    (∃ routers, ({ metadata := u.metadata, spec := specOf u existing f t,
                   status := statusOf existing f } : Cluster).routers = .ok routers) ↔
      ((u.spec.network.getD {}).routers.getD .one = .two → StartsInRun p.pool) := by
  obtain ⟨byIndex, hby, hneteq⟩ := networkMulti_eq_ok.mp hp.net
  have hrouters : t.net.routers = (u.spec.network.getD {}).routers.getD .one := by
    rw [hneteq]
    exact (network_fields hby).2.1
  simp only [Spec.check, specOf, hp.hosts, Checked.check_bind_eq_ok] at hcheck
  obtain ⟨l, hl, hlen, -⟩ := (Spec.checkHosts_eq_ok.mp hcheck.2.2).routerHosts
  have henough := (allocate_cut hp.cut).enough
  have hrange : t.net.range = some (rangesText p.pool) := by rw [hneteq]
  rw [← hrouters]
  exact exists_routers_iff hrange hl hlen (by omega) (below_of_checkPool hp.checked)

lemma wantedRouters_eq : wantedRouters u = (u.spec.network.getD {}).routers.getD .one := by
  rw [wantedRouters]
  cases u.spec.network <;> rfl

/-- Short of a limit, the topology is refused or is there. -/
lemma planOnly_topology (hconsidered : Considered u existing f index)
    (hlans : ∀ hosts ∈ u.spec.hosts, ∃ lans, f.lans = some lans ∧
      ∀ h ∈ hosts, ∃ lan, lans h.name.text = some lan)
    (hunder : ¬ Over u existing f index) :
    PlanOnly (topology u existing f index) ∧
      ∀ t, topology u existing f index = .ok t → (specOf u existing f t).check = .ok () := by
  rw [topology]
  cases hu : u.spec.hosts with
  | none =>
      rw [Over, hu] at hunder
      exact ⟨planOnly_single hconsidered.valid hunder, fun t ht => check_single hconsidered.valid ht⟩
  | some userHosts =>
      rw [Over, hu] at hunder
      exact ⟨planOnly_multi hconsidered.valid hu (hlans userHosts hu) hunder,
        fun t ht => check_multi hconsidered.valid hu (fun hnil => hunder (Or.inl hnil)) ht⟩

/-- Short of a limit, the routers are there. -/
lemma usable_of_under {c : Cluster} (h : resolve u existing f = .ok c)
    (hunder : ∀ index, Considered u existing f index → ¬ Over u existing f index) : Usable c := by
  rw [usable_iff h]
  obtain ⟨index, t, hr, rfl⟩ := resolve_eq_ok.mp h
  have hnot := hunder index ⟨hr.valid, hr.picked, hr.free, hr.routers⟩
  have hbuilt := hr.built
  cases hu : u.spec.hosts with
  | none =>
      obtain ⟨index', hsingle, -⟩ := singleByIndex_of_resolve hu h
      obtain ⟨routers, hrouters, -⟩ := hsingle.routers
      exact ⟨routers, hrouters⟩
  | some userHosts =>
      rw [topology, hu] at hbuilt
      rw [Over, hu] at hnot
      obtain ⟨p, hp⟩ := resolveMulti_eq_ok.mp hbuilt
      refine (routers_of_multi hp hr.spec).mpr fun htwo => by_contra fun hlone => hnot (Or.inr ?_)
      obtain ⟨byIndex, hby, hneteq⟩ := networkMulti_eq_ok.mp hp.net
      refine ⟨p.lans, p.pool, p.alloc, hp.told, ⟨⟨p.first, hp.shared, hp.checked⟩, hp.parsed, hp.cut⟩,
        Or.inr ⟨(checks_of_network hby).2.2, Or.inr ⟨wantedRouters_eq.trans htwo, hlone, ?_⟩⟩⟩
      intro c₀ hc₀
      refine ⟨p.placed, p.routerHosts, t.nodes, p.hosts, hp.nodeHosts, hp.routers, hp.nodes,
        hp.recorded, ?_⟩
      exact (checkResume_congr (by rw [hneteq]) (by rw [hneteq])).trans (hp.resume c₀ hc₀)

/-- At a limit, plan ends with another error, or gives a cluster without routers. -/
lemma not_decides_of_over (hconsidered : Considered u existing f index)
    (hlans : ∀ hosts ∈ u.spec.hosts, ∃ lans, f.lans = some lans ∧
      ∀ h ∈ hosts, ∃ lan, lans h.name.text = some lan)
    (hover : Over u existing f index) : ¬ Decides u existing f := by
  intro hanswers
  have hvalid := hconsidered.valid
  have hresolve := resolve_of_considered hconsidered
  have herror : ∀ e, topology u existing f index = .error e → e.IsPlanError := by
    intro e he
    refine hanswers.refuses e ?_
    rw [hresolve, he, Checked.error_bind]
  cases hu : u.spec.hosts with
  | none =>
      rw [Over, hu] at hover
      obtain ⟨t, ht⟩ := resolveSingle_over hvalid hover
      exact herror _ (by rw [topology, hu]; exact ht)
  | some userHosts =>
      rw [Over, hu] at hover
      obtain ⟨lans, htold, hknown⟩ := hlans userHosts hu
      by_cases hne : userHosts = []
      · refine herror .indexError ?_
        rw [topology, hu, hne]
        simp only [resolveMulti, htold, Checked.ofOption, sharedLan, List.map_nil, List.getElem?_nil,
          Checked.ok_bind, Checked.error_bind]
      · obtain ⟨lans', pool, a, htold', hcut, hlimit⟩ := hover.resolve_left hne
        obtain rfl : lans = lans' := Option.some.inj (htold.symm.trans htold')
        by_cases hindex : 31 < index
        · obtain ⟨t, ht⟩ := resolveMulti_over existing hvalid hu hne htold hknown hcut hindex
            (hlimit.imp (fun hl => hl) And.left)
          exact herror _ (by rw [topology, hu]; exact ht)
        · obtain ⟨hvip, hlone⟩ := hlimit.resolve_left (by omega)
          obtain ⟨htwo, hnotRun, hresume⟩ := hlone.resolve_left hindex
          obtain ⟨t, p, hp, rfl⟩ := exists_topology hvalid hu hne htold hknown hcut
            (Nat.le_of_not_lt hindex) hvip hresume
          have hbuilt : topology u existing f index = .ok t := by
            rw [topology, hu]
            exact resolveMulti_eq_ok.mpr ⟨p, hp⟩
          have hcheck := check_multi hvalid hu hne (resolveMulti_eq_ok.mpr ⟨p, hp⟩)
          have hgiven := hanswers.gives _ (by rw [hresolve, hbuilt, Checked.ok_bind, hcheck]; rfl)
          exact hnotRun ((routers_of_multi hp hcheck).mp hgiven.routers (wantedRouters_eq ▸ htwo))

/-- `172.22.40.0/24`: a node subnet that is allowed, of an index without a pod subnet. -/
def fortieth : UserCluster where
  metadata := ⟨⟨"dev", clusterName_dev⟩⟩
  spec :=
    { network := some { nodes := some ⟨⟨0xAC162800, by decide⟩, 24, prefixlen_24, by decide⟩ }
      nodes := [{ role := .controlPlane }] }

end Tk8s
