import Tk8s.Addresses

/-!
`create/router_config.py`: `vrrp_block`, and the id it gives the routers of a cluster.

* `vrid`, `vrrpBlock`: the id, and the block of `config.boot` that holds it; `vridIn` reads it back.
* `vridIn_vrrpBlock`: **every router of a cluster is rendered with the cluster's id**.
* `LowOctet`, `vrids_iff`: **the ids are valid and separate exactly when** the LAN is a /24 or smaller, or
  the first addresses of the ranges have low octets that are not 0 and differ.
-/

namespace Tk8s

open Net

/-! ### The block -/

/-- One VRID per segment: on a shared LAN the floating address's last octet keeps two clusters apart; a
single host's bridge is its own segment. -/
def vrid (c : Cluster) : ℕ := if c.multiHost then c.floatingIp.toNat &&& 0xFF else 10

/-- The lines of the block of a router with this priority. -/
def vrrpLines (c : Cluster) (priority : ℕ) : List String :=
  ["high-availability \x7b", "    vrrp \x7b", "        group tk8s \x7b",
    "            address " ++ c.floatingIp.text ++ "/" ++ c.spec.network.nodes.prefixlen.repr ++ " \x7b",
    "            \x7d", "            interface \"eth0\""] ++
  (if priority = 200 then ["            preempt-delay \"10\""] else []) ++
  ["            priority \"" ++ priority.repr ++ "\"", "            vrid \"" ++ (vrid c).repr ++ "\"",
    "        \x7d", "    \x7d", "\x7d"]

/-- `vrrp_block`: empty with one router. -/
def vrrpBlock (c : Cluster) (r : Router) : String :=
  match r.priority with
  | none => ""
  | some priority => Text.join '\n' (vrrpLines c priority)

/-- The id a block sets. -/
def vridIn (block : String) : Option ℕ :=
  (Text.splitOn '\n' block).findSome? fun line =>
    (Text.removePrefix? "            vrid \"" line).map fun rest =>
      Text.number (Text.partition '"' rest).1

lemma vrid_multi {c : Cluster} (h : c.multiHost = true) : vrid c = c.floatingIp.toNat % 256 := by
  rw [vrid, if_pos h]
  exact Nat.and_two_pow_sub_one_eq_mod _ 8

/-- The line of the id, and no other, is read as one. -/
lemma findSome_vrrpLines (c : Cluster) (priority : ℕ) :
    (vrrpLines c priority).findSome? (fun line =>
      (Text.removePrefix? "            vrid \"" line).map fun rest =>
        Text.number (Text.partition '"' rest).1) = some (vrid c) := by
  have haddress : ∀ rest,
      Text.removePrefix? "            vrid \"" ("            address " ++ rest) = none := by
    intro rest
    simp [Text.removePrefix?]
  have hpriority : ∀ rest,
      Text.removePrefix? "            vrid \"" ("            priority \"" ++ rest) = none := by
    intro rest
    simp [Text.removePrefix?]
  have hquote : '"' ∉ (vrid c).repr.toList := Text.notMem_repr (by decide)
  have hvrid : Text.partition '"' ((vrid c).repr ++ "\"") = ((vrid c).repr, "") := by
    have hcut := Text.partition_append hquote ""
    rwa [String.append_empty] at hcut
  have hothers : ∀ l ∈ ["high-availability \x7b", "    vrrp \x7b", "        group tk8s \x7b",
      "            \x7d", "            interface \"eth0\"", "            preempt-delay \"10\""],
      Text.removePrefix? "            vrid \"" l = none := by
    decide
  simp only [List.forall_mem_cons, List.not_mem_nil, false_implies, implies_true, and_true] at hothers
  obtain ⟨h1, h2, h3, h4, h5, h6⟩ := hothers
  by_cases hdelay : priority = 200
  · simp [vrrpLines, hdelay, h1, h2, h3, h4, h5, h6, haddress, hpriority, String.append_assoc,
      Text.removePrefix?_append, hvrid]
  · simp [vrrpLines, hdelay, h1, h2, h3, h4, h5, haddress, hpriority, String.append_assoc,
      Text.removePrefix?_append, hvrid]

/-- **Every router of a cluster is rendered with the cluster's id.** -/
theorem vridIn_vrrpBlock (c : Cluster) {r : Router} (h : r.priority.isSome = true) :
    vridIn (vrrpBlock c r) = some (vrid c) := by
  obtain ⟨priority, hpriority⟩ := Option.isSome_iff_exists.mp h
  have hlines : ∀ l ∈ vrrpLines c priority, '\n' ∉ l.toList := by
    have haddress : '\n' ∉ c.floatingIp.text.toList :=
      IPv4Address.notMem_text _ (by decide) (by decide)
    have hrepr : ∀ n : ℕ, '\n' ∉ Nat.toDigits 10 n := fun n => by
      simpa using Text.notMem_repr (n := n) (c := '\n') (by decide)
    by_cases hdelay : priority = 200
    · simp [vrrpLines, hdelay, haddress, hrepr]
    · simp [vrrpLines, hdelay, haddress, hrepr]
  rw [vrrpBlock, hpriority, vridIn]
  simp only
  rw [Text.splitOn_join (by simp [vrrpLines]) hlines, findSome_vrrpLines]

/-! ### Valid and separate ids -/

/-- The routers of the cluster are all rendered with one id of 1 to 255. -/
def ValidVrid (c : Cluster) : Prop :=
  ∃ v, 1 ≤ v ∧ v ≤ 255 ∧ ∀ r : Router, r.priority.isSome = true → vridIn (vrrpBlock c r) = some v

/-- No router of the one cluster is rendered with the id of a router of the other. -/
def SeparateVrids (c c' : Cluster) : Prop :=
  ∀ r r' : Router, r.priority.isSome = true → r'.priority.isSome = true →
    vridIn (vrrpBlock c r) ≠ vridIn (vrrpBlock c' r')

/-- A definition with two routers on several hosts that `resolve` accepts, with the LAN the hosts are on
and the reserved addresses. -/
structure OnLan (u : UserCluster) (existing : Option Cluster) (f : Facts) (lan : LanFacts)
    (pool : List IPv4Address) (c : Cluster) : Prop where
  accepted : resolve u existing f = .ok c
  lan : ∃ hosts lans, u.spec.hosts = some hosts ∧ f.lans = some lans ∧
    sharedLan lans (hosts.map (·.name.text)) = .ok lan
  two : (u.spec.network.getD {}).routers = some .two
  pool : parseRange (((u.spec.network.getD {}).range.map (·.text)).getD "") = .ok pool

/-- The low octet of the first reserved address. -/
def lowOctet (pool : List IPv4Address) : ℕ := ((pool.head?.map (·.toNat)).getD 0) % 256

section Ids

variable {u u' : UserCluster} {existing existing' : Option Cluster} {f f' : Facts}
  {lan lan' : LanFacts} {pool pool' : List IPv4Address} {c c' : Cluster}

/-- The floating address is the first of the range, and an address of the LAN that is not the
network's own. -/
lemma OnLan.floating (h : OnLan u existing f lan pool c) : c.multiHost = true ∧
    ∃ a ∈ pool, lowOctet pool = a.toNat % 256 ∧ c.floatingIp = a ∧ a ∈ lan.subnet ∧
      a ≠ lan.subnet.network := by
  obtain ⟨hosts, lans, hu, hlans, hlan⟩ := h.lan
  obtain ⟨index, t, hres, rfl⟩ := resolve_eq_ok.mp h.accepted
  have hbuilt := hres.built
  rw [topology, hu] at hbuilt
  obtain ⟨p, hp⟩ := resolveMulti_eq_ok.mp hbuilt
  obtain rfl : lans = p.lans := Option.some.inj (hlans.symm.trans hp.told)
  obtain rfl : lan = p.first := Except.ok.inj (hlan.symm.trans hp.shared)
  obtain rfl : pool = p.pool := Except.ok.inj (h.pool.symm.trans hp.parsed)
  obtain ⟨hin, hnet, -, -⟩ := checkPool_eq_ok.mp hp.checked
  obtain ⟨byIndex, -, hneteq⟩ := networkMulti_eq_ok.mp hp.net
  have hfirst := (allocate_cut hp.cut).router
  have hmem : p.alloc.router ∈ p.pool := List.mem_of_getElem? hfirst
  refine ⟨by simp [Cluster.multiHost, specOf, hp.hosts], p.alloc.router, hmem, ?_, ?_,
    hin _ hmem, fun heq => hnet (heq ▸ hmem)⟩
  · rw [lowOctet, List.head?_eq_getElem?, hfirst]
    rfl
  · rw [Cluster.floatingIp, specOf, hneteq]

/-- Below a network of at most 256 addresses no other address ends in 0. -/
lemma eq_network_of_low {a : IPv4Address} {n : IPv4Network} (hin : a ∈ n) (hle : 24 ≤ n.prefixlen)
    (hlow : a.toNat % 256 = 0) : a = n.network := by
  obtain ⟨hge, hlt⟩ := IPv4Network.mem_iff.mp hin
  have hdvd : n.size ∣ 256 := Nat.pow_dvd_pow 2 (by omega : 32 - n.prefixlen ≤ 8)
  have ha : n.size ∣ a.toNat := hdvd.trans (Nat.dvd_of_mod_eq_zero hlow)
  have hdiff : n.size ∣ a.toNat - n.network.toNat := Nat.dvd_sub ha n.aligned
  have hzero : a.toNat - n.network.toNat = 0 := Nat.eq_zero_of_dvd_of_lt hdiff (by omega)
  exact IPv4Address.ext (by omega)

/-- Two addresses of such a network with one low octet are the same. -/
lemma eq_of_low {a b : IPv4Address} {n : IPv4Network} (ha : a ∈ n) (hb : b ∈ n)
    (hle : 24 ≤ n.prefixlen) (hlow : a.toNat % 256 = b.toNat % 256) : a = b := by
  obtain ⟨hage, halt⟩ := IPv4Network.mem_iff.mp ha
  obtain ⟨hbge, hblt⟩ := IPv4Network.mem_iff.mp hb
  have hsize : n.size ≤ 256 := Nat.pow_le_pow_right (by decide) (by omega : 32 - n.prefixlen ≤ 8)
  exact IPv4Address.ext (by omega)

lemma validVrid_iff : ValidVrid c ↔ 1 ≤ vrid c ∧ vrid c ≤ 255 := by
  constructor
  · rintro ⟨v, hpos, hle, hall⟩
    have hv := hall ⟨"", "", ⟨0, by decide⟩, some 200, none⟩ rfl
    rw [vridIn_vrrpBlock c rfl, Option.some_inj] at hv
    exact ⟨hv ▸ hpos, hv ▸ hle⟩
  · rintro ⟨hpos, hle⟩
    exact ⟨vrid c, hpos, hle, fun r hr => vridIn_vrrpBlock c hr⟩

lemma separateVrids_iff : SeparateVrids c c' ↔ vrid c ≠ vrid c' := by
  constructor
  · intro hall heq
    refine hall ⟨"", "", ⟨0, by decide⟩, some 200, none⟩ ⟨"", "", ⟨0, by decide⟩, some 200, none⟩
      rfl rfl ?_
    rw [vridIn_vrrpBlock c rfl, vridIn_vrrpBlock c' rfl, heq]
  · intro hne r r' hr hr' heq
    rw [vridIn_vrrpBlock c hr, vridIn_vrrpBlock c' hr', Option.some_inj] at heq
    exact hne heq

/-- **The ids are valid and separate exactly when** the LAN has at most 256 addresses, or the low octets
of the first reserved addresses are not 0 and differ. -/
theorem vrids_iff (h : OnLan u existing f lan pool c) :
    (ValidVrid c ↔ 24 ≤ lan.subnet.prefixlen ∨ lowOctet pool ≠ 0) ∧
      ∀ {u' : UserCluster} {existing' : Option Cluster} {f' : Facts} {lan' : LanFacts}
        {pool' : List IPv4Address} {c' : Cluster}, OnLan u' existing' f' lan' pool' c' →
        lan'.subnet = lan.subnet → pool.Disjoint pool' →
          (SeparateVrids c c' ↔ 24 ≤ lan.subnet.prefixlen ∨ lowOctet pool ≠ lowOctet pool') := by
  obtain ⟨hmulti, a, ha, hlow, hfloat, hin, hne⟩ := h.floating
  constructor
  · rw [validVrid_iff, vrid_multi hmulti, hfloat, hlow]
    constructor
    · exact fun hvalid => Or.inr (by omega)
    · rintro (hle | hne0)
      · have hnot : a.toNat % 256 ≠ 0 := fun hzero => hne (eq_network_of_low hin hle hzero)
        omega
      · omega
  · intro u' existing' f' lan' pool' c' h' hlan hdisjoint
    obtain ⟨hmulti', a', ha', hlow', hfloat', hin', -⟩ := h'.floating
    rw [separateVrids_iff, vrid_multi hmulti, vrid_multi hmulti', hfloat, hfloat', hlow, hlow']
    constructor
    · exact Or.inr
    · rintro (hle | hne')
      · intro heq
        have hsame := eq_of_low hin (hlan ▸ hin') hle heq
        exact hdisjoint ha (hsame ▸ ha')
      · exact hne'

/-- Both routers of such a cluster have a priority. -/
lemma OnLan.priority (h : OnLan u existing f lan pool c) {routers : List Router}
    (hrouters : c.routers = .ok routers) : ∀ r ∈ routers, r.priority.isSome = true := by
  obtain ⟨hosts, -, hu, -⟩ := h.lan
  obtain ⟨p, -, -, -, hplanned⟩ := planned_of_resolve h.accepted hu
  have htwo : c.spec.network.routers = .two := by
    rw [hplanned.routers, h.two]
    rfl
  simp only [Cluster.routers, htwo, Checked.bind_eq_ok, Checked.pure_eq_ok] at hrouters
  obtain ⟨_, -, _, -, _, -, rfl⟩ := hrouters
  simp

end Ids

/-! ### A LAN of 512 addresses -/

/-- The hosts at .0.10 and .0.11 of 192.168.0.0/23, the gateway at .0.1. -/
def wideLan : LanFacts :=
  ⟨"eth0", ⟨⟨0xC0A80000, by decide⟩, 23, by decide, by decide⟩, ⟨0xC0A80001, by decide⟩,
    ⟨0xC0A8000A, by decide⟩⟩

def wideFacts : Facts :=
  { twoHostsFacts with
    lans := some fun name =>
      if name = "a" then some wideLan
      else if name = "b" then some { wideLan with address := ⟨0xC0A8000B, by decide⟩ }
      else none }

/-- What `resolve` gives for this range on the LAN. -/
def widePlan (range : RangeText) : Except Raised Cluster := resolve (twoHosts range) none wideFacts

lemma onLan_wide {range : RangeText} {pool : List IPv4Address} {c : Cluster}
    (hc : widePlan range = .ok c) (hpool : parseRange range.text = .ok pool) :
    OnLan (twoHosts range) none wideFacts wideLan pool c where
  accepted := hc
  lan := ⟨_, _, rfl, rfl, by decide⟩
  two := rfl
  pool := hpool

/-- A range of the /24 that `twoHosts` is on. -/
theorem vrids_twoHosts : ∃ c pool,
    parseRange "192.168.1.64-79" = .ok pool ∧
      resolve (twoHosts ⟨"192.168.1.64-79", by decide⟩) none twoHostsFacts = .ok c ∧ ValidVrid c := by
  obtain ⟨c, hc⟩ : ∃ c, resolve (twoHosts ⟨"192.168.1.64-79", by decide⟩) none twoHostsFacts
      = .ok c := by
    apply Checked.exists_eq_ok
    decide +kernel
  obtain ⟨pool, hpool⟩ : ∃ pool, parseRange "192.168.1.64-79" = .ok pool := by
    apply Checked.exists_eq_ok
    decide
  obtain ⟨lan, hlan, hle⟩ : ∃ lan, sharedLan twoHostsLan ["a", "b"] = .ok lan ∧
      24 ≤ lan.subnet.prefixlen := ⟨⟨"eth0", ⟨⟨0xC0A80100, by decide⟩, 24, by decide, by decide⟩,
        ⟨0xC0A80101, by decide⟩, ⟨0xC0A8010A, by decide⟩⟩, by decide, by decide⟩
  have honLan : OnLan (twoHosts ⟨"192.168.1.64-79", by decide⟩) none twoHostsFacts lan pool c :=
    ⟨hc, ⟨_, _, rfl, rfl, hlan⟩, rfl, hpool⟩
  exact ⟨c, pool, hpool, hc, (vrids_iff honLan).1.mpr (Or.inl hle)⟩

/-- A range that starts at 192.168.1.0 gives the id 0, and two ranges 256 addresses apart one id. -/
theorem not_vrids_wideLan :
    (∃ c pool, OnLan (twoHosts ⟨"192.168.1.0-15", by decide⟩) none wideFacts wideLan pool c ∧
      ¬ ValidVrid c) ∧
    ∃ c c' pool pool',
      OnLan (twoHosts ⟨"192.168.0.64-79", by decide⟩) none wideFacts wideLan pool c ∧
      OnLan (twoHosts ⟨"192.168.1.64-79", by decide⟩) none wideFacts wideLan pool' c' ∧
      pool.Disjoint pool' ∧ ¬ SeparateVrids c c' := by
  have hplan : ∀ (range : RangeText) (v : ℕ), vrid <$> widePlan range = .ok v →
      ∃ c, widePlan range = .ok c ∧ vrid c = v := fun _ _ h => Checked.map_eq_ok.mp h
  constructor
  · obtain ⟨c, hc, hv⟩ := hplan ⟨"192.168.1.0-15", by decide⟩ 0 (by decide +kernel)
    obtain ⟨pool, hpool⟩ : ∃ pool, parseRange "192.168.1.0-15" = .ok pool := by
      apply Checked.exists_eq_ok
      decide
    refine ⟨c, pool, onLan_wide hc hpool, fun hvalid => ?_⟩
    have hpos := (validVrid_iff.mp hvalid).1
    omega
  · obtain ⟨c, hc, hv⟩ := hplan ⟨"192.168.0.64-79", by decide⟩ 64 (by decide +kernel)
    obtain ⟨c', hc', hv'⟩ := hplan ⟨"192.168.1.64-79", by decide⟩ 64 (by decide +kernel)
    have hpool : parseRange "192.168.0.64-79"
        = .ok (IPv4Address.upTo ⟨0xC0A80040, by decide⟩ ⟨0xC0A8004F, by decide⟩) := by
      decide
    have hpool' : parseRange "192.168.1.64-79"
        = .ok (IPv4Address.upTo ⟨0xC0A80140, by decide⟩ ⟨0xC0A8014F, by decide⟩) := by
      decide
    have hapart : ∀ a ∈ IPv4Address.upTo ⟨0xC0A80040, by decide⟩ ⟨0xC0A8004F, by decide⟩,
        a ∉ IPv4Address.upTo ⟨0xC0A80140, by decide⟩ ⟨0xC0A8014F, by decide⟩ := by
      decide
    refine ⟨c, c', _, _, onLan_wide hc hpool, onLan_wide hc' hpool', fun a ha ha' => hapart a ha ha', ?_⟩
    rw [separateVrids_iff, hv, hv']
    simp

end Tk8s
