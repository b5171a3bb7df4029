import Tk8s.Addresses
import Tk8s.Plan.ByIndex

/-!
Which prefixes of two clusters, and of one, can meet.

* `Apart`: two networks without a common address.
* `Cluster.fixed`: the prefixes the index decides, pods, services and VIP.
* `LanApart`: a node subnet outside of the blocks all indices share.
* `Allotted`: what an accepted cluster was given; `allotted_of_resolve`: **every accepted cluster
  has it**.
* `Allotted.fixed_apart`, `Allotted.nodes_apart`: **clusters with different indices are apart**, and
  `Allotted.pairwise_fixed`, `Allotted.nodes_fixed` the prefixes of one cluster.
-/

namespace Tk8s

open Net

/-! ### Apart -/

/-- No common address. -/
def Apart (n m : IPv4Network) : Prop := ∀ a ∈ n, a ∉ m

lemma Apart.symm {n m : IPv4Network} (h : Apart n m) : Apart m n := fun a ha hb => h a hb ha

/-- All addresses of a network are in an interval. -/
def Within (n : IPv4Network) (start size : ℕ) : Prop :=
  ∀ a ∈ n, start ≤ a.toNat ∧ a.toNat < start + size

lemma apart_of_within {n m : IPv4Network} {s t k l : ℕ} (hn : Within n s k) (hm : Within m t l)
    (h : s + k ≤ t ∨ t + l ≤ s) : Apart n m := by
  intro a ha hb
  have hn' := hn a ha
  have hm' := hm a hb
  omega

lemma StartsAt.within {n : IPv4Network} {base prefixlen : ℕ} (h : StartsAt n base prefixlen) :
    Within n base (2 ^ (32 - prefixlen)) := by
  intro a ha
  rw [IPv4Network.mem_iff, h.1, IPv4Network.size, h.2] at ha
  exact ha

/-- `<a>/32`. -/
def hostPrefix (a : IPv4Address) : IPv4Network := IPv4Network.ofHost a 32 (by decide)

lemma mem_hostPrefix {a b : IPv4Address} : b ∈ hostPrefix a ↔ b = a := by
  rw [IPv4Network.mem_iff]
  simp only [hostPrefix, IPv4Network.ofHost, IPv4Network.size]
  constructor
  · intro h
    ext
    omega
  · rintro rfl
    omega

/-! ### The blocks -/

/-- `172.22.0.0/16`, `172.23.0.0/16`, `10.244.0.0/16` and `10.98.0.0/16`: first address and size. -/
def ownBlocks : List (ℕ × ℕ) :=
  [(nodesBase 0, 65536), (vipBase 0, 65536), (podsBase 0, 65536), (servicesBase 0, 65536)]

/-- A network with no address in the blocks that the indices divide among the clusters. -/
def LanApart (n : IPv4Network) : Prop :=
  ∀ a ∈ n, ∀ b ∈ ownBlocks, ¬ (b.1 ≤ a.toNat ∧ a.toNat < b.1 + b.2)

namespace Cluster

/-- Pods, services and VIP. -/
def fixed (c : Cluster) : List IPv4Network :=
  c.spec.network.pods :: c.spec.network.services :: c.spec.network.vip.toList.map hostPrefix

/-- The addresses reserved for a multi-host cluster. -/
def Reserves (c : Cluster) (a : IPv4Address) : Prop :=
  ∃ rng ∈ c.spec.network.range, ∃ pool, parseRange rng = .ok pool ∧ a ∈ pool

end Cluster

/-! ### What a cluster was given -/

/-- Pods, services and VIP by the index, the node subnet of a single-host cluster, and a pool in the
LAN of a multi-host one. -/
structure Allotted (c : Cluster) : Prop where
  prefixes : IndexPrefixes c.spec.network.index c.spec.network
  single : c.spec.hosts = none →
    StartsAt c.spec.network.nodes (nodesBase c.spec.network.index) 24 ∧ c.spec.network.range = none
  pool : ∀ a, c.Reserves a → a ∈ c.spec.network.nodes

/-- **Every accepted cluster has it.** -/
theorem allotted_of_resolve {u : UserCluster} {existing : Option Cluster} {f : Facts} {c : Cluster}
    (h : resolve u existing f = .ok c) : Allotted c := by
  obtain ⟨index, t, hres, hc⟩ := resolve_eq_ok.mp h
  have hprefixes := prefixes_of_topology hres.built
  have hnet : c.spec.network = t.net := by rw [hc]; rfl
  have hhosts : c.spec.hosts = t.hosts := by rw [hc]; rfl
  have hbuilt := hres.built
  rw [topology] at hbuilt
  cases hu : u.spec.hosts with
  | none =>
      rw [hu] at hbuilt
      have hsingle := resolveSingle_eq_ok.mp hbuilt
      obtain ⟨-, hnodes⟩ := network_byIndex hsingle.net
      have hrange := (network_fields hsingle.net).2.2.1
      refine ⟨by rw [hnet, hprefixes.eq]; exact hprefixes, fun _ => ?_, fun a ha => ?_⟩
      · rw [hnet, hprefixes.eq]
        exact ⟨hnodes.nodes, hrange⟩
      · obtain ⟨rng, hrng, -⟩ := ha
        rw [hnet, hrange] at hrng
        simp at hrng
  | some hosts =>
      rw [hu] at hbuilt
      obtain ⟨p, hp⟩ := resolveMulti_eq_ok.mp hbuilt
      obtain ⟨byIndex, -, hneteq⟩ := networkMulti_eq_ok.mp hp.net
      obtain ⟨hin, -⟩ := checkPool_eq_ok.mp hp.checked
      refine ⟨by rw [hnet, hprefixes.eq]; exact hprefixes, fun hnone => ?_, fun a ha => ?_⟩
      · rw [hhosts, hp.hosts] at hnone
        simp at hnone
      · obtain ⟨rng, hrng, pool, hpool, ha⟩ := ha
        have hne : p.pool ≠ [] := by
          have henough := (allocate_cut hp.cut).enough
          intro hnil
          rw [hnil] at henough
          simp at henough
        rw [hnet, hneteq, Option.mem_def, Option.some_inj] at hrng
        rw [← hrng, parseRange_rangesText hne (nodup_parseRange hp.parsed), Except.ok.injEq] at hpool
        rw [hnet, hneteq]
        exact hin a (hpool ▸ ha)

namespace Allotted

variable {c d : Cluster}

/-- Each prefix the index decides lies in its part of one of the blocks. -/
lemma fixed_within (h : Allotted c) : ∀ p ∈ c.fixed,
    Within p (podsBase c.spec.network.index) 2048 ∨
      Within p (servicesBase c.spec.network.index) 256 ∨
      Within p (vipBase c.spec.network.index) 256 := by
  intro p hp
  simp only [Cluster.fixed, List.mem_cons, List.mem_map, Option.mem_toList] at hp
  rcases hp with rfl | rfl | ⟨v, hv, rfl⟩
  · exact Or.inl h.prefixes.pods.within
  · exact Or.inr (Or.inl h.prefixes.services.within)
  · refine Or.inr (Or.inr fun a ha => ?_)
    have hvip := h.prefixes.vip v hv
    rw [mem_hostPrefix.mp ha]
    omega

/-- **Two clusters with different indices are apart**: pods, services and VIP. -/
theorem fixed_apart (hc : Allotted c) (hd : Allotted d)
    (hne : c.spec.network.index ≠ d.spec.network.index) :
    ∀ p ∈ c.fixed, ∀ q ∈ d.fixed, Apart p q := by
  intro p hp q hq
  have hlc := hc.prefixes.le
  have hld := hd.prefixes.le
  rcases hc.fixed_within p hp with hpw | hpw | hpw <;>
    rcases hd.fixed_within q hq with hqw | hqw | hqw <;>
    refine apart_of_within hpw hqw ?_ <;>
    simp only [podsBase, servicesBase, vipBase] <;> omega

/-- The node subnet of a single-host cluster is apart from what any index decides. -/
lemma single_fixed (hc : Allotted c) (hd : Allotted d) (hsingle : c.spec.hosts = none) :
    ∀ q ∈ d.fixed, Apart c.spec.network.nodes q := by
  intro q hq
  have hlc := hc.prefixes.le
  have hld := hd.prefixes.le
  have hnodes := (hc.single hsingle).1.within
  rcases hd.fixed_within q hq with hqw | hqw | hqw <;>
    refine apart_of_within hnodes hqw ?_ <;>
    simp only [nodesBase, podsBase, servicesBase, vipBase] <;> omega

/-- A LAN outside of the blocks is apart from what any index decides. -/
lemma lan_fixed {n : IPv4Network} (hd : Allotted d) (hlan : LanApart n) :
    ∀ q ∈ d.fixed, Apart n q := by
  intro q hq a ha hb
  have hld := hd.prefixes.le
  have hblocks := hlan a ha
  simp only [ownBlocks, List.forall_mem_cons, List.not_mem_nil, false_imp_iff, implies_true,
    and_true, nodesBase, podsBase, servicesBase, vipBase] at hblocks
  rcases hd.fixed_within q hq with hqw | hqw | hqw <;>
    have hmem := hqw a hb <;>
    simp only [podsBase, servicesBase, vipBase] at hmem <;> omega

/-- **The node subnet of a single-host cluster is apart** from that of another one, and from a LAN
outside of the blocks. -/
theorem nodes_apart (hc : Allotted c) (hd : Allotted d)
    (hne : c.spec.network.index ≠ d.spec.network.index) (hsingle : c.spec.hosts = none)
    (hother : d.spec.hosts = none ∨ LanApart d.spec.network.nodes) :
    Apart c.spec.network.nodes d.spec.network.nodes := by
  have hnodes := (hc.single hsingle).1.within
  have hlc := hc.prefixes.le
  rcases hother with hnone | hlan
  · have hnodes' := (hd.single hnone).1.within
    refine apart_of_within hnodes hnodes' ?_
    simp only [nodesBase]
    omega
  · intro a ha hb
    have hmem := hnodes a ha
    have hblocks := hlan a hb
    simp only [ownBlocks, List.forall_mem_cons, List.not_mem_nil, false_imp_iff, implies_true,
      and_true, nodesBase] at hblocks hmem
    omega

/-- Pods, services and VIP of one cluster are apart. -/
lemma pairwise_fixed (hc : Allotted c) : c.fixed.Pairwise Apart := by
  have hle := hc.prefixes.le
  have hpods := hc.prefixes.pods.within
  have hservices := hc.prefixes.services.within
  have hvip : ∀ v ∈ c.spec.network.vip, Within (hostPrefix v) (vipBase c.spec.network.index) 256 := by
    intro v hv a ha
    have h := hc.prefixes.vip v hv
    rw [mem_hostPrefix.mp ha]
    omega
  rw [Cluster.fixed]
  refine List.pairwise_cons.mpr ⟨fun q hq => ?_, List.pairwise_cons.mpr ⟨fun q hq => ?_, ?_⟩⟩
  · rcases List.mem_cons.mp hq with rfl | hq
    · refine apart_of_within hpods hservices ?_
      simp only [podsBase, servicesBase]
      omega
    · obtain ⟨v, hv, rfl⟩ := List.mem_map.mp hq
      refine apart_of_within hpods (hvip v (Option.mem_toList.mp hv)) ?_
      simp only [podsBase, vipBase]
      omega
  · obtain ⟨v, hv, rfl⟩ := List.mem_map.mp hq
    refine apart_of_within hservices (hvip v (Option.mem_toList.mp hv)) ?_
    simp only [servicesBase, vipBase]
    omega
  · cases c.spec.network.vip <;> simp

/-- The node subnet of one cluster is apart from its pods, services and VIP, unless it is a LAN that
reaches into the blocks. -/
lemma nodes_fixed (hc : Allotted c)
    (hnodes : c.spec.hosts = none ∨ LanApart c.spec.network.nodes) :
    ∀ q ∈ c.fixed, Apart c.spec.network.nodes q := by
  rcases hnodes with hsingle | hlan
  · exact hc.single_fixed hc hsingle
  · exact hc.lan_fixed hlan

end Allotted

end Tk8s
