import Tk8s.Create.PerHost
import Tk8s.Lib.Yaml
import Tk8s.Node.Edits

/-!
The readers of a range text: `parse_range`, `range_prefixes`, `lb_pool_manifest`, `range_start`.

* `lbPools`, `lbPoolManifest`: the LB-IPAM pools of `create/cni.py`.
* `covers_summarizeFrom`: **the prefixes of an interval** are aligned and list it in order, each
  address once.
* `CodecsAgree`: what the four readers make of the text of a pool.
* `codecsAgree_iff`: **they agree exactly when** the pool does not start with a lone address that
  more follow.
-/

namespace Tk8s

open Net

/-! ### `create/cni.py` -/

/-- `MESH_SERVICE`. -/
def meshServiceName : String := "clustermesh-apiserver"

def meshService : Yaml :=
  Yaml.record [("io.kubernetes.service.namespace", some (.str "kube-system")),
    ("io.kubernetes.service.name", some (.str meshServiceName))]

/-- A pool as `_pool` is given it; a block by its start and its stop. -/
structure LbPool where
  name : String
  blocks : List (String × String)
  selector : Option Yaml

/-- `_pool`. -/
def LbPool.doc (p : LbPool) : Yaml :=
  let blocks := p.blocks.map fun b =>
    Yaml.record [("start", some (.str b.1)), ("stop", some (.str b.2))]
  Yaml.record [("apiVersion", some (.str "cilium.io/v2")),
    ("kind", some (.str "CiliumLoadBalancerIPPool")),
    ("metadata", some (Yaml.record [("name", some (.str p.name))])),
    ("spec", some (Yaml.record [("blocks", some (.list blocks)), ("serviceSelector", p.selector)]))]

/-- The block of a segment, a lone address its own block. -/
def lbBlock (seg : String) : String × String :=
  let (start, stop) := Text.partition '-' seg
  (start, if stop = "" then start else stop)

def lbBlocks (lbRange : String) : List (String × String) :=
  (Text.splitOn ',' lbRange).map lbBlock

/-- The pools: every Service but the clustermesh-apiserver, and that one's. -/
def lbPools (net : Network) : List LbPool :=
  match net.mesh with
  | none => [{ name := "default-pool", blocks := lbBlocks net.lbRange, selector := none }]
  | some mesh =>
      let keepOut := Yaml.record [("matchExpressions", some (.list [Yaml.record [
        ("key", some (.str "io.kubernetes.service.name")), ("operator", some (.str "NotIn")),
        ("values", some (.list [.str meshServiceName]))]]))]
      let onlyMesh := Yaml.record [("matchLabels", some meshService)]
      [{ name := "default-pool", blocks := lbBlocks net.lbRange, selector := some keepOut },
       { name := "mesh-pool", blocks := [(mesh.text, mesh.text)], selector := some onlyMesh }]

/-- `lb_pool_manifest`: the pools, then the L2 policy. -/
def lbPoolManifest (dumpAll : List Yaml → String) (l2 : String) (net : Network) : String :=
  dumpAll ((lbPools net).map LbPool.doc) ++ "---\n" ++ l2

/-- The addresses of a block, both ends with it. -/
def blockAddresses (b : String × String) : Option (List IPv4Address) := do
  let start ← IPv4Address.parse b.1
  let stop ← IPv4Address.parse b.2
  return IPv4Address.upTo start stop

/-- The addresses that LB-IPAM hands out from a pool. -/
def LbPool.addresses (p : LbPool) : Option (List IPv4Address) :=
  List.flatten <$> p.blocks.mapM blockAddresses

/-! ### Prefixes of an interval -/

lemma two_pow_dvd_of_testBit {n k : ℕ} (h : ∀ i < k, n.testBit i = false) : 2 ^ k ∣ n := by
  refine Nat.dvd_of_mod_eq_zero (Nat.eq_of_testBit_eq fun i => ?_)
  rw [Nat.testBit_mod_two_pow, Nat.zero_testBit]
  by_cases hi : i < k
  · rw [h i hi, Bool.and_false]
  · rw [decide_eq_false hi, Bool.false_and]

lemma trailingZeros_le (n : ℕ) : trailingZeros n ≤ 32 := by
  rw [trailingZeros]
  split
  · exact le_rfl
  · cases hfind : (List.range 32).find? fun k => n.testBit k with
    | none => exact le_rfl
    | some k =>
        have hk := List.mem_range.mp (List.mem_of_find?_eq_some hfind)
        exact hk.le

/-- The bits below are zero. -/
lemma two_pow_trailingZeros_dvd (n : ℕ) : 2 ^ trailingZeros n ∣ n := by
  rw [trailingZeros]
  split
  · rename_i hn
    rw [hn]
    exact dvd_zero _
  · cases hfind : (List.range 32).find? fun k => n.testBit k with
    | none =>
        refine two_pow_dvd_of_testBit fun i hi => ?_
        simpa using List.find?_eq_none.mp hfind i (List.mem_range.mpr hi)
    | some k =>
        obtain ⟨-, i, hi, hget, hbefore⟩ := List.find?_eq_some_iff_getElem.mp hfind
        rw [List.getElem_range] at hget
        refine two_pow_dvd_of_testBit fun j hj => ?_
        have hji : j < i := by
          rw [← hget] at hj
          exact hj
        simpa using hbefore j hji

/-- Prefixes that list an interval: each is one, and they follow each other. -/
structure Covers (prefixes : List (ℕ × ℕ)) (first count : ℕ) : Prop where
  le : ∀ p ∈ prefixes, p.2 ≤ 32
  aligned : ∀ p ∈ prefixes, 2 ^ (32 - p.2) ∣ p.1
  lists : prefixes.flatMap (fun p => List.range' p.1 (2 ^ (32 - p.2))) = List.range' first count

/-- **The prefixes of an interval** list it in order, each address once. -/
theorem covers_summarizeFrom {first last fuel : ℕ} (hfuel : last + 1 - first ≤ fuel) :
    Covers (summarizeFrom first last fuel) first (last + 1 - first) := by
  induction fuel generalizing first with
  | zero =>
      rw [Nat.le_zero.mp hfuel]
      exact ⟨by simp [summarizeFrom], by simp [summarizeFrom], rfl⟩
  | succ fuel ih =>
      rw [summarizeFrom]
      by_cases hdone : last < first
      · have hnone : last + 1 - first = 0 := by omega
        rw [if_pos hdone, hnone]
        exact ⟨by simp, by simp, rfl⟩
      · rw [if_neg hdone]
        set bits := min (trailingZeros first) (Nat.log2 (last + 1 - first)) with hbits
        have hle : bits ≤ 32 := (min_le_left _ _).trans (trailingZeros_le first)
        have hback : 32 - (32 - bits) = bits := by omega
        have hdvd : 2 ^ bits ∣ first :=
          (Nat.pow_dvd_pow 2 (min_le_left _ _)).trans (two_pow_trailingZeros_dvd first)
        have hfits : 2 ^ bits ≤ last + 1 - first :=
          (Nat.pow_le_pow_right (by decide) (min_le_right _ _)).trans
            (Nat.log2_self_le (by omega))
        have hpos := Nat.two_pow_pos bits
        have hrest : Covers (summarizeFrom (first + 2 ^ bits) last fuel) (first + 2 ^ bits)
            (last + 1 - (first + 2 ^ bits)) := ih (by omega)
        refine ⟨List.forall_mem_cons.mpr ⟨Nat.sub_le _ _, hrest.le⟩,
          List.forall_mem_cons.mpr ⟨by rwa [hback], hrest.aligned⟩, ?_⟩
        rw [List.flatMap_cons, hback, hrest.lists, List.range'_append_1]
        congr 1
        omega

/-! ### Reading every segment -/

/-- What a loop that appends reads, item by item. -/
lemma exists_mapM_flatMap {α β γ ε : Type} {f : α → Except ε β} {g : β → List γ} {h : α → List γ}
    {l : List α} (hall : ∀ x ∈ l, ∃ y, f x = .ok y ∧ g y = h x) :
    ∃ ys, l.mapM f = .ok ys ∧ ys.flatMap g = l.flatMap h := by
  induction l with
  | nil => exact ⟨[], rfl, rfl⟩
  | cons x rest ih =>
      obtain ⟨hx, hrest⟩ := List.forall_mem_cons.mp hall
      obtain ⟨y, hy, hgy⟩ := hx
      obtain ⟨ys, hys, hflat⟩ := ih hrest
      refine ⟨y :: ys, ?_, by rw [List.flatMap_cons, List.flatMap_cons, hgy, hflat]⟩
      rw [List.mapM_cons, hy, Checked.ok_bind, hys]
      rfl

/-- A prefix that `summarize_address_range` makes is a network. -/
lemma exists_prefix {first len : ℕ} {e : IPv4Address → Raised} {e₀ : Raised}
    (hlt : first < 2 ^ 32) (hle : len ≤ 32) (hdvd : 2 ^ (32 - len) ∣ first) :
    ∃ n : IPv4Network, (do
        let ip ← Checked.ofOption e₀ (IPv4Address.ofNat? first)
        Checked.ofOption (e ip) (if h : len ≤ 32 then IPv4Network.strict ip len h else none))
      = .ok n ∧ n.addresses.map IPv4Address.toNat = List.range' first (2 ^ (32 - len)) := by
  obtain ⟨ip, hip⟩ : ∃ ip : IPv4Address, ip.toNat = first := ⟨⟨first, hlt⟩, rfl⟩
  subst hip
  refine ⟨⟨ip, len, hle, hdvd⟩, ?_, IPv4Network.map_toNat_addresses _⟩
  simp [IPv4Network.strict, hle, hdvd]

/-- Its two ends, with the start for a missing one. -/
lemma partition_runText (a : IPv4Address) (l : List IPv4Address) :
    ∃ y, Text.partition '-' (runText (a :: l)) = (a.text, y) ∧
      (if y = "" then a.text else y) = ((a :: l).getLast (List.cons_ne_nil a l)).text := by
  cases l with
  | nil => exact ⟨"", Text.partition_of_notMem (dash_notMem_text a), if_pos rfl⟩
  | cons b rest =>
      refine ⟨_, Text.partition_append (dash_notMem_text a) _, if_neg fun hempty => ?_⟩
      have hparse := IPv4Address.parse_text ((a :: b :: rest).getLast (List.cons_ne_nil _ _))
      have hnone : IPv4Address.parse "" = none := by decide
      rw [hempty, hnone] at hparse
      simp at hparse

lemma IsRun.le_getLast {a : IPv4Address} {l : List IPv4Address} (h : IsRun (a :: l)) :
    a ≤ (a :: l).getLast (List.cons_ne_nil a l) := by
  have hmem : a ∈ IPv4Address.upTo a ((a :: l).getLast (List.cons_ne_nil a l)) := by
    rw [IPv4Address.upTo_getLast h.chain]
    exact List.mem_cons_self
  have hmap := List.mem_map_of_mem (f := IPv4Address.toNat) hmem
  rw [IPv4Address.map_toNat_upTo, List.mem_range'_1] at hmap
  rw [IPv4Address.le_def]
  omega

/-- The prefixes of a run are its addresses. -/
lemma segmentPrefixes_runText {run : List IPv4Address} (h : IsRun run) :
    ∃ nets, segmentPrefixes (runText run) = .ok nets ∧
      nets.flatMap IPv4Network.addresses = run := by
  obtain ⟨a, l, rfl⟩ := List.exists_cons_of_ne_nil h.ne_nil
  obtain ⟨y, hpart, hstop⟩ := partition_runText a l
  have hle := h.le_getLast
  have hup := IPv4Address.upTo_getLast h.chain
  generalize (a :: l).getLast (List.cons_ne_nil a l) = b at hstop hle hup
  have hcovers : Covers (summarizeFrom a.toNat b.toNat (b.toNat + 1 - a.toNat)) a.toNat
      (b.toNat + 1 - a.toNat) := covers_summarizeFrom le_rfl
  have hlt : ∀ p ∈ summarizeFrom a.toNat b.toNat (b.toNat + 1 - a.toNat), p.1 < 2 ^ 32 := by
    intro p hp
    have hmem : p.1 ∈ List.range' a.toNat (b.toNat + 1 - a.toNat) := by
      rw [← hcovers.lists]
      exact List.mem_flatMap.mpr ⟨p, hp, by simp⟩
    have hb := b.lt
    rw [List.mem_range'_1] at hmem
    omega
  obtain ⟨nets, hnets, hflat⟩ := exists_mapM_flatMap
    (g := fun n : IPv4Network => n.addresses.map IPv4Address.toNat)
    fun p hp => exists_prefix (hlt p hp) (hcovers.le p hp) (hcovers.aligned p hp)
  refine ⟨nets, ?_, IPv4Address.toNat_injective.list_map ?_⟩
  · simp only [segmentPrefixes, hpart, hstop, IPv4Address.parse_text, Checked.ofOption,
      Checked.ok_bind, Checked.refuseIf, hle, not_true_eq_false, if_false]
    exact hnets
  · rw [List.map_flatMap, hflat, hcovers.lists, ← IPv4Address.map_toNat_upTo, hup]

/-- **The prefixes of the text of a pool** are its addresses, in order. -/
theorem rangePrefixes_rangesText {pool : List IPv4Address} (hne : pool ≠ []) :
    ∃ nets, rangePrefixes (rangesText pool) = .ok nets ∧
      nets.flatMap IPv4Network.addresses = pool := by
  obtain ⟨runs, hsplit, hflat, hall⟩ := splitOn_rangesText hne
  obtain ⟨netss, hnetss, hflats⟩ := exists_mapM_flatMap (f := segmentPrefixes ∘ runText)
    (g := fun nets => nets.flatMap IPv4Network.addresses) (h := id)
    fun run hrun => segmentPrefixes_runText (hall run hrun)
  refine ⟨netss.flatten, ?_, ?_⟩
  · rw [rangePrefixes, hsplit, List.mapM_map, hnetss]
    rfl
  · rw [List.flatten_eq_flatMap, List.flatMap_assoc, ← hflat, ← List.flatMap_id]
    exact hflats

/-- The block of a run is its addresses. -/
lemma blockAddresses_runText {run : List IPv4Address} (h : IsRun run) :
    blockAddresses (lbBlock (runText run)) = some run := by
  obtain ⟨a, l, rfl⟩ := List.exists_cons_of_ne_nil h.ne_nil
  obtain ⟨y, hpart, hstop⟩ := partition_runText a l
  simp only [lbBlock, hpart, hstop, blockAddresses, IPv4Address.parse_text, Option.bind_eq_bind,
    Option.bind_some, IPv4Address.upTo_getLast h.chain, Option.pure_def]

lemma mapM_blocks {runs : List (List IPv4Address)} (h : ∀ r ∈ runs, IsRun r) :
    ((runs.map runText).map lbBlock).mapM blockAddresses = some runs := by
  induction runs with
  | nil => rfl
  | cons run rest ih =>
      obtain ⟨hrun, hrest⟩ := List.forall_mem_cons.mp h
      rw [List.map_cons, List.map_cons, List.mapM_cons, blockAddresses_runText hrun, ih hrest]
      rfl

/-- **The blocks of the text of a pool** are its addresses, in order. -/
theorem addresses_default {net : Network} {pool : List IPv4Address} (hne : pool ≠ [])
    (hrange : net.lbRange = rangesText pool) :
    ∃ p ∈ lbPools net, p.name = "default-pool" ∧ p.addresses = some pool := by
  have hblocks : List.flatten <$> (lbBlocks net.lbRange).mapM blockAddresses = some pool := by
    obtain ⟨runs, hsplit, hflat, hall⟩ := splitOn_rangesText hne
    rw [lbBlocks, hrange, hsplit, mapM_blocks hall, ← hflat]
    rfl
  obtain ⟨selector, rest, hpools⟩ : ∃ selector rest, lbPools net =
      { name := "default-pool", blocks := lbBlocks net.lbRange, selector := selector } :: rest := by
    cases hmesh : net.mesh with
    | none => exact ⟨_, _, by rw [lbPools, hmesh]⟩
    | some mesh => exact ⟨_, _, by rw [lbPools, hmesh]⟩
  rw [hpools]
  exact ⟨_, List.mem_cons_self, rfl, hblocks⟩

/-! ### The readers agree -/

/-- What plan stores for a range text. -/
def normalise (text : String) : Except Raised String := rangesText <$> parseRange text

/-- The readers of the text of a pool, each with the whole pool in order. -/
structure CodecsAgree (pool : List IPv4Address) : Prop where
  read : parseRange (rangesText pool) = .ok pool
  normal : ∀ text, parseRange text = .ok pool → ∃ text', normalise text = .ok text' ∧
    normalise text' = .ok text' ∧ parseRange text' = parseRange text
  prefixes : ∃ nets, rangePrefixes (rangesText pool) = .ok nets ∧
    nets.flatMap IPv4Network.addresses = pool
  blocks : ∀ net : Network, net.lbRange = rangesText pool →
    ∃ p ∈ lbPools net, p.name = "default-pool" ∧ p.addresses = some pool
  start : ∀ c : Cluster, c.spec.network.range = some (rangesText pool) →
    ∃ a ∈ pool.head?, c.rangeStart = .ok a

lemma rangeStart_lone {c : Cluster} {a : IPv4Address}
    (h : c.spec.network.range = some (rangesText [a])) : c.rangeStart = .ok a := by
  have htext : rangesText [a] = a.text := Text.join_singleton _ _
  simp only [Cluster.rangeStart, h, htext, Text.headD_splitOn,
    Text.partition_of_notMem (dash_notMem_text a), IPv4Address.parse_text, Checked.ofOption]

lemma start_iff {pool : List IPv4Address} (hne : pool ≠ []) :
    (∀ c : Cluster, c.spec.network.range = some (rangesText pool) →
      ∃ a ∈ pool.head?, c.rangeStart = .ok a) ↔ StartsInRun pool := by
  constructor
  · rintro h a b rest rfl
    obtain ⟨first, hfirst, hstart⟩ := h { loneCluster with spec := { loneCluster.spec with
      network := { loneCluster.spec.network with
        range := some (rangesText (a :: b :: rest)) } } } rfl
    exact ((rangeStart_eq_ok rfl).mp hstart).2
  · intro h c hc
    cases pool with
    | nil => exact absurd rfl hne
    | cons a l =>
        cases l with
        | nil => exact ⟨a, rfl, rangeStart_lone hc⟩
        | cons b rest => exact ⟨a, rfl, (rangeStart_eq_ok hc).mpr ⟨rfl, h a b rest rfl⟩⟩

/-- **The readers agree exactly when** the pool does not start with a lone address that more
follow. -/
theorem codecsAgree_iff {pool : List IPv4Address} (hne : pool ≠ []) (hnd : pool.Nodup) :
    CodecsAgree pool ↔ StartsInRun pool := by
  refine ⟨fun h => (start_iff hne).mp h.start, fun h => ?_⟩
  have hread := parseRange_rangesText hne hnd
  exact
    { read := hread
      normal := fun text htext => ⟨rangesText pool, by rw [normalise, htext]; rfl,
        by rw [normalise, hread]; rfl, hread.trans htext.symm⟩
      prefixes := rangePrefixes_rangesText hne
      blocks := fun net hnet => addresses_default hne hnet
      start := (start_iff hne).mpr h }

/-- An interval, then a lone address before it. -/
theorem codecsAgree_back :
    CodecsAgree [⟨0xC0A80140, by decide⟩, ⟨0xC0A80141, by decide⟩, ⟨0xC0A80110, by decide⟩] := by
  refine (codecsAgree_iff (by simp) (by decide)).mpr ?_
  rintro a b rest h
  simp only [List.cons.injEq] at h
  obtain ⟨rfl, rfl, -⟩ := h
  rfl

/-- A lone address, then an interval. -/
theorem not_codecsAgree_lone :
    ¬ CodecsAgree [⟨0xC0A80110, by decide⟩, ⟨0xC0A80140, by decide⟩, ⟨0xC0A80141, by decide⟩] := by
  intro h
  have hrun := (start_iff (by simp)).mp h.start _ _ _ rfl
  exact absurd hrun (by decide)

end Tk8s
