import Tk8s.Create.Overlap
import Tk8s.Create.Ready
import Tk8s.RoundTrip

/-!
`mesh/checks.py`: what `preflight` accepts.

* `Produced`: the clusters that `resolve` and the recordings of tkctl make; `Produced.byIndex`: their
  prefixes lie where their index says, and a recorded cluster id is that index plus one.
* `Federable`: what a mesh needs of a list of clusters, in terms of its members and of any two of them.
* `preflight_iff`: **preflight accepts exactly the lists that are federable**, whatever their order.
-/

namespace Tk8s

open Net

/-! ### Where the clusters come from -/

/-- A cluster that `resolve` made, new or from one of these, after any updates. -/
inductive Produced : Cluster → Prop
  | resolved {u : UserCluster} {existing : Option Cluster} {f : Facts} {c : Cluster}
      (before : ∀ c₀ ∈ existing, Produced c₀) (planned : resolve u existing f = .ok c) : Produced c
  | updated {c c' : Cluster} {upd : Update} (before : Produced c) (last : upd.apply c = .ok c') :
      Produced c'

/-- A version of the form `major.minor.patch`. -/
def IsVersion (text : String) : Prop :=
  ∃ major minor patch, Text.isDigits major = true ∧ Text.isDigits minor = true ∧
    Text.isDigits patch = true ∧ text = Text.join '.' [major, minor, patch]

/-- The recorded Cilium version has that form. -/
def Versioned (c : Cluster) : Prop := ∀ st ∈ c.status, ∀ v ∈ st.cilium, IsVersion v

section Produced

variable {c c' : Cluster} {upd : Update}

/-- An update keeps the network and the hosts, and the ids by the index. -/
lemma byIndex_apply (h : Allotted c ∧ IdByIndex c) (hupd : upd.apply c = .ok c') :
    Allotted c' ∧ IdByIndex c' := by
  obtain ⟨hallotted, hids⟩ := h
  cases upd with
  | recording r =>
      have hlot := sameLot_apply ⟨rfl, rfl, rfl, hids⟩ hupd
      exact ⟨hallotted.congr hlot.network hlot.hosts, hlot.ids⟩
  | ready =>
      obtain rfl := Except.ok.inj hupd
      refine ⟨hallotted.congr rfl rfl, fun st hst id hid => ?_⟩
      obtain ⟨st₀, hst₀, rfl⟩ := Option.map_eq_some_iff.mp (Option.mem_def.mp hst)
      exact hids st₀ hst₀ id hid
  | peers l =>
      simp only [Update.apply, Cluster.withPeers, Checked.bind_eq_ok, Checked.ofOption_eq_ok,
        Checked.pure_eq_ok] at hupd
      obtain ⟨st₀, hst₀, rfl⟩ := hupd
      refine ⟨hallotted.congr rfl rfl, fun st hst id hid => ?_⟩
      obtain rfl := Option.some.inj hst
      exact hids st₀ hst₀ id hid
  | node e =>
      have hstatus := Edit.apply_status hupd
      have hspec : c'.spec.network = c.spec.network ∧ c'.spec.hosts = c.spec.hosts := by
        cases e with
        | add req =>
            obtain ⟨n, -, rfl⟩ := Checked.map_eq_ok.mp hupd
            exact ⟨rfl, rfl⟩
        | joined name => exact Except.ok.inj hupd ▸ ⟨rfl, rfl⟩
        | remove name => exact (withoutNode_eq_ok hupd).1 ▸ ⟨rfl, rfl⟩
      refine ⟨hallotted.congr hspec.1 hspec.2, ?_⟩
      rw [IdByIndex, hstatus, hspec.1]
      exact hids

/-- **The prefixes of such a cluster lie where its index says, and its id is the index plus one.** -/
lemma Produced.byIndex (h : Produced c) : Allotted c ∧ IdByIndex c := by
  induction h with
  | updated _ last ih => exact byIndex_apply ih last
  | @resolved u existing f c before planned ih =>
      refine ⟨allotted_of_resolve planned, ?_⟩
      obtain ⟨index, t, hres, rfl⟩ := resolve_eq_ok.mp planned
      have hindex : t.net.index = index := (index_of_topology hres.built).1
      have hpick := hres.picked
      intro st hst id hid
      cases existing with
      | none =>
          simp only [statusOf, Option.mem_def, Option.some_inj] at hst
          simp [← hst] at hid
      | some c₀ =>
          rw [pickIndex, Except.ok.injEq] at hpick
          have hid₀ := (ih c₀ rfl).2 st hst id hid
          rw [hid₀, hpick]
          exact congrArg (· + 1) hindex.symm

end Produced

/-! ### What preflight looks for -/

/-- Two clusters that may be in one mesh. -/
structure Compatible (a b : Cluster) : Prop where
  /-- Cluster ids that differ. -/
  ids : ∀ sa ∈ a.status, ∀ sb ∈ b.status, sa.clusterId ≠ sb.clusterId
  /-- Pod and service prefixes that do not meet. -/
  cidrs : ∀ p ∈ [a.spec.network.pods, a.spec.network.services],
    ∀ q ∈ [b.spec.network.pods, b.spec.network.services], Apart p q
  /-- The same Cilium major version, and minor ones at most one apart. -/
  versions : ∀ sa ∈ a.status, ∀ sb ∈ b.status, ∃ x y, minor (sa.cilium.getD "None") = .ok x ∧
    minor (sb.cilium.getD "None") = .ok y ∧ x.1 = y.1 ∧ x.2 ≤ y.2 + 1 ∧ y.2 ≤ x.2 + 1

/-- Clusters that can be a mesh: all running and able to federate, of one kind, and any two of them
compatible. -/
structure Federable (op : Operator) (cs : List Cluster) : Prop where
  running : ∀ c ∈ cs, op.stateOf c = .running
  able : ∀ c ∈ cs, canFederate c = true
  kind : ∀ a ∈ cs, ∀ b ∈ cs, a.multiHost = b.multiHost
  pairs : ∀ a ∈ cs, ∀ b ∈ cs, a ≠ b → Compatible a b

section Preflight

variable {op : Operator} {a b c first : Cluster} {cs cs' : List Cluster}

lemma minor_eq {v : String} (h : IsVersion v) : ∃ x, minor v = .ok x := by
  obtain ⟨major, minorText, patch, hmajor, hminor, hpatch, rfl⟩ := h
  have hdot : ∀ text, Text.isDigits text = true → '.' ∉ text.toList := by
    intro text htext hin
    rw [Text.isDigits, Bool.and_eq_true, List.all_eq_true] at htext
    exact absurd (htext.2 _ hin) (by decide)
  have hparts : Text.splitOn '.' (Text.join '.' [major, minorText, patch]) =
      [major, minorText, patch] := by
    refine Text.splitOn_join (by simp) ?_
    simp [hdot _ hmajor, hdot _ hminor, hdot _ hpatch]
  refine ⟨(Text.number major, Text.number minorText), ?_⟩
  simp [minor, hparts, hmajor, hminor, Checked.ofOption, Checked.refuseIf]

lemma canFederate_eq_true : canFederate c = true ↔ ∃ st ∈ c.status, ∃ id ∈ st.clusterId,
    ∃ v ∈ st.cilium, c.spec.network.mesh.isSome = true := by
  rw [canFederate]
  cases hst : c.status with
  | none => simp
  | some st =>
      simp only [Bool.and_eq_true, Option.isSome_iff_exists, Option.mem_def, Option.some.injEq,
        exists_eq_left', exists_and_right, and_assoc]

/-- The first loop, on one cluster. -/
lemma preflightOne_eq_ok : preflightOne op first c = .ok () ↔
    op.stateOf c = .running ∧ canFederate c = true ∧ c.multiHost = first.multiHost := by
  simp only [preflightOne, Checked.check_bind_eq_ok, Checked.refuseIf_eq_ok, ne_eq, not_not,
    Bool.not_eq_false]
  constructor
  · rintro ⟨-, -, hrunning, -, hable, hkind⟩
    exact ⟨hrunning, hable, hkind⟩
  · rintro ⟨hrunning, hable, hkind⟩
    refine ⟨by simp [hrunning], by simp [hrunning], hrunning, fun hnone => ?_, hable, hkind⟩
    simp [canFederate, hnone] at hable

/-- The second loop, on two clusters that passed the first. -/
lemma preflightPair_eq_ok (ha : Produced a) (hb : Produced b) (hva : Versioned a)
    (hvb : Versioned b) (hfa : canFederate a = true) (hfb : canFederate b = true) :
    preflightPair a b = .ok () ↔ Compatible a b := by
  obtain ⟨sa, hsa, ida, hida, va, hva', -⟩ := canFederate_eq_true.mp hfa
  obtain ⟨sb, hsb, idb, hidb, vb, hvb', -⟩ := canFederate_eq_true.mp hfb
  obtain ⟨hlotA, hindexA⟩ := ha.byIndex
  obtain ⟨hlotB, hindexB⟩ := hb.byIndex
  obtain ⟨x, hx⟩ := minor_eq (hva sa hsa va hva')
  obtain ⟨y, hy⟩ := minor_eq (hvb sb hsb vb hvb')
  have hcidrs : sa.clusterId ≠ sb.clusterId →
      ∀ p ∈ [a.spec.network.pods, a.spec.network.services],
        ∀ q ∈ [b.spec.network.pods, b.spec.network.services], Apart p q := by
    intro hne p hp q hq
    have hindex : a.spec.network.index ≠ b.spec.network.index := by
      intro heq
      rw [hida, hidb, hindexA sa hsa ida hida, hindexB sb hsb idb hidb, heq] at hne
      exact hne rfl
    have hfixed : ∀ {c : Cluster} {p : IPv4Network},
        p ∈ [c.spec.network.pods, c.spec.network.services] → p ∈ c.fixed := by
      intro c p hp
      rw [Cluster.fixed]
      simp only [List.mem_cons, List.not_mem_nil, or_false] at hp ⊢
      tauto
    exact hlotA.fixed_apart hlotB hindex p (hfixed hp) q (hfixed hq)
  have hminors : ((x.2 : ℤ) - y.2).natAbs ≤ 1 ↔ x.2 ≤ y.2 + 1 ∧ y.2 ≤ x.2 + 1 := by omega
  rw [Option.mem_def] at hsa hsb hva' hvb'
  simp only [preflightPair, hsa, hsb, Checked.ofOption, Checked.ok_bind, Checked.check_bind_eq_ok,
    Checked.refuseIf_eq_ok, hva', hvb', Option.getD_some, hx, hy, not_or, not_not, not_lt, ne_eq,
    hminors]
  constructor
  · rintro ⟨hids, hmajor, hle, hge⟩
    refine ⟨fun s hs s' hs' => ?_, hcidrs hids, fun s hs s' hs' => ⟨x, y, ?_, ?_, hmajor, hle, hge⟩⟩
    all_goals
      rw [Option.mem_def, hsa, Option.some_inj] at hs
      rw [Option.mem_def, hsb, Option.some_inj] at hs'
      subst hs hs'
    · exact hids
    · rwa [hva', Option.getD_some]
    · rwa [hvb', Option.getD_some]
  · intro h
    obtain ⟨x', y', hx', hy', hmajor, hle, hge⟩ := h.versions sa hsa sb hsb
    rw [hva', Option.getD_some, hx, Except.ok.injEq] at hx'
    rw [hvb', Option.getD_some, hy, Except.ok.injEq] at hy'
    subst hx' hy'
    exact ⟨h.ids sa hsa sb hsb, hmajor, hle, hge⟩

lemma preflightPairs_eq_ok : preflightPairs cs = .ok () ↔
    cs.Pairwise fun a b => preflightPair a b = .ok () := by
  induction cs with
  | nil => simp [preflightPairs]
  | cons a rest ih =>
      have hfirst : rest.forM (preflightPair a) = .ok () ↔ ∀ b ∈ rest, preflightPair a b = .ok () :=
        Checked.forM_eq_ok
      rw [preflightPairs, Checked.check_bind_eq_ok, hfirst, ih, List.pairwise_cons]

lemma Compatible.symm (h : Compatible a b) : Compatible b a where
  ids sb hsb sa hsa heq := h.ids sa hsa sb hsb heq.symm
  cidrs p hp q hq := (h.cidrs q hq p hp).symm
  versions sb hsb sa hsa := by
    obtain ⟨x, y, hx, hy, hmajor, hle, hge⟩ := h.versions sa hsa sb hsb
    exact ⟨y, x, hy, hx, hmajor.symm, hge, hle⟩

/-- What preflight accepts, for one list. -/
lemma preflight_eq_ok (hne : cs ≠ []) (hnodup : cs.Nodup) (hproduced : ∀ c ∈ cs, Produced c)
    (hversioned : ∀ c ∈ cs, Versioned c) : preflight op cs = .ok () ↔ Federable op cs := by
  obtain ⟨first, rest, rfl⟩ := List.exists_cons_of_ne_nil hne
  have hloop : (first :: rest).forM (preflightOne op first) = .ok () ↔
      ∀ c ∈ first :: rest, preflightOne op first c = .ok () := Checked.forM_eq_ok
  simp only [preflight, List.head?_cons, Checked.ofOption, Checked.ok_bind, Checked.check_bind_eq_ok,
    hloop, preflightOne_eq_ok, preflightPairs_eq_ok]
  constructor
  · rintro ⟨hone, hpairs⟩
    have hcompatible : (first :: rest).Pairwise Compatible := by
      refine List.Pairwise.imp_of_mem (fun {a b} ha hb hab => ?_) hpairs
      exact (preflightPair_eq_ok (hproduced a ha) (hproduced b hb) (hversioned a ha)
        (hversioned b hb) (hone a ha).2.1 (hone b hb).2.1).mp hab
    refine ⟨fun c hc => (hone c hc).1, fun c hc => (hone c hc).2.1, fun a ha b hb => ?_, ?_⟩
    · exact (hone a ha).2.2.trans (hone b hb).2.2.symm
    · intro a ha b hb hab
      have hsymm : Std.Symm Compatible := ⟨fun _ _ h => h.symm⟩
      exact hcompatible.forall ha hb hab
  · intro h
    refine ⟨fun c hc => ⟨h.running c hc, h.able c hc, h.kind c hc first (by simp)⟩, ?_⟩
    refine hnodup.imp_of_mem fun {a b} ha hb hab => ?_
    exact (preflightPair_eq_ok (hproduced a ha) (hproduced b hb) (hversioned a ha)
      (hversioned b hb) (h.able a ha) (h.able b hb)).mpr (h.pairs a ha b hb hab)

/-- What a mesh needs is a matter of the members. -/
lemma Federable.congr (h : Federable op cs) (hmem : ∀ c, c ∈ cs' ↔ c ∈ cs) : Federable op cs' where
  running c hc := h.running c ((hmem c).mp hc)
  able c hc := h.able c ((hmem c).mp hc)
  kind a ha b hb := h.kind a ((hmem a).mp ha) b ((hmem b).mp hb)
  pairs a ha b hb := h.pairs a ((hmem a).mp ha) b ((hmem b).mp hb)

/-- **Preflight accepts exactly the lists that are federable**, and so the same of every list with the
same members. -/
theorem preflight_iff (hne : cs ≠ []) (hnodup : cs.Nodup) (hproduced : ∀ c ∈ cs, Produced c)
    (hversioned : ∀ c ∈ cs, Versioned c) :
    (preflight op cs = .ok () ↔ Federable op cs) ∧
      ∀ cs' : List Cluster, cs'.Nodup → (∀ c, c ∈ cs' ↔ c ∈ cs) →
        (preflight op cs' = .ok () ↔ preflight op cs = .ok ()) := by
  refine ⟨preflight_eq_ok hne hnodup hproduced hversioned, fun cs' hnodup' hmem => ?_⟩
  obtain ⟨c, hc⟩ := List.exists_mem_of_ne_nil cs hne
  have hne' : cs' ≠ [] := List.ne_nil_of_mem ((hmem c).mpr hc)
  rw [preflight_eq_ok hne hnodup hproduced hversioned,
    preflight_eq_ok hne' hnodup' (fun c hc => hproduced c ((hmem c).mp hc))
      fun c hc => hversioned c ((hmem c).mp hc)]
  exact ⟨fun h => h.congr fun c => (hmem c).symm, fun h => h.congr hmem⟩

end Preflight

/-! ### Two clusters -/

/-- A cluster of one node, created beside clusters with these indices. -/
def createdCluster (name : ClusterName) (used : List ℕ) : Except Raised Cluster := do
  let c ← resolve { oneNode with metadata := ⟨name⟩ } none { oneNodeFacts with usedIndices := used }
  let c ← (Update.recording (.cni .veth "1.20.4")).apply c
  Update.ready.apply c

lemma produced_createdCluster {name : ClusterName} {used : List ℕ} {c : Cluster}
    (h : createdCluster name used = .ok c) : Produced c := by
  simp only [createdCluster, Checked.bind_eq_ok] at h
  obtain ⟨c₀, hc₀, c₁, hc₁, hready⟩ := h
  exact ((Produced.resolved (by simp) hc₀).updated hc₁).updated hready

lemma versioned_createdCluster {name : ClusterName} {used : List ℕ} {c : Cluster}
    (h : createdCluster name used = .ok c) : Versioned c := by
  simp only [createdCluster, Checked.bind_eq_ok] at h
  obtain ⟨c₀, -, c₁, hc₁, hready⟩ := h
  obtain rfl := Except.ok.inj hc₁
  obtain rfl := Except.ok.inj hready
  intro st hst v hv
  simp only [recordCni, Option.map_map, Option.mem_def, Option.map_eq_some_iff] at hst
  obtain ⟨st₀, -, rfl⟩ := hst
  obtain rfl := Option.some.inj hv
  exact ⟨"1", "20", "4", by decide, by decide, by decide, by decide⟩

/-- Every target is up. -/
def everUp : Operator := ⟨"/srv/tk8s/clusters", "operator", fun _ _ => some true⟩

/-- Two clusters created one after the other can be a mesh. -/
theorem preflight_two : ∃ a b, createdCluster ⟨"one", by decide⟩ [] = .ok a ∧
    createdCluster ⟨"two", by decide⟩ [0] = .ok b ∧ Federable everUp [a, b] := by
  have hrun : (do
      let a ← createdCluster ⟨"one", by decide⟩ []
      let b ← createdCluster ⟨"two", by decide⟩ [0]
      preflight everUp [a, b]
      return decide (a ≠ b)) = .ok true := by
    decide +kernel
  simp only [Checked.bind_eq_ok, Checked.exists_unit, Checked.pure_eq_ok, decide_eq_true_eq] at hrun
  obtain ⟨a, ha, b, hb, hok, hne⟩ := hrun
  refine ⟨a, b, ha, hb, (preflight_iff (by simp) (by simpa using hne) ?_ ?_).1.mp hok⟩
  · simp [produced_createdCluster ha, produced_createdCluster hb]
  · simp [versioned_createdCluster ha, versioned_createdCluster hb]

end Tk8s
