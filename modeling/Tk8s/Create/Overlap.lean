import Tk8s.Create.Started
import Tk8s.Mesh.Ops
import Tk8s.Plan.Apart

/-!
The clusters of one operator, over every sequence of creates and deletes.

* `FleetStep`: a create without `--allow-overlap`, stopped anywhere or finished, or a delete.
* `NeverOverlap`: nothing of two clusters meets, nor of one.
* `KeptApart`: the same of what the index decides; a LAN and a pool are the operator's word, and
  compared with nothing.
* `keptApart_of_run`: **in every run the clusters are kept apart**. `not_neverOverlap_samePool`: two
  multi-host clusters get one pool.
-/

namespace Tk8s

open Net

variable {W : Type} {e : Env}

/-! ### Creates and deletes -/

/-- A verb on the clusters of one operator. -/
inductive FleetVerb (W : Type) where
  | create (i : Invocation W)
  | delete (name : String)

/-- No `--allow-overlap`, and every recorded index is known to be used. -/
structure Honest (f : Fleet) (i : Invocation W) : Prop where
  allowOverlap : i.facts.allowOverlap = false
  used : ∀ n c, f.cluster n = some c → c.spec.network.index ∈ i.facts.usedIndices

/-- One accepted create, or one delete; either may be stopped halfway. -/
def FleetStep (e : Env) (t : Trace.Transition Fleet (FleetVerb W)) : Prop :=
  match t.label with
  | .create i => Honest t.source i ∧ ∃ (s : Site W) (j₀ j : Job W),
      s.file = t.source.cluster i.user.metadata.name.text ∧ i.start s = .ok j₀ ∧
      (i.script e).Reaches j₀ j ∧
      t.target.cluster =
        Function.update t.source.cluster i.user.metadata.name.text j.site.file
  | .delete name => t.target = t.source.remove name ∨ t.target = t.source

/-! ### Apart -/

/-- Nothing of two clusters meets: indices, cluster ids, pods, services, VIP, the node subnet of a
single-host cluster with any of these, with the other's node subnet and pool, and two pools. -/
structure NeverMeet (c d : Cluster) : Prop where
  index : c.spec.network.index ≠ d.spec.network.index
  ids : ∀ st ∈ c.status, ∀ st' ∈ d.status, ∀ id ∈ st.clusterId, id ∉ st'.clusterId
  fixed : ∀ p ∈ c.fixed, ∀ q ∈ d.fixed, Apart p q
  nodes : c.spec.hosts = none →
    (∀ q ∈ d.spec.network.nodes :: d.fixed, Apart c.spec.network.nodes q) ∧
      ∀ a, d.Reserves a → a ∉ c.spec.network.nodes
  pools : c.spec.hosts ≠ none → d.spec.hosts ≠ none → ∀ a, c.Reserves a → ¬ d.Reserves a

/-- Two clusters are kept apart, but for LANs that reach into the blocks of the indices, and two
pools on LANs that meet. -/
structure KeptApart (c d : Cluster) : Prop where
  index : c.spec.network.index ≠ d.spec.network.index
  ids : ∀ st ∈ c.status, ∀ st' ∈ d.status, ∀ id ∈ st.clusterId, id ∉ st'.clusterId
  fixed : ∀ p ∈ c.fixed, ∀ q ∈ d.fixed, Apart p q
  nodes : c.spec.hosts = none → (∀ q ∈ d.fixed, Apart c.spec.network.nodes q) ∧
    (d.spec.hosts = none ∨ LanApart d.spec.network.nodes →
      Apart c.spec.network.nodes d.spec.network.nodes ∧
        ∀ a, d.Reserves a → a ∉ c.spec.network.nodes)
  pools : Apart c.spec.network.nodes d.spec.network.nodes → ∀ a, c.Reserves a → ¬ d.Reserves a

/-- Any two clusters. -/
def Fleet.ForPairs (f : Fleet) (R : Cluster → Cluster → Prop) : Prop :=
  ∀ n m c d, f.cluster n = some c → f.cluster m = some d → n ≠ m → R c d

/-- The clusters of an operator never overlap, and neither do the prefixes of one of them. -/
structure NeverOverlap (f : Fleet) : Prop where
  pairs : f.ForPairs NeverMeet
  own : ∀ n c, f.cluster n = some c → (c.spec.network.nodes :: c.fixed).Pairwise Apart

/-- The clusters of an operator are kept apart, and so are the prefixes of one of them, but for a LAN
that reaches into the blocks. -/
structure FleetApart (f : Fleet) : Prop where
  pairs : f.ForPairs KeptApart
  own : ∀ n c, f.cluster n = some c → c.fixed.Pairwise Apart ∧
    (c.spec.hosts = none ∨ LanApart c.spec.network.nodes →
      ∀ q ∈ c.fixed, Apart c.spec.network.nodes q)

/-! ### What is recorded -/

/-- A recorded cluster id is the index plus one. -/
def IdByIndex (c : Cluster) : Prop :=
  ∀ st ∈ c.status, ∀ id ∈ st.clusterId, id = c.spec.network.index + 1

/-- Every cluster has what its index gives it, and no two have one index. -/
structure Fleet.ByIndex (f : Fleet) : Prop where
  allotted : ∀ n c, f.cluster n = some c → Allotted c ∧ IdByIndex c
  distinct : f.ForPairs fun c d => c.spec.network.index ≠ d.spec.network.index

lemma Allotted.congr {c c' : Cluster} (h : Allotted c) (hnet : c'.spec.network = c.spec.network)
    (hhosts : c'.spec.hosts = c.spec.hosts) : Allotted c' := by
  refine ⟨by rw [hnet]; exact h.prefixes, fun hs => ?_, fun a ha => ?_⟩
  · rw [hnet]
    exact h.single (hhosts ▸ hs)
  · rw [Cluster.Reserves, hnet] at ha
    rw [hnet]
    exact h.pool a ha

/-- The plan a create works on: its network and hosts, under one name, and ids by the index. -/
structure SameLot (c₀ c : Cluster) : Prop where
  name : c.name = c₀.name
  network : c.spec.network = c₀.spec.network
  hosts : c.spec.hosts = c₀.spec.hosts
  ids : IdByIndex c

lemma sameLot_apply {c₀ c c' : Cluster} {r : Recording} (h : SameLot c₀ c)
    (hr : r.apply c = .ok c') : SameLot c₀ c' := by
  obtain ⟨hmeta, hspec⟩ := Recording.apply_unrecorded hr
  have hnet : c'.spec.network = c.spec.network := by
    simpa [Spec.unrecorded] using congrArg Spec.network hspec
  have hhosts : c'.spec.hosts = c.spec.hosts := by
    simpa [Spec.unrecorded] using congrArg Spec.hosts hspec
  have hname : c'.name = c.name := congrArg (fun m : Metadata => m.name.text) hmeta
  refine ⟨hname.trans h.name, hnet.trans h.network, hhosts.trans h.hosts, fun st hst id hid => ?_⟩
  rw [hnet]
  cases r with
  | cni datapath cilium =>
      rw [← Except.ok.inj hr, recordCni, Option.mem_def, Option.map_eq_some_iff] at hst
      obtain ⟨st₀, -, rfl⟩ := hst
      exact (Option.some_inj.mp (Option.mem_def.mp hid)).symm
  | completed phase time =>
      rw [← Except.ok.inj hr, recordCompleted, Option.mem_def, Option.map_eq_some_iff] at hst
      obtain ⟨st₀, hst₀, rfl⟩ := hst
      exact h.ids st₀ hst₀ id hid
  | podCidrs cidrs =>
      obtain ⟨nodes, -, rfl⟩ := withPodCidrs_eq_ok.mp hr
      exact h.ids st hst id hid

/-- What a create has in its context and in its file. -/
structure LotKept (c₀ : Cluster) (s : Site W) (j : Job W) : Prop where
  cluster : SameLot c₀ j.cluster
  file : j.site.file = s.file ∨ ∃ c, j.site.file = some c ∧ SameLot c₀ c

lemma lotKept_save {c₀ c : Cluster} {s : Site W} {j : Job W} (hc : SameLot c₀ c) :
    LotKept c₀ s (j.save c) := ⟨hc, Or.inr ⟨c, rfl, hc⟩⟩

variable {i : Invocation W} {s : Site W} {j₀ j : Job W}

/-- **A create writes its own lot only.** -/
lemma lotKept_of_reaches (hsite : j₀.site = s) (h₀ : SameLot j₀.cluster j₀.cluster)
    (h : (i.script e).Reaches j₀ j) : LotKept j₀.cluster s j := by
  have hstart : LotKept j₀.cluster s j₀ := ⟨h₀, Or.inl (by rw [hsite])⟩
  have hrun : Script.Spec (LotKept (W := W) j₀.cluster s) (i.runner e).run
      (LotKept j₀.cluster s) (LotKept j₀.cluster s) :=
    i.spec_run (fun _ _ h => ⟨h.cluster, h.file⟩) (fun _ _ h => ⟨h.cluster, h.file⟩)
      (fun _ h => lotKept_save h.cluster) (fun _ _ _ hc h => lotKept_save (sameLot_apply h.cluster hc))
      (fun _ _ _ _ _ h => ⟨fun _ _ => ⟨h.cluster, h.file⟩, h.cluster, h.file⟩)
      fun _ _ h => ⟨⟨h.cluster, h.file⟩, h.cluster, h.file⟩
  rcases Script.reaches_seq.mp h with hreach | ⟨m, hm, hfin⟩
  · exact hrun.stops hstart hreach
  · have hkept := hrun.ends hstart hm
    rcases reaches_finish hfin with rfl | ⟨-, st, hst, rfl⟩
    · exact hkept
    · refine lotKept_save ⟨hkept.cluster.name, hkept.cluster.network, hkept.cluster.hosts, ?_⟩
      intro st' hst' id hid
      obtain rfl := Option.some_inj.mp (Option.mem_def.mp hst')
      exact hkept.cluster.ids st hst id hid

/-! ### One step -/

/-- What a create starts with: a lot of its own. -/
lemma lot_of_start {f : Fleet} (hf : f.ByIndex) (honest : Honest f i)
    (hfile : s.file = f.cluster i.user.metadata.name.text) (h : i.start s = .ok j₀) :
    j₀.site = s ∧ j₀.cluster.name = i.user.metadata.name.text ∧ Allotted j₀.cluster ∧
      IdByIndex j₀.cluster ∧ ∀ n c, f.cluster n = some c → n ≠ i.user.metadata.name.text →
        c.spec.network.index ≠ j₀.cluster.spec.network.index := by
  simp only [Invocation.start, Checked.bind_eq_ok, Checked.refuseIf_eq_ok, Checked.pure_eq_ok] at h
  obtain ⟨-, -, -, -, c, hc, rfl⟩ := h
  have hallotted := allotted_of_resolve hc
  obtain ⟨index, t, hres, rfl⟩ := resolve_eq_ok.mp hc
  have hindex : t.net.index = index := (index_of_topology hres.built).1
  have hpick := hres.picked
  refine ⟨rfl, rfl, hallotted, ?_⟩
  cases hs : s.file with
  | none =>
      refine ⟨fun st hst id hid => ?_, fun n d hd _ heq => ?_⟩
      · simp only [statusOf, Option.mem_def, Option.some_inj] at hst
        simp [← hst] at hid
      · -- a new index is none of the used ones
        have hused := honest.used n d hd
        rw [heq] at hused
        exact hres.free ⟨hs, hindex ▸ hused, honest.allowOverlap⟩
  | some c₀ =>
      rw [hs, pickIndex, Except.ok.injEq] at hpick
      have hrec : f.cluster i.user.metadata.name.text = some c₀ := hfile.symm.trans hs
      refine ⟨fun st hst id hid => ?_, fun n d hd hne => ?_⟩
      · have hid₀ := (hf.allotted _ _ hrec).2 st hst id hid
        rw [hid₀, hpick]
        exact congrArg (· + 1) hindex.symm
      · have hne₀ : d.spec.network.index ≠ c₀.spec.network.index :=
          hf.distinct n _ d c₀ hd hrec hne
        rw [hpick] at hne₀
        exact fun heq => hne₀ (heq.trans hindex)

/-- **One verb keeps the clusters by index.** -/
lemma byIndex_step {t : Trace.Transition Fleet (FleetVerb W)} (ht : FleetStep e t)
    (hf : t.source.ByIndex) : t.target.ByIndex := by
  obtain ⟨f, v, f'⟩ := t
  cases v with
  | delete name =>
      rcases ht with hremove | hsame
      · obtain rfl : f' = f.remove name := hremove
        have hold : ∀ n c, (f.remove name).cluster n = some c → f.cluster n = some c := by
          intro n c h
          by_cases hn : n = name
          · simp [Fleet.remove, hn] at h
          · simpa [Fleet.remove, hn] using h
        exact ⟨fun n c h => hf.allotted n c (hold n c h),
          fun n m c d hc hd => hf.distinct n m c d (hold n c hc) (hold m d hd)⟩
      · obtain rfl : f' = f := hsame
        exact hf
  | create i =>
      obtain ⟨honest, s, j₀, j, hfile, hstart, hreach, htarget⟩ := ht
      change f'.cluster = Function.update f.cluster i.user.metadata.name.text j.site.file at htarget
      obtain ⟨hsite, -, hallotted, hid, hfresh⟩ := lot_of_start hf honest hfile hstart
      have hkept := lotKept_of_reaches hsite ⟨rfl, rfl, rfl, hid⟩ hreach
      -- the file of this name is the one of before, or holds the lot of this create
      have hown : ∀ c, f'.cluster i.user.metadata.name.text = some c →
          Allotted c ∧ IdByIndex c ∧ ∀ n d, f.cluster n = some d →
            n ≠ i.user.metadata.name.text → d.spec.network.index ≠ c.spec.network.index := by
        intro c hc
        rw [htarget, Function.update_self] at hc
        rcases hkept.file with hold | ⟨c', hc', hlot⟩
        · have hrec : f.cluster i.user.metadata.name.text = some c := by
            rw [← hfile, ← hold, hc]
          obtain ⟨ha, hi⟩ := hf.allotted _ _ hrec
          exact ⟨ha, hi, fun n d hd hne => hf.distinct n _ d c hd hrec hne⟩
        · obtain rfl := Option.some_inj.mp (hc.symm.trans hc')
          refine ⟨hallotted.congr hlot.network hlot.hosts, hlot.ids, fun n d hd hne => ?_⟩
          rw [hlot.network]
          exact hfresh n d hd hne
      have hother : ∀ n c, n ≠ i.user.metadata.name.text → f'.cluster n = some c →
          f.cluster n = some c := by
        intro n c hn hc
        rwa [htarget, Function.update_of_ne hn] at hc
      refine ⟨fun n c hc => ?_, fun n m c d hc hd hne => ?_⟩
      · by_cases hn : n = i.user.metadata.name.text
        · obtain ⟨ha, hi, -⟩ := hown c (hn ▸ hc)
          exact ⟨ha, hi⟩
        · exact hf.allotted n c (hother n c hn hc)
      · by_cases hn : n = i.user.metadata.name.text
        · have hm : m ≠ i.user.metadata.name.text := fun h => hne (hn.trans h.symm)
          obtain ⟨-, -, hdiff⟩ := hown c (hn ▸ hc)
          exact (hdiff m d (hother m d hm hd) hm).symm
        · by_cases hm : m = i.user.metadata.name.text
          · obtain ⟨-, -, hdiff⟩ := hown d (hm ▸ hd)
            exact hdiff n c (hother n c hn hc) hn
          · exact hf.distinct n m c d (hother n c hn hc) (hother m d hm hd) hne

/-! ### Every run -/

/-- Clusters by index are kept apart. -/
lemma Fleet.ByIndex.apart {f : Fleet} (hf : f.ByIndex) : FleetApart f := by
  refine ⟨fun n m c d hc hd hne => ?_, fun n c hc => ?_⟩
  · obtain ⟨hac, hic⟩ := hf.allotted n c hc
    obtain ⟨had, hid⟩ := hf.allotted m d hd
    have hindex := hf.distinct n m c d hc hd hne
    refine ⟨hindex, fun st hst st' hst' id hidc hidd => ?_, hac.fixed_apart had hindex,
      fun hsingle => ⟨hac.single_fixed had hsingle, fun hother => ?_⟩, fun hlans a ha ha' => ?_⟩
    · have h₁ := hic st hst id hidc
      have h₂ := hid st' hst' id hidd
      omega
    · have hnodes := hac.nodes_apart had hindex hsingle hother
      exact ⟨hnodes, fun a ha hmem => hnodes a hmem (had.pool a ha)⟩
    · exact hlans a (hac.pool a ha) (had.pool a ha')
  · obtain ⟨hac, -⟩ := hf.allotted n c hc
    exact ⟨hac.pairwise_fixed, hac.nodes_fixed⟩

/-- **In every run of creates and deletes the clusters of an operator are kept apart.** -/
theorem keptApart_of_run {ts : List (Trace.Transition Fleet (FleetVerb W))} {f : Fleet}
    (run : Trace.Run (FleetStep e) Fleet.empty ts f) : FleetApart f := by
  have hempty : Fleet.empty.ByIndex :=
    ⟨fun n c h => by simp [Fleet.empty] at h, fun n m c d h => by simp [Fleet.empty] at h⟩
  have hkeep : ∀ t : Trace.Transition Fleet (FleetVerb W), FleetStep e t → True →
      t.source.ByIndex → t.target.ByIndex := fun _ ht _ hs => byIndex_step ht hs
  exact (run.invariant hempty hkeep fun _ _ => trivial).1.apart

/-! ### One range, twice -/

/-- `create cluster <name> --phase plan` on two hosts with a range of their LAN, when `used` are
taken. -/
def createOnLan (name : ClusterName) (used : List ℕ) : Invocation Unit where
  user :=
    { twoHosts ⟨"192.168.1.64-79", range_lan⟩ with metadata := ⟨name⟩ }
  facts := { twoHostsFacts with usedIndices := used }
  rest := willing
  only := some "plan"

/-- The cluster a create of a new name leaves behind. -/
def plannedOnLan (name : ClusterName) (used : List ℕ) : Except Raised Cluster := do
  let i := createOnLan name used
  let j₀ ← i.start bareSite
  let j ← Checked.ofOption .assertionError <|
    (i.script someEnv j₀).passed.getLast?
  Checked.ofOption .assertionError j.site.file

lemma plannedOnLan_step {f : Fleet} {name : ClusterName} {used : List ℕ} {c : Cluster}
    (h : plannedOnLan name used = .ok c) (hnone : f.cluster name.text = none)
    (hname : c.name = name.text)
    (hused : ∀ n d, f.cluster n = some d → d.spec.network.index ∈ used) :
    FleetStep someEnv ⟨f, .create (createOnLan name used), f.save c⟩ := by
  simp only [plannedOnLan, Checked.bind_eq_ok, Checked.ofOption_eq_ok] at h
  obtain ⟨j₀, hstart, j, hj, hfile⟩ := h
  refine ⟨⟨rfl, hused⟩, bareSite, j₀, j, hnone.symm, hstart,
    Or.inr (List.mem_of_getLast? hj), ?_⟩
  have hsave : (f.save c).cluster = Function.update f.cluster c.name (some c) := rfl
  rw [hfile]
  exact hsave.trans (by rw [hname]; rfl)

/-- Two multi-host clusters on one LAN, with one range. -/
def plannedPair : Except Raised (Cluster × Cluster) := do
  let c ← plannedOnLan ⟨"dev", clusterName_dev⟩ []
  let d ← plannedOnLan ⟨"lab", by decide⟩ [c.spec.network.index]
  Checked.refuseIf (c.name ≠ "dev" ∨ d.name ≠ "lab") .assertionError
  return (c, d)

lemma plannedPair_run {c d : Cluster} (h : plannedPair = .ok (c, d)) :
    ∃ ts : List (Trace.Transition Fleet (FleetVerb Unit)),
      Trace.Run (FleetStep someEnv) Fleet.empty ts ((Fleet.empty.save c).save d) ∧
      ((Fleet.empty.save c).save d).cluster "dev" = some c ∧
      ((Fleet.empty.save c).save d).cluster "lab" = some d := by
  simp only [plannedPair, Checked.bind_eq_ok, Checked.exists_unit, Checked.refuseIf_eq_ok,
    Checked.pure_eq_ok, Prod.mk.injEq, not_or, not_not] at h
  obtain ⟨c', hc, d', hd, ⟨hcname, hdname⟩, hceq, hdeq⟩ := h
  rw [hceq] at hc hd hcname
  rw [hdeq] at hd hdname
  have hfirst := plannedOnLan_step (f := Fleet.empty) hc rfl hcname
    fun n d h => by simp [Fleet.empty] at h
  have hnone : (Fleet.empty.save c).cluster "lab" = none := by
    simp [Fleet.save, Fleet.empty, hcname]
  have hsecond := plannedOnLan_step (f := Fleet.empty.save c) hd hnone hdname fun n c' h => by
    by_cases hn : n = c.name
    · simp only [Fleet.save, hn, Function.update_self, Option.some_inj] at h
      simp [← h]
    · simp [Fleet.save, Fleet.empty, hn] at h
  refine ⟨_, (Trace.Run.nil.snoc hfirst).snoc hsecond, ?_, ?_⟩
  · simp [Fleet.save, hcname, hdname]
  · simp [Fleet.save, hdname]

/-- Both are accepted, with one pool. -/
lemma exists_plannedPair : ∃ c d, plannedPair = .ok (c, d) ∧ c.spec.hosts ≠ none ∧
    d.spec.hosts ≠ none ∧ ∃ a, c.Reserves a ∧ d.Reserves a := by
  have hrun : (do
      let p ← plannedPair
      let rng ← Checked.ofOption .assertionError p.1.spec.network.range
      let pool ← parseRange rng
      return p.2.spec.network.range = some rng && !pool.isEmpty && p.1.spec.hosts.isSome &&
        p.2.spec.hosts.isSome : Except Raised Bool) = .ok true := by
    decide +kernel
  simp only [Checked.bind_eq_ok, Checked.ofOption_eq_ok, Checked.pure_eq_ok, Bool.and_eq_true,
    decide_eq_true_eq] at hrun
  obtain ⟨⟨c, d⟩, hpair, rng, hrng, pool, hpool, ⟨⟨hrng', hne⟩, hhosts⟩, hhosts'⟩ := hrun
  obtain ⟨a, ha⟩ := List.exists_mem_of_ne_nil pool (by simpa using hne)
  exact ⟨c, d, hpair, Option.isSome_iff_ne_none.mp hhosts, Option.isSome_iff_ne_none.mp hhosts', a,
    ⟨rng, hrng, pool, hpool, ha⟩, rng, hrng', pool, hpool, ha⟩

/-- Two multi-host clusters are kept apart by their indices. -/
theorem keptApart_pair : ∃ c d, plannedPair = .ok (c, d) ∧
    FleetApart ((Fleet.empty.save c).save d) := by
  obtain ⟨c, d, h, -⟩ := exists_plannedPair
  obtain ⟨ts, run, -, -⟩ := plannedPair_run h
  exact ⟨c, d, h, keptApart_of_run run⟩

/-- The two got the same pool. -/
theorem not_neverOverlap_samePool :
    ∃ (ts : List (Trace.Transition Fleet (FleetVerb Unit))) (f : Fleet),
      Trace.Run (FleetStep someEnv) Fleet.empty ts f ∧ ¬ NeverOverlap f := by
  obtain ⟨c, d, hpair, hhosts, hhosts', a, ha, ha'⟩ := exists_plannedPair
  obtain ⟨ts, run, hc, hd⟩ := plannedPair_run hpair
  exact ⟨ts, _, run, fun hnever =>
    (hnever.pairs "dev" "lab" c d hc hd (by decide)).pools hhosts hhosts' a ha ha'⟩

end Tk8s
