import Tk8s.Lib.Run
import Tk8s.Mesh.Ops
import Tk8s.Node.Edits

/-!
Cluster Mesh records over any sequence of connects, disconnects and deletes.

* `PeersRecorded`, `Unlinked`: what recording the peers of one cluster, and taking one edge away, do to the
  records of all.
* `connect_peers`, `disconnect_unlinked`, `delete_peers`: what each verb does to them.
* `mesh_consistent_iff`: **the records stay a symmetric graph, and connects only add peers, exactly
  when every connect works on a set closed under recorded peers**: each peer of a direct peer of a
  root is itself a root or a direct peer of one.
-/

namespace Tk8s

variable {op : Operator} {f f' : Fleet}

/-! ### What one recording changes -/

/-- The clusters are the same ones, in the same state. -/
structure SameClusters (op : Operator) (f f' : Fleet) : Prop where
  has : ∀ n, f'.Has n ↔ f.Has n
  state : ∀ n c', f'.cluster n = some c' → ∃ c, f.cluster n = some c ∧ op.stateOf c' = op.stateOf c

namespace SameClusters

lemma refl : SameClusters op f f := ⟨fun _ => Iff.rfl, fun _ c' hc => ⟨c', hc, rfl⟩⟩

lemma trans {g : Fleet} (h : SameClusters op f f') (h' : SameClusters op f' g) :
    SameClusters op f g where
  has n := (h'.has n).trans (h.has n)
  state n c' hc := by
    obtain ⟨c₁, hc₁, hs₁⟩ := h'.state n c' hc
    obtain ⟨c, hc, hs⟩ := h.state n c₁ hc₁
    exact ⟨c, hc, hs₁.trans hs⟩

end SameClusters

lemma stateOf_congr {c c' : Cluster} (hmeta : c'.metadata = c.metadata) (hspec : c'.spec = c.spec)
    (hphase : c'.status.map (·.phase) = c.status.map (·.phase)) : op.stateOf c' = op.stateOf c := by
  have hmulti : c'.multiHost = c.multiHost := by rw [Cluster.multiHost, hspec, ← Cluster.multiHost]
  have hhosts : c'.nodeHosts = c.nodeHosts := by
    rw [Cluster.nodeHosts, hmulti, Cluster.hostNames, hspec, ← Cluster.hostNames,
      ← Cluster.nodeHosts]
  have hname : c'.name = c.name := by rw [Cluster.name, hmeta, ← Cluster.name]
  rw [Operator.stateOf, hphase, hmulti, hhosts, hname, ← Operator.stateOf]

/-- The cluster `name` lists `l`; all else is as before. -/
structure PeersRecorded (op : Operator) (f f' : Fleet) (name : String) (l : List String) : Prop where
  had : f.Has name
  same : SameClusters op f f'
  peers : ∀ x y, y ∈ f'.peers x ↔ if x = name then y ∈ l else y ∈ f.peers x

lemma recordPeers_recorded {name : String} {l : List String}
    (h : recordPeers op f name l = .ok f') : PeersRecorded op f f' name l := by
  simp only [recordPeers, Checked.bind_eq_ok, Checked.ofOption_eq_ok, Checked.pure_eq_ok] at h
  obtain ⟨c, hload, st, hst, rfl⟩ := h
  have hc := Operator.loadCluster_eq_ok hload
  have hname : c.name = name := f.named hc
  have hself : (f.save (c.withStatus { st with mesh := sorted l })).cluster name
      = some (c.withStatus { st with mesh := sorted l }) := by
    rw [← hname]
    exact Function.update_self ..
  have hother : ∀ n, n ≠ name →
      (f.save (c.withStatus { st with mesh := sorted l })).cluster n = f.cluster n := by
    intro n hn
    rw [← hname] at hn
    exact Function.update_of_ne hn ..
  refine ⟨by simp [Fleet.Has, hc], ⟨fun n => ?_, fun n c' hc' => ?_⟩, fun x y => ?_⟩
  · by_cases hn : n = name
    · simp [Fleet.Has, hn, hself, hc]
    · simp [Fleet.Has, hother n hn]
  · by_cases hn : n = name
    · rw [hn, hself, Option.some_inj] at hc'
      rw [← hc']
      exact ⟨c, hn ▸ hc, stateOf_congr rfl rfl (by simp [hst])⟩
    · rw [hother n hn] at hc'
      exact ⟨c', hc', rfl⟩
  · by_cases hx : x = name
    · rw [if_pos hx, hx, Fleet.peers_of_cluster hself]
      simp [meshOf]
    · rw [if_neg hx, Fleet.peers, hother x hx, ← Fleet.peers]

/-- The cluster `name` no longer lists `peer`. -/
lemma forgetPeer_recorded {name peer : String} (h : forgetPeer op f name peer = .ok f') :
    SameClusters op f f' ∧
      ∀ x y, y ∈ f'.peers x ↔ y ∈ f.peers x ∧ ¬ (x = name ∧ y = peer) := by
  rw [forgetPeer, Checked.bind_eq_ok] at h
  obtain ⟨c, hload, h⟩ := h
  have hrec := recordPeers_recorded h
  refine ⟨hrec.same, fun x y => ?_⟩
  rw [hrec.peers]
  by_cases hx : x = name
  · simp [hx, Fleet.peers_of_cluster (Operator.loadCluster_eq_ok hload)]
  · simp [hx]

/-- The two clusters no longer list each other. -/
structure Unlinked (op : Operator) (f f' : Fleet) (a b : String) : Prop where
  same : SameClusters op f f'
  peers : ∀ x y, y ∈ f'.peers x ↔
    y ∈ f.peers x ∧ ¬ (x = a ∧ y = b) ∧ ¬ (x = b ∧ y = a)

lemma peerOf_loadCluster_none {name : String} (h : peerOf (op.loadCluster f name) = .ok none) :
    ¬ f.Has name := by
  cases hc : f.cluster name with
  | none => simp [Fleet.Has, hc]
  | some c =>
      rw [Operator.loadCluster, hc] at h
      by_cases hm : c.multiHost = true ∧ op.managedFrom c ≠ none
      · simp [Checked.ofOption, Checked.refuseIf, hm, bind, Except.bind, peerOf] at h
      · simp [Checked.ofOption, Checked.refuseIf, hm, bind, Except.bind, pure, Except.pure,
          peerOf] at h

lemma peerOf_loadCluster_some {name : String} {c : Cluster}
    (h : peerOf (op.loadCluster f name) = .ok (some c)) : f.cluster name = some c := by
  cases hl : op.loadCluster f name with
  | ok c' =>
      rw [hl, peerOf, Except.ok.injEq, Option.some_inj] at h
      rw [← h]
      exact Operator.loadCluster_eq_ok hl
  | error e =>
      rw [hl] at h
      cases e <;> simp [peerOf] at h

/-! ### Disconnect -/

/-- Both records lose the edge; a peer that is gone has none to lose. -/
lemma disconnect_unlinked {a b : String} {peer : Option Cluster} (hne : a ≠ b)
    (hgone : peer = none → ¬ f.Has b) (hpeer : ∀ pc, peer = some pc → f.cluster b = some pc)
    (h : disconnect op f a peer b = .ok f') : Unlinked op f f' a b := by
  cases peer with
  | none =>
      obtain ⟨hsame, hpeers⟩ := forgetPeer_recorded h
      refine ⟨hsame, fun x y => ?_⟩
      have hnone : y ∈ f.peers x → ¬ (x = b ∧ y = a) := by
        rintro hy ⟨rfl, -⟩
        exact hgone rfl (Fleet.has_of_mem_peers hy)
      rw [hpeers]
      tauto
  | some pc =>
      rw [disconnect, Checked.bind_eq_ok] at h
      obtain ⟨f₁, h₁, h₂⟩ := h
      obtain ⟨hsame, hpeers⟩ := forgetPeer_recorded h₁
      have hrec := recordPeers_recorded h₂
      refine ⟨hsame.trans hrec.same, fun x y => ?_⟩
      rw [hrec.peers]
      by_cases hx : x = b
      · rw [if_pos hx, hx, Fleet.peers_of_cluster (hpeer pc rfl), List.mem_filter]
        simp [hne.symm]
      · rw [if_neg hx, hpeers]
        simp [hx]

lemma peerOf_clusterContext {name : String} {r : Option Cluster}
    (h : peerOf (op.clusterContext f name) = .ok r) : peerOf (op.loadCluster f name) = .ok r := by
  rw [Operator.clusterContext] at h
  cases hv : Operator.validateName name with
  | ok u => rwa [hv] at h
  | error e =>
      obtain ⟨-, rfl⟩ := Checked.refuseIf_eq_error.mp hv
      simp [hv, bind, Except.bind, peerOf] at h

/-- **Disconnect** takes one edge away. -/
theorem cmdDisconnect_unlinked {a b : String} (h : cmdDisconnect op f a b = .ok f') :
    Unlinked op f f' a b := by
  simp only [cmdDisconnect, Checked.bind_eq_ok, Checked.refuseIf_eq_ok] at h
  obtain ⟨-, -, -, -, -, hne, c, -, peer, hpeer, -, -, h⟩ := h
  have hload := peerOf_clusterContext hpeer
  exact disconnect_unlinked hne (fun hp => peerOf_loadCluster_none (hp ▸ hload))
    (fun pc hp => peerOf_loadCluster_some (hp ▸ hload)) h

/-! ### Delete -/

/-- Every recorded peer that there is runs. -/
def PeersRunning (op : Operator) (f : Fleet) (name : String) : Prop :=
  ∀ p ∈ f.peers name, ∀ c, f.cluster p = some c → op.stateOf c = .running

lemma leavePeer_unlinked {running : Bool} {name peer : String} (hne : name ≠ peer)
    (hrun : ∀ c, f.cluster peer = some c → op.stateOf c = .running)
    (h : leavePeer op running name f peer = .ok f') : Unlinked op f f' name peer := by
  rw [leavePeer, Checked.bind_eq_ok] at h
  obtain ⟨pc, hpc, h⟩ := h
  cases pc with
  | none =>
      have hdis : disconnect op f name none peer = .ok f' := h
      exact disconnect_unlinked hne (fun _ => peerOf_loadCluster_none hpc)
        (fun pc hp => by simp at hp) hdis
  | some pc =>
      have hc := peerOf_loadCluster_some hpc
      rw [Option.filter_some, if_pos (by simpa using hrun pc hc)] at h
      by_cases hr : running = true
      · simp only [if_pos hr] at h
        exact disconnect_unlinked hne (fun hp => by simp at hp)
          (fun pc' hp => by rw [hc, hp]) h
      · simp only [if_neg hr, Checked.bind_eq_ok] at h
        obtain ⟨f₁, h₁, h₂⟩ := h
        obtain ⟨hsame₁, hpeers₁⟩ := forgetPeer_recorded h₁
        obtain ⟨hsame₂, hpeers₂⟩ := forgetPeer_recorded h₂
        refine ⟨hsame₁.trans hsame₂, fun x y => ?_⟩
        rw [hpeers₂, hpeers₁, and_assoc, and_comm (a := ¬ (x = peer ∧ y = name))]

lemma foldlM_leavePeer {running : Bool} {name : String} {l : List String} (hne : name ∉ l)
    (hrun : ∀ p ∈ l, ∀ c, f.cluster p = some c → op.stateOf c = .running)
    (h : l.foldlM (leavePeer op running name) f = .ok f') :
    SameClusters op f f' ∧ ∀ x y, y ∈ f'.peers x ↔
      y ∈ f.peers x ∧ ¬ (x = name ∧ y ∈ l) ∧ ¬ (x ∈ l ∧ y = name) := by
  induction l generalizing f with
  | nil =>
      rw [List.foldlM_nil, Checked.pure_eq_ok] at h
      exact ⟨h ▸ SameClusters.refl, by simp [h]⟩
  | cons p rest ih =>
      rw [List.foldlM_cons, Checked.bind_eq_ok] at h
      obtain ⟨f₁, h₁, h₂⟩ := h
      have hp : name ≠ p := fun he => hne (by simp [he])
      obtain ⟨hsame, hpeers⟩ := leavePeer_unlinked hp (hrun p (by simp)) h₁
      have hrun₁ : ∀ q ∈ rest, ∀ c, f₁.cluster q = some c → op.stateOf c = .running := by
        intro q hq c hc
        obtain ⟨c₀, hc₀, hs⟩ := hsame.state q c hc
        rw [hs]
        exact hrun q (List.mem_cons_of_mem p hq) c₀ hc₀
      obtain ⟨hsame', hpeers'⟩ := ih (fun hm => hne (List.mem_cons_of_mem p hm)) hrun₁ h₂
      refine ⟨hsame.trans hsame', fun x y => ?_⟩
      rw [hpeers', hpeers]
      simp only [List.mem_cons]
      tauto

/-- **Delete** takes the cluster away, with every edge to it that its own record shows. -/
theorem cmdDeleteCluster_peers {name : String} (hself : name ∉ f.peers name)
    (hrun : PeersRunning op f name) (h : cmdDeleteCluster op f name = .ok f') :
    (∀ n, f'.Has n ↔ n ≠ name ∧ f.Has n) ∧ ∀ x y, y ∈ f'.peers x ↔
      x ≠ name ∧ y ∈ f.peers x ∧ ¬ (x ∈ f.peers name ∧ y = name) := by
  simp only [cmdDeleteCluster, Checked.bind_eq_ok] at h
  obtain ⟨-, -, found, hfound, h⟩ := h
  cases found with
  | none =>
      have hnone := Fleet.peers_of_not_has (peerOf_loadCluster_none hfound)
      rw [Checked.pure_eq_ok] at h
      rw [← h]
      exact ⟨fun n => Fleet.has_remove, fun x y => by simp [Fleet.mem_peers_remove, hnone]⟩
  | some c =>
      have hc := peerOf_loadCluster_some hfound
      simp only [Checked.bind_eq_ok, Checked.pure_eq_ok] at h
      obtain ⟨f₁, h₁, rfl⟩ := h
      rw [meshRun, ← Fleet.peers_of_cluster hc, f.named hc] at h₁
      obtain ⟨hsame, hpeers⟩ := foldlM_leavePeer hself hrun h₁
      refine ⟨fun n => by rw [Fleet.has_remove, hsame.has], fun x y => ?_⟩
      rw [Fleet.mem_peers_remove, hpeers]
      tauto

/-! ### Connect -/

lemma recordMesh_peers {names l : List String} (h : recordMesh op names f l = .ok f') :
    SameClusters op f f' ∧ ∀ x y, y ∈ f'.peers x ↔
      if x ∈ l then y ∈ names ∧ y ≠ x else y ∈ f.peers x := by
  induction l generalizing f with
  | nil =>
      rw [recordMesh, List.foldlM_nil, Checked.pure_eq_ok] at h
      exact ⟨h ▸ SameClusters.refl, by simp [h]⟩
  | cons n rest ih =>
      rw [recordMesh, List.foldlM_cons, Checked.bind_eq_ok] at h
      obtain ⟨f₁, h₁, h₂⟩ := h
      have hrec := recordPeers_recorded h₁
      obtain ⟨hsame, hpeers⟩ := ih h₂
      refine ⟨hrec.same.trans hsame, fun x y => ?_⟩
      rw [hpeers, hrec.peers]
      by_cases hx : x ∈ rest
      · simp [hx]
      · by_cases hxn : x = n
        · simp [hxn]
        · simp [hx, hxn]

/-- **Connect** makes every cluster it works on list all the others, and nothing else. -/
theorem cmdConnect_peers {names : List String} (h : cmdConnect op f names = .ok f') :
    (∀ n, f'.Has n ↔ f.Has n) ∧ (∀ x, Reached f names x → f.Has x) ∧
      ∀ x y, (Reached f names x → (y ∈ f'.peers x ↔ Reached f names y ∧ y ≠ x)) ∧
        (¬ Reached f names x → (y ∈ f'.peers x ↔ y ∈ f.peers x)) := by
  simp only [cmdConnect, connect, Checked.bind_eq_ok] at h
  obtain ⟨-, -, -, -, l, hl, cs, hcs, -, -, h⟩ := h
  have hmem := mem_members hl
  obtain ⟨hsame, hpeers⟩ := recordMesh_peers h
  refine ⟨hsame.has, fun x hx => ?_, fun x y => ⟨fun hx => ?_, fun hx => ?_⟩⟩
  · obtain ⟨c, hc⟩ := Checked.exists_of_mapM hcs ((hmem x).mpr hx)
    simp [Fleet.Has, Operator.clusterContext_eq_ok hc]
  · rw [hpeers, if_pos ((hmem x).mpr hx), hmem]
  · rw [hpeers, if_neg fun hc => hx ((hmem x).mp hc)]

/-! ### Runs -/

/-- The three verbs that write mesh records. -/
inductive MeshVerb where
  | connect (names : List String)
  | disconnect (a b : String)
  | delete (name : String)
deriving DecidableEq

/-- What a verb does to the clusters. -/
def MeshVerb.run (op : Operator) (f : Fleet) : MeshVerb → Except Raised Fleet
  | connect names => cmdConnect op f names
  | disconnect a b => cmdDisconnect op f a b
  | delete name => cmdDeleteCluster op f name

/-- A verb that succeeds, with the peers of a deleted cluster running. -/
def MeshStep (t : Trace.Transition Fleet MeshVerb) : Prop :=
  ∃ op : Operator, t.label.run op t.source = .ok t.target ∧
    ∀ name, t.label = .delete name → PeersRunning op t.source name

/-- The records are a graph: symmetric, and no cluster lists itself. -/
structure Fleet.Consistent (f : Fleet) : Prop where
  symm : ∀ a b, f.Has a → f.Has b → (b ∈ f.peers a ↔ a ∈ f.peers b)
  irrefl : ∀ a, a ∉ f.peers a

/-- The records are a graph afterwards, and a connect takes no peer away. -/
structure MeshGood (t : Trace.Transition Fleet MeshVerb) : Prop where
  consistent : t.target.Consistent
  adds : ∀ names, t.label = .connect names → ∀ x, ∀ y ∈ t.source.peers x, y ∈ t.target.peers x

/-- The clusters a connect works on are closed under recorded peers. -/
def MeshClosed (t : Trace.Transition Fleet MeshVerb) : Prop :=
  ∀ names, t.label = .connect names →
    ∀ x, Reached t.source names x → ∀ y ∈ t.source.peers x, Reached t.source names y

lemma Unlinked.consistent {a b : String} (h : Unlinked op f f' a b) (hf : f.Consistent) :
    f'.Consistent where
  symm x y hx hy := by
    rw [h.peers, h.peers, hf.symm x y ((h.same.has x).mp hx) ((h.same.has y).mp hy)]
    tauto
  irrefl x hx := hf.irrefl x ((h.peers x x).mp hx).1

lemma delete_consistent {name : String} (hf : f.Consistent) (hrun : PeersRunning op f name)
    (h : cmdDeleteCluster op f name = .ok f') : f'.Consistent := by
  obtain ⟨hhas, hpeers⟩ := cmdDeleteCluster_peers (hf.irrefl name) hrun h
  refine ⟨fun a b ha hb => ?_, fun a ha => hf.irrefl a ((hpeers a a).mp ha).2.1⟩
  obtain ⟨hane, ha⟩ := (hhas a).mp ha
  obtain ⟨hbne, hb⟩ := (hhas b).mp hb
  rw [hpeers, hpeers, hf.symm a b ha hb]
  tauto

lemma connect_good_iff {names : List String} (hf : f.Consistent)
    (h : cmdConnect op f names = .ok f') :
    (f'.Consistent ∧ ∀ x, ∀ y ∈ f.peers x, y ∈ f'.peers x) ↔
      ∀ x, Reached f names x → ∀ y ∈ f.peers x, Reached f names y := by
  obtain ⟨hhas, hreached, hpeers⟩ := cmdConnect_peers h
  constructor
  · rintro ⟨-, hadds⟩ x hx y hy
    exact (((hpeers x y).1 hx).mp (hadds x y hy)).1
  · intro hclosed
    refine ⟨⟨fun a b ha hb => ?_, fun a ha => ?_⟩, fun x y hy => ?_⟩
    · have hsymm := hf.symm a b ((hhas a).mp ha) ((hhas b).mp hb)
      by_cases hra : Reached f names a
      · by_cases hrb : Reached f names b
        · rw [(hpeers a b).1 hra, (hpeers b a).1 hrb]
          simp [hra, hrb, eq_comm]
        · -- an edge out of the reached set would lead to a reached cluster
          have hb' : a ∉ f.peers b := fun hm => hrb (hclosed a hra b (hsymm.mpr hm))
          rw [(hpeers a b).1 hra, (hpeers b a).2 hrb]
          simp [hrb, hb']
      · by_cases hrb : Reached f names b
        · have ha' : b ∉ f.peers a := fun hm => hra (hclosed b hrb a (hsymm.mp hm))
          rw [(hpeers a b).2 hra, (hpeers b a).1 hrb]
          simp [hra, ha']
        · rw [(hpeers a b).2 hra, (hpeers b a).2 hrb]
          exact hsymm
    · by_cases hra : Reached f names a
      · exact (((hpeers a a).1 hra).mp ha).2 rfl
      · exact hf.irrefl a (((hpeers a a).2 hra).mp ha)
    · by_cases hrx : Reached f names x
      · refine ((hpeers x y).1 hrx).mpr ⟨hclosed x hrx y hy, fun he => hf.irrefl x ?_⟩
        rwa [he] at hy
      · exact ((hpeers x y).2 hrx).mpr hy

lemma meshGood_iff {t : Trace.Transition Fleet MeshVerb} (ht : MeshStep t)
    (hf : t.source.Consistent) : MeshGood t ↔ MeshClosed t := by
  obtain ⟨op, hrun, hpeers⟩ := ht
  obtain ⟨f, v, f'⟩ := t
  cases v with
  | connect names =>
      have hiff := connect_good_iff hf hrun
      constructor
      · rintro ⟨hc, hadds⟩ names' hv
        obtain rfl := MeshVerb.connect.inj hv
        exact hiff.mp ⟨hc, hadds names rfl⟩
      · intro hclosed
        obtain ⟨hc, hadds⟩ := hiff.mpr (hclosed names rfl)
        exact ⟨hc, fun _ _ => hadds⟩
  | disconnect a b =>
      refine ⟨fun _ _ hv => by simp at hv, fun _ => ⟨?_, fun _ hv => by simp at hv⟩⟩
      exact (cmdDisconnect_unlinked hrun).consistent hf
  | delete name =>
      refine ⟨fun _ _ hv => by simp at hv, fun _ => ⟨?_, fun _ hv => by simp at hv⟩⟩
      exact delete_consistent hf (hpeers name rfl) hrun

/-- **The records stay a graph, and connects only add peers, exactly when every connect of the run
works on a set closed under recorded peers.** -/
theorem mesh_consistent_iff {f₀ : Fleet} {ts : List (Trace.Transition Fleet MeshVerb)}
    (run : Trace.Run MeshStep f₀ ts f) (h₀ : f₀.Consistent) :
    (∀ t ∈ ts, MeshGood t) ↔ ∀ t ∈ ts, MeshClosed t :=
  run.good_iff_safe h₀ (fun _ ht hs hf => ((meshGood_iff ht hf).mpr hs).consistent)
    fun _ ht hf => meshGood_iff ht hf

/-! ### A chain of three clusters -/

/-- A single-host cluster that can be connected. -/
def meshable (name : ClusterName) (id : ℕ) : Cluster where
  metadata := ⟨name⟩
  spec :=
    { loneCluster.spec with
      network := { loneCluster.spec.network with mesh := some ⟨0xAC1600DC, by decide⟩ } }
  status := some { phase := .ready, tk8s := "dev", clusterId := some id, cilium := some "1.20.4" }

/-- Four clusters just created. -/
def fourClusters : Fleet :=
  (((Fleet.empty.save (meshable ⟨"a", by decide⟩ 1)).save (meshable ⟨"b", by decide⟩ 2)).save
    (meshable ⟨"c", by decide⟩ 3)).save (meshable ⟨"d", by decide⟩ 4)

/-- A machine on which every cluster runs. -/
def busyOperator : Operator where
  clustersDir := "/srv/tk8s/clusters"
  hostname := "operator"
  targetUp _ _ := some true

lemma peers_save {c : Cluster} {n : String} :
    (f.save c).peers n = if n = c.name then meshOf c else f.peers n := by
  by_cases hn : n = c.name
  · simp [Fleet.peers, Fleet.save, hn]
  · simp [Fleet.peers, Fleet.save, hn]

lemma peers_fourClusters (n : String) : fourClusters.peers n = [] := by
  have hempty : Fleet.empty.peers n = [] := rfl
  simp [fourClusters, peers_save, hempty, meshable, meshOf]

lemma consistent_fourClusters : fourClusters.Consistent where
  symm a b _ _ := by simp [peers_fourClusters]
  irrefl a := by simp [peers_fourClusters]

/-- `a`, `b` and `c` connected, `a` and `b` disconnected, then `d` connected to `a`. -/
def chainRun (op : Operator) : Except Raised (Fleet × Fleet × Fleet) := do
  let f₁ ← cmdConnect op fourClusters ["a", "b", "c"]
  let f₂ ← cmdDisconnect op f₁ "a" "b"
  let f₃ ← cmdConnect op f₂ ["a", "d"]
  return (f₁, f₂, f₃)

lemma chainRun_peers : (do
    let (_, f₂, f₃) ← chainRun busyOperator
    return "b" ∈ f₂.peers "c" ∧ "b" ∉ f₃.peers "c" : Except Raised Bool) = .ok true := by
  simp only [chainRun, cmdConnect, members, membersLoop_eq_rootsLoop]
  decide

lemma exists_chain : ∃ f₁ f₂ f₃ : Fleet,
    MeshStep ⟨fourClusters, .connect ["a", "b", "c"], f₁⟩ ∧ MeshStep ⟨f₁, .disconnect "a" "b", f₂⟩ ∧
    MeshStep ⟨f₂, .connect ["a", "d"], f₃⟩ ∧ "b" ∈ f₂.peers "c" ∧ "b" ∉ f₃.peers "c" := by
  have h := chainRun_peers
  simp only [chainRun, Checked.bind_eq_ok, Checked.pure_eq_ok] at h
  obtain ⟨p, ⟨f₁, h₁, f₂, h₂, f₃, h₃, rfl⟩, hpeers⟩ := h
  obtain ⟨hb, hb'⟩ := of_decide_eq_true hpeers
  exact ⟨f₁, f₂, f₃, ⟨busyOperator, h₁, fun _ hv => by simp at hv⟩,
    ⟨busyOperator, h₂, fun _ hv => by simp at hv⟩, ⟨busyOperator, h₃, fun _ hv => by simp at hv⟩,
    hb, hb'⟩

/-- As long as nobody connects to a part of the chain, the records stay a graph. -/
theorem mesh_consistent_triangle : ∃ ts f, Trace.Run MeshStep fourClusters ts f ∧
    ts.map (·.label) = [.connect ["a", "b", "c"], .disconnect "a" "b"] ∧ ∀ t ∈ ts, MeshGood t := by
  obtain ⟨f₁, f₂, -, h₁, h₂, -⟩ := exists_chain
  have run := (Trace.Run.nil.snoc h₁).snoc h₂
  refine ⟨_, f₂, run, rfl, (mesh_consistent_iff run consistent_fourClusters).mpr ?_⟩
  intro t ht names hv x hx y hy
  cases List.mem_append.mp ht with
  | inl ht =>
      obtain rfl := List.mem_singleton.mp ht
      rw [peers_fourClusters] at hy
      simp at hy
  | inr ht =>
      obtain rfl := List.mem_singleton.mp ht
      simp at hv

/-- `c` was connected to `b`, and is a direct peer of `a` only: `b` is lost from its record, and
still lists it. -/
theorem not_mesh_consistent_chain : ∃ ts f, Trace.Run MeshStep fourClusters ts f ∧
    ts.map (·.label) = [.connect ["a", "b", "c"], .disconnect "a" "b", .connect ["a", "d"]] ∧
    ¬ ∀ t ∈ ts, MeshGood t := by
  obtain ⟨f₁, f₂, f₃, h₁, h₂, h₃, hb, hb'⟩ := exists_chain
  refine ⟨_, f₃, ((Trace.Run.nil.snoc h₁).snoc h₂).snoc h₃, rfl, fun hgood => hb' ?_⟩
  exact (hgood ⟨f₂, .connect ["a", "d"], f₃⟩ (by simp)).adds _ rfl "c" "b" hb

end Tk8s
