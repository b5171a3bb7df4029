import Mathlib.Data.List.Sort
import Tk8s.Model

/-!
`mesh/ops.py`, `mesh/checks.py`, the mesh phase of `delete.py` and their verbs: Cluster Mesh records.

* `Fleet`: the clusters of one operator, each under its name.
* `members`: the clusters a connect works on, a loop over a work list.
* `cmdConnect`, `cmdDisconnect`, `cmdDeleteCluster`: the verbs, with the cilium and kubectl commands
  taken to succeed.
* `membersLoop_eq_rootsLoop`: **the work list never grows**: what the loop pushes it has already
  found, so no peer of a peer is looked at.
* `mem_members`: **what the loop finds**: the named clusters that are no recorded peer of an earlier
  one, and the direct peers of these.
-/

namespace Tk8s

/-! ### The clusters of an operator -/

/-- The `cluster.yaml` files of one operator, each in the directory of its own name. -/
@[ext] structure Fleet where
  cluster : String → Option Cluster
  named : ∀ {n c}, cluster n = some c → c.name = n

/-- `status.mesh`, empty without a status. -/
def meshOf (c : Cluster) : List String := (c.status.map (·.mesh)).getD []

namespace Fleet

/-- No cluster at all. -/
def empty : Fleet := ⟨fun _ => none, fun h => by simp at h⟩

/-- `Context.save_cluster`. -/
def save (f : Fleet) (c : Cluster) : Fleet where
  cluster := Function.update f.cluster c.name (some c)
  named := by
    intro n c' h
    by_cases hn : n = c.name
    · rw [hn, Function.update_self] at h
      rw [hn, ← Option.some_inj.mp h]
    · rw [Function.update_of_ne hn] at h
      exact f.named h

/-- The state directory is gone. -/
def remove (f : Fleet) (name : String) : Fleet where
  cluster := Function.update f.cluster name none
  named := by
    intro n c' h
    by_cases hn : n = name
    · rw [hn, Function.update_self] at h
      simp at h
    · rw [Function.update_of_ne hn] at h
      exact f.named h

/-- There is a cluster of this name. -/
def Has (f : Fleet) (name : String) : Prop := (f.cluster name).isSome = true

/-- The recorded peers of a cluster. -/
def peers (f : Fleet) (name : String) : List String := ((f.cluster name).map meshOf).getD []

lemma peers_of_not_has {f : Fleet} {n : String} (h : ¬ f.Has n) : f.peers n = [] := by
  cases hc : f.cluster n with
  | none => simp [peers, hc]
  | some c => simp [Has, hc] at h

lemma peers_of_cluster {f : Fleet} {n : String} {c : Cluster} (h : f.cluster n = some c) :
    f.peers n = meshOf c := by
  simp [peers, h]

lemma has_of_mem_peers {f : Fleet} {n x : String} (h : x ∈ f.peers n) : f.Has n := by
  by_contra hn
  simp [peers_of_not_has hn] at h

@[simp] lemma has_remove {f : Fleet} {a n : String} : (f.remove a).Has n ↔ n ≠ a ∧ f.Has n := by
  by_cases hn : n = a
  · simp [Has, remove, hn]
  · simp [Has, remove, hn]

lemma mem_peers_remove {f : Fleet} {a n x : String} :
    x ∈ (f.remove a).peers n ↔ n ≠ a ∧ x ∈ f.peers n := by
  by_cases hn : n = a
  · simp [peers, remove, hn]
  · simp [peers, remove, hn]

end Fleet

/-! ### Loading a cluster -/

/-- The machine tkctl runs on, with what the hosts of a cluster (by name) answer when asked for its target. -/
structure Operator where
  clustersDir : String
  hostname : String
  targetUp : String → String → Option Bool

namespace Cluster

/-- `Context.node_hosts`: the hosts nodes run on, one without a name for a single-host cluster. -/
def nodeHosts (c : Cluster) : List String := if c.multiHost then c.hostNames else [""]

end Cluster

/-- What `lifecycle.state_of` answers. -/
inductive ClusterState where
  | creating
  | running
  | stopped
  | degraded
deriving DecidableEq, Repr

namespace Operator

/-- `lifecycle.managed_from`. -/
def managedFrom (op : Operator) (c : Cluster) : Option String :=
  (c.status.bind (·.operator)).filter (· ≠ op.hostname)

/-- `lifecycle.state_of`. -/
def stateOf (op : Operator) (c : Cluster) : ClusterState :=
  if c.status.map (·.phase) ≠ some .ready then .creating
  else
    let up := c.nodeHosts.map (op.targetUp c.name)
    if up.all (· = some true) then .running
    else if c.multiHost && up.any (· = some true) then .degraded
    else .stopped

/-- `lifecycle.load_cluster`. -/
def loadCluster (op : Operator) (f : Fleet) (name : String) : Except Raised Cluster := do
  let c ← Checked.ofOption
    (.clusterNotFound s!"cluster {name} not found under {op.clustersDir} (tkctl get clusters)")
    (f.cluster name)
  let manager := (op.managedFrom c).getD ""
  Checked.refuseIf (c.multiHost = true ∧ op.managedFrom c ≠ none)
    (.clusterError s!"cluster {name} is managed from {manager}; run tkctl there")
  return c

/-- `args.validate_name`. -/
def validateName (name : String) : Except Raised Unit :=
  Checked.refuseIf (clusterNamePattern name = false)
    (.usageError (s!"invalid cluster name '{name}': use lowercase letters, digits and '-', "
      ++ "start with a letter, max 16 characters"))

/-- `verbs.cluster_context`. -/
def clusterContext (op : Operator) (f : Fleet) (name : String) : Except Raised Cluster := do
  validateName name
  op.loadCluster f name

lemma loadCluster_eq_ok {op : Operator} {f : Fleet} {name : String} {c : Cluster}
    (h : op.loadCluster f name = .ok c) : f.cluster name = some c := by
  simp only [loadCluster, Checked.bind_eq_ok, Checked.ofOption_eq_ok, Checked.pure_eq_ok] at h
  obtain ⟨c', hc', -, -, rfl⟩ := h
  exact hc'

lemma clusterContext_eq_ok {op : Operator} {f : Fleet} {name : String} {c : Cluster}
    (h : op.clusterContext f name = .ok c) : f.cluster name = some c := by
  rw [clusterContext, Checked.check_bind_eq_ok] at h
  exact loadCluster_eq_ok h.2

end Operator

/-! ### Who takes part in a connect -/

variable {op : Operator} {f f' : Fleet}

/-- A recorded peer that cannot be loaded is refused. -/
def checkPeer (op : Operator) (f : Fleet) (name peer : String) : Except Raised Unit :=
  match op.clusterContext f peer with
  | .ok _ => .ok ()
  | .error (.clusterNotFound _) =>
      .error (.meshError (s!"cluster {peer} (a peer of {name}) not found; disconnect it first: "
        ++ s!"tkctl disconnect cluster {name} {peer}"))
  | .error e => .error e

/-- The loop over the peers of one cluster: what is found with them, and those to put at the end of
the work list. -/
def addPeers (op : Operator) (f : Fleet) (name : String) (found : List String) :
    List String → Except Raised (List String × List String)
  | [] => .ok (found, [])
  | peer :: rest =>
      if peer ∈ found then addPeers op f name found rest
      else do
        checkPeer op f name peer
        let (found, todo) ← addPeers op f name (found ++ [peer]) rest
        return (found, peer :: todo)

lemma addPeers_eq_ok {name : String} {found peers found' todo : List String}
    (h : addPeers op f name found peers = .ok (found', todo)) :
    (∀ x, x ∈ found' ↔ x ∈ found ∨ x ∈ peers) ∧ ∀ x ∈ todo, x ∈ found' := by
  induction peers generalizing found found' todo with
  | nil =>
      obtain ⟨rfl, rfl⟩ := Prod.mk.inj (Except.ok.inj h)
      simp
  | cons p rest ih =>
      rw [addPeers] at h
      by_cases hp : p ∈ found
      · rw [if_pos hp] at h
        obtain ⟨hmem, htodo⟩ := ih h
        refine ⟨fun x => ?_, htodo⟩
        rw [hmem, List.mem_cons]
        by_cases hx : x = p
        · simp [hx, hp]
        · simp [hx]
      · simp only [if_neg hp, Checked.bind_eq_ok, Checked.pure_eq_ok, Prod.mk.injEq] at h
        obtain ⟨-, -, ⟨found₁, todo₁⟩, h₁, rfl, rfl⟩ := h
        obtain ⟨hmem, htodo⟩ := ih h₁
        refine ⟨fun x => ?_, fun x hx => ?_⟩
        · rw [hmem, List.mem_append, List.mem_singleton, List.mem_cons, or_assoc]
        · cases List.mem_cons.mp hx with
          | inl hx => exact (hmem x).mpr (Or.inl (by simp [hx]))
          | inr hx => exact htodo x hx

/-- The work list: each name is loaded once, and its peers with it. -/
def membersLoop (op : Operator) (f : Fleet) (found : List String) :
    List String → Except Raised (List String)
  | [] => .ok found
  | name :: rest =>
      if name ∈ found then membersLoop op f found rest
      else
        match op.clusterContext f name with
        | .error e => .error e
        | .ok c =>
            match _hadd : addPeers op f name (found ++ [name]) (meshOf c) with
            | .error e => .error e
            | .ok (found', todo) => membersLoop op f found' (rest ++ todo)
termination_by todo => (todo.countP (· ∉ found), todo.length)
decreasing_by
  · rename_i hname
    have hcount : (name :: rest).countP (· ∉ found) = rest.countP (· ∉ found) := by
      simp [hname]
    rw [hcount]
    exact Prod.Lex.right _ (by simp)
  · rename_i hname
    refine Prod.Lex.left _ _ ?_
    obtain ⟨hmem, htodo⟩ := addPeers_eq_ok _hadd
    have hnew : todo.countP (· ∉ found') = 0 := by
      rw [List.countP_eq_zero]
      intro x hx
      simp [htodo x hx]
    have hold : rest.countP (· ∉ found') ≤ rest.countP (· ∉ found) := by
      refine List.countP_mono_left fun x _ hx => ?_
      simp only [decide_eq_true_eq] at hx ⊢
      exact fun hf => hx ((hmem x).mpr (Or.inl (by simp [hf])))
    have hhead : (name :: rest).countP (· ∉ found) = rest.countP (· ∉ found) + 1 := by
      simp [hname]
    rw [List.countP_append, hnew, hhead]
    omega

/-- `sorted`, on names. -/
def sorted (names : List String) : List String := names.insertionSort (· ≤ ·)

@[simp] lemma mem_sorted {names : List String} {x : String} : x ∈ sorted names ↔ x ∈ names :=
  List.mem_insertionSort _

/-- `members`: the clusters a connect works on. -/
def members (op : Operator) (f : Fleet) (names : List String) : Except Raised (List String) :=
  sorted <$> membersLoop op f [] names

/-! ### What the loop finds -/

/-- The loop over the given names alone: nothing is put on the work list. -/
def rootsLoop (op : Operator) (f : Fleet) (found : List String) :
    List String → Except Raised (List String)
  | [] => .ok found
  | name :: rest =>
      if name ∈ found then rootsLoop op f found rest
      else do
        let c ← op.clusterContext f name
        let (found, _) ← addPeers op f name (found ++ [name]) (meshOf c)
        rootsLoop op f found rest

lemma membersLoop_append {found todo extra : List String} (hextra : ∀ x ∈ extra, x ∈ found) :
    membersLoop op f found (todo ++ extra) = rootsLoop op f found todo := by
  induction todo generalizing found extra with
  | nil =>
      rw [List.nil_append, rootsLoop]
      induction extra with
      | nil => rw [membersLoop]
      | cons x extra ih =>
          rw [membersLoop, if_pos (hextra x (by simp))]
          exact ih fun y hy => hextra y (List.mem_cons_of_mem x hy)
  | cons name rest ih =>
      rw [List.cons_append, membersLoop, rootsLoop]
      by_cases hname : name ∈ found
      · rw [if_pos hname, if_pos hname]
        exact ih hextra
      · rw [if_neg hname, if_neg hname]
        cases op.clusterContext f name with
        | error e => rfl
        | ok c =>
            simp only [bind, Except.bind]
            split
            · rename_i e hadd
              rw [hadd]
            · rename_i found' todo hadd
              obtain ⟨hmem, htodo⟩ := addPeers_eq_ok hadd
              rw [hadd, List.append_assoc]
              refine ih fun x hx => ?_
              cases List.mem_append.mp hx with
              | inl hx => exact (hmem x).mpr (Or.inl (by simp [hextra x hx]))
              | inr hx => exact htodo x hx

/-- **The work list never grows**: every name the loop pushes is found already. -/
theorem membersLoop_eq_rootsLoop {names : List String} :
    membersLoop op f [] names = rootsLoop op f [] names := by
  have h : membersLoop op f [] (names ++ []) = rootsLoop op f [] names :=
    membersLoop_append (by simp)
  rwa [List.append_nil] at h

/-- The named clusters that are no recorded peer of an earlier one. -/
def connectRoots (f : Fleet) (found : List String) : List String → List String
  | [] => []
  | name :: rest =>
      if name ∈ found then connectRoots f found rest
      else name :: connectRoots f (found ++ name :: f.peers name) rest

lemma connectRoots_congr {found found' names : List String} (h : ∀ x, x ∈ found ↔ x ∈ found') :
    connectRoots f found names = connectRoots f found' names := by
  induction names generalizing found found' with
  | nil => rfl
  | cons name rest ih =>
      rw [connectRoots, connectRoots]
      by_cases hname : name ∈ found
      · rw [if_pos hname, if_pos ((h name).mp hname), ih h]
      · rw [if_neg hname, if_neg fun hc => hname ((h name).mpr hc)]
        have happend : ∀ x, x ∈ found ++ name :: f.peers name ↔ x ∈ found' ++ name :: f.peers name :=
          fun x => by simp only [List.mem_append, h x]
        rw [ih happend]

/-- A cluster the connect of `names` works on: a root, or a direct peer of one. -/
def Reached (f : Fleet) (names : List String) (x : String) : Prop :=
  ∃ r ∈ connectRoots f [] names, x = r ∨ x ∈ f.peers r

lemma mem_rootsLoop {found names l : List String} (h : rootsLoop op f found names = .ok l)
    (x : String) :
    x ∈ l ↔ x ∈ found ∨ ∃ r ∈ connectRoots f found names, x = r ∨ x ∈ f.peers r := by
  induction names generalizing found with
  | nil =>
      rw [← Except.ok.inj h]
      simp [connectRoots]
  | cons name rest ih =>
      rw [rootsLoop] at h
      rw [connectRoots]
      by_cases hname : name ∈ found
      · rw [if_pos hname] at h ⊢
        exact ih h
      · simp only [if_neg hname, Checked.bind_eq_ok] at h
        obtain ⟨c, hc, ⟨found', todo⟩, hadd, h⟩ := h
        have hpeers := Fleet.peers_of_cluster (Operator.clusterContext_eq_ok hc)
        have hmem : ∀ y, y ∈ found' ↔ y ∈ found ++ name :: f.peers name := by
          intro y
          rw [(addPeers_eq_ok hadd).1, hpeers]
          simp only [List.mem_append, List.mem_cons, List.not_mem_nil, or_false, or_assoc]
        rw [if_neg hname, ih h, connectRoots_congr hmem, hmem, List.mem_append, List.mem_cons]
        simp only [List.exists_mem_cons_iff, or_assoc]

/-- **What the loop finds.** -/
theorem mem_members {names l : List String} (h : members op f names = .ok l) (x : String) :
    x ∈ l ↔ Reached f names x := by
  rw [members, membersLoop_eq_rootsLoop, Checked.map_eq_ok] at h
  obtain ⟨found, hfound, rfl⟩ := h
  rw [mem_sorted, mem_rootsLoop hfound, Reached]
  simp

/-! ### What connect refuses -/

/-- `checks.minor`, on a version of digits and dots. -/
def minor (version : String) : Except Raised (ℕ × ℕ) := do
  let parts := Text.splitOn '.' version
  let int (i : ℕ) : Except Raised ℕ := do
    let part ← Checked.ofOption .indexError parts[i]?
    Checked.refuseIf (Text.isDigits part = false)
      (.valueError s!"invalid literal for int() with base 10: '{part}'")
    return Text.number part
  let major ← int 0
  let minor ← int 1
  return (major, minor)

/-- `checks.can_federate`. -/
def canFederate (c : Cluster) : Bool :=
  match c.status with
  | none => false
  | some st => st.clusterId.isSome && st.cilium.isSome && c.spec.network.mesh.isSome

/-- The first loop of `preflight`: a cluster that is running, has mesh support, and is of the kind
of the first. -/
def preflightOne (op : Operator) (first c : Cluster) : Except Raised Unit := do
  let state := op.stateOf c
  Checked.refuseIf (state = .creating)
    (.meshError s!"cluster {c.name} is not fully created (tkctl create cluster {c.name})")
  Checked.refuseIf (state = .degraded)
    (.meshError s!"cluster {c.name} is degraded, a host is down (tkctl verify cluster {c.name})")
  Checked.refuseIf (state ≠ .running)
    (.meshError s!"cluster {c.name} is not running (tkctl start cluster {c.name})")
  Checked.refuseIf (c.status = none) .assertionError
  Checked.refuseIf (canFederate c = false)
    (.meshError s!"cluster {c.name} was created before mesh support; recreate it to connect")
  let (single, multi) := if c.multiHost then (first, c) else (c, first)
  Checked.refuseIf (c.multiHost ≠ first.multiHost)
    (.meshError (s!"cluster {single.name} is single-host and {multi.name} is multi-host; "
      ++ "only clusters of one kind can be connected"))

/-- The second loop of `preflight`: two clusters with ids of their own, one Cilium minor version
apart at most. -/
def preflightPair (a b : Cluster) : Except Raised Unit := do
  let sa ← Checked.ofOption .assertionError a.status
  let sb ← Checked.ofOption .assertionError b.status
  let id := (sa.clusterId.map toString).getD "None"
  Checked.refuseIf (sa.clusterId = sb.clusterId)
    (.meshError (s!"clusters {a.name} and {b.name} share cluster id {id} "
      ++ s!"(subnet index {a.spec.network.index}); recreate one of them"))
  let x := sa.cilium.getD "None"
  let y := sb.cilium.getD "None"
  let (majorA, minorA) ← minor x
  let (majorB, minorB) ← minor y
  Checked.refuseIf (majorA ≠ majorB ∨ 1 < ((minorA : ℤ) - minorB).natAbs)
    (.meshError (s!"cluster {a.name} runs Cilium {x} and {b.name} {y}; "
      ++ "Cluster Mesh allows one minor version apart"))

/-- Every pair of the list, in order. -/
def preflightPairs : List Cluster → Except Raised Unit
  | [] => .ok ()
  | a :: rest => do
      rest.forM (preflightPair a)
      preflightPairs rest

/-- `checks.preflight`. -/
def preflight (op : Operator) (cs : List Cluster) : Except Raised Unit := do
  let first ← Checked.ofOption .indexError cs.head?
  cs.forM (preflightOne op first)
  preflightPairs cs

/-! ### The records -/

/-- `record_peers`. -/
def recordPeers (op : Operator) (f : Fleet) (name : String) (peers : List String) :
    Except Raised Fleet := do
  let c ← op.loadCluster f name
  let st ← Checked.ofOption .assertionError c.status
  return f.save (c.withStatus { st with mesh := sorted peers })

/-- The recording at the end of `connect`: each cluster lists all the others. -/
def recordMesh (op : Operator) (names : List String) (f : Fleet) (l : List String) :
    Except Raised Fleet :=
  l.foldlM (fun f n => recordPeers op f n (names.filter (· ≠ n))) f

/-- `connect`: the clusters enabled, connected and recorded. -/
def connect (op : Operator) (f : Fleet) (names : List String) : Except Raised Fleet := do
  let cs ← names.mapM (op.clusterContext f)
  preflight op cs
  recordMesh op names f names

/-- `forget_peer`. -/
def forgetPeer (op : Operator) (f : Fleet) (name peer : String) : Except Raised Fleet := do
  let c ← op.loadCluster f name
  recordPeers op f name ((meshOf c).filter (· ≠ peer))

/-- `disconnect`, with the peer when it has a `cluster.yaml`. -/
def disconnect (op : Operator) (f : Fleet) (name : String) (peer : Option Cluster)
    (peerName : String) : Except Raised Fleet :=
  match peer with
  | none => forgetPeer op f name peerName
  | some pc => do
      let f ← forgetPeer op f name peerName
      recordPeers op f peerName ((meshOf pc).filter (· ≠ name))

/-- `peer_context`, and the same in `cmd_disconnect`: a cluster that is not found is none. -/
def peerOf (loaded : Except Raised Cluster) : Except Raised (Option Cluster) :=
  match loaded with
  | .ok c => .ok (some c)
  | .error (.clusterNotFound _) => .ok none
  | .error e => .error e

/-- One round of `mesh_run`: the deleted cluster leaves one peer. -/
def leavePeer (op : Operator) (running : Bool) (name : String) (f : Fleet) (peer : String) :
    Except Raised Fleet := do
  let pc ← peerOf (op.loadCluster f peer)
  match pc.filter fun c => op.stateOf c = .running with
  | none => forgetPeer op f name peer
  | some c =>
      if running then disconnect op f name (some c) peer
      else do
        let f ← forgetPeer op f peer name
        forgetPeer op f name peer

/-- `mesh_run`. -/
def meshRun (op : Operator) (f : Fleet) (c : Cluster) : Except Raised Fleet :=
  (meshOf c).foldlM (leavePeer op (op.stateOf c = .running) c.name) f

/-! ### The verbs -/

/-- `cmd_connect`. -/
def cmdConnect (op : Operator) (f : Fleet) (names : List String) : Except Raised Fleet := do
  Checked.refuseIf (names.length < 2) (.usageError "usage: tkctl connect cluster A B [C...]")
  names.forM fun n => do
    Operator.validateName n
    Checked.refuseIf (1 < names.count n) (.usageError s!"cluster {n} is listed twice")
  let names ← members op f names
  connect op f names

/-- `cmd_disconnect`. -/
def cmdDisconnect (op : Operator) (f : Fleet) (a b : String) : Except Raised Fleet := do
  Operator.validateName a
  Operator.validateName b
  Checked.refuseIf (a = b) (.usageError s!"cluster {a} is listed twice")
  let c ← op.clusterContext f a
  let peer ← peerOf (op.clusterContext f b)
  Checked.refuseIf (b ∉ meshOf c)
    (.usageError s!"clusters {a} and {b} are not connected (tkctl get clusters)")
  disconnect op f a peer b

/-- `cmd_delete_cluster`: the mesh phase, and the state directory at the end. -/
def cmdDeleteCluster (op : Operator) (f : Fleet) (name : String) : Except Raised Fleet := do
  Operator.validateName name
  let found ← peerOf (op.loadCluster f name)
  match found with
  | none => return f.remove name
  | some c =>
      let f ← meshRun op f c
      return f.remove name

end Tk8s
