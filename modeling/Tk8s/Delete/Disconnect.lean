import Tk8s.Delete.Rerun
import Tk8s.Mesh.Records

/-!
`disconnect cluster` and the phase `mesh` of `delete cluster`, stopped and run again.

* `disconnectCluster`: `cmd_disconnect`, from loading both clusters to both records.
* `Parting`: the two commands that take two clusters apart; `Parting.part`: where they do so.
* `leavePeers_untouched`, `leavePeers_left`: **what the rounds of `mesh` do to the records of the
  others**: nothing but that a running peer forgets the cluster.
* `Half`: the first record is written and the second is not.
* `partsAgain_iff`: **a command that was stopped takes the clusters apart when it is run again,
  exactly when it was not stopped between the two records**: a rerun looks at the first record alone.
-/

namespace Tk8s.Delete

variable {r : Replies} {op : Operator} {a b c pc : Cluster} {w w' : World} {peer n : String}
  {running : Bool}

/-! ### The verb -/

/-- What `cmd_disconnect` loads: the cluster, which lists the other, and the other when it is
there. -/
def loadForDisconnect (op : Operator) (f : Fleet) (a b : String) :
    Except Raised (Cluster × Option Cluster) := do
  Operator.validateName a
  Operator.validateName b
  Checked.refuseIf (a = b) (.usageError s!"cluster {a} is listed twice")
  let c ← op.clusterContext f a
  let peer ← peerOf (op.clusterContext f b)
  Checked.refuseIf (b ∉ meshOf c)
    (.usageError s!"clusters {a} and {b} are not connected (tkctl get clusters)")
  return (c, peer)

/-- `cmd_disconnect`. -/
def disconnectCluster (r : Replies) (op : Operator) (a b : String) : Script World :=
  Script.ask fun w =>
    match loadForDisconnect op w.fleet a b with
    | .error _ => Script.fail
    | .ok (c, none) => Script.seq (forgetPeer r c b) (pass r none false)
    | .ok (c, some pc) => disconnect r c pc b

/-- The commands that take two clusters apart. -/
inductive Parting where
  | disconnect
  | delete
deriving DecidableEq

namespace Parting

/-- The whole command. -/
def command (r : Replies) (op : Operator) (a b : String) : Parting → Script World
  | .disconnect => disconnectCluster r op a b
  | .delete => deleteCluster r op a

/-- The part of it that takes clusters apart: of a delete, the phase `mesh`. -/
def part (r : Replies) (op : Operator) (a b : String) : Parting → Script World
  | .disconnect => disconnectCluster r op a b
  | .delete => Script.ask fun w =>
      match loadForDelete op w.fleet a with
      | .error _ => Script.fail
      | .ok c => meshVisit r ⟨a, c⟩ op

end Parting

/-! ### What is written -/

lemma ends_tell {id : MachineId} {check : Bool} {f : World → World}
    (h : (tell r id check f).Ends w w') : w' = w.tick 1 ∨ w' = (f w).tick 1 := by
  rw [tell, Script.ends_ask] at h
  cases hline : r.lineTo w.clock id with
  | down => exact absurd (hline ▸ h) Script.not_ends_fail
  | cut =>
      rw [hline] at h
      obtain ⟨m, -, h⟩ := Script.ends_seq.mp h
      exact absurd h Script.not_ends_fail
  | up =>
      simp only [hline] at h
      by_cases hr : r.refuses w.clock id = true
      · cases check with
        | true => simp [hr] at h
        | false => exact Or.inl (by simpa [hr] using h)
      · exact Or.inr (by simpa [hr] using h)

lemma fleet_of_pass {id : MachineId} {check : Bool} (h : (pass r id check).Ends w w') :
    w'.fleet = w.fleet := by
  rcases ends_tell h with rfl | rfl
  · rfl
  · rfl

lemma fleet_of_saveCluster (h : (saveCluster r c).Ends w w') : w'.fleet = w.fleet.save c := by
  obtain ⟨m, hm, hcopies⟩ := Script.ends_seq.mp h
  obtain rfl := Script.ends_command.mp hm
  have hkeep : Keeps (fun u => u.fleet = w.fleet.save c)
      (Script.each (remoteHosts c) fun id => tell r id true fun u => u.putState id c.name) :=
    Script.Spec.each_keeps fun id _ =>
      spec_tell (fun u hu => ⟨hu, hu⟩) (fun u hu => ⟨hu, hu⟩) fun _ u hu => ⟨hu, hu⟩
  exact hkeep.ends rfl hcopies

lemma fleet_of_forgetPeer (h : (forgetPeer r c peer).Ends w w') :
    w'.fleet = w.fleet.save (withoutPeer c peer) := by
  obtain ⟨m, hm, h⟩ := Script.ends_seq.mp h
  obtain ⟨m', hm', h⟩ := Script.ends_seq.mp h
  rw [fleet_of_saveCluster h, fleet_of_pass hm', fleet_of_pass hm]

/-- **Both records**, the cluster's own first. -/
lemma fleet_of_disconnect (h : (disconnect r c pc peer).Ends w w') :
    w'.fleet = (w.fleet.save (withoutPeer c peer)).save (withoutPeer pc c.name) := by
  obtain ⟨m, hm, h⟩ := Script.ends_seq.mp h
  obtain ⟨m₁, hm₁, h⟩ := Script.ends_seq.mp h
  obtain ⟨m₂, hm₂, h⟩ := Script.ends_seq.mp h
  rw [fleet_of_pass h, fleet_of_saveCluster hm₂, fleet_of_saveCluster hm₁, fleet_of_pass hm]

lemma cluster_save (f : Fleet) : (f.save c).cluster n = if n = c.name then some c else f.cluster n := by
  by_cases hn : n = c.name
  · simp [Fleet.save, hn]
  · simp [Fleet.save, hn]

lemma name_withoutPeer : (withoutPeer c peer).name = c.name := (alike_withoutPeer c peer).name

lemma notMem_peers_withoutPeer {f : Fleet} (h : f.cluster n = some (withoutPeer c peer)) :
    peer ∉ f.peers n := by
  rw [Fleet.peers_of_cluster h, meshOf_withoutPeer]
  simp

/-! ### The rounds of `mesh` -/

/-- What a round comes to: a peer that does not run is forgotten here alone, one that runs forgets
the cluster too. -/
lemma leavePeer_cases (h : (leavePeer r op running c peer).Ends w w') :
    ((∀ pc, w.fleet.cluster peer = some pc → (asking r op w).stateOf pc ≠ .running) ∧
      w'.fleet = w.fleet.save (withoutPeer c peer)) ∨
    ∃ pc, w.fleet.cluster peer = some pc ∧
      (w'.fleet = (w.fleet.save (withoutPeer c peer)).save (withoutPeer pc c.name) ∨
        w'.fleet = (w.fleet.save (withoutPeer pc c.name)).save (withoutPeer c peer)) := by
  rw [leavePeer, Script.ends_ask] at h
  cases hpeer : peerOf (op.loadCluster w.fleet peer) with
  | error e =>
      rw [hpeer] at h
      exact absurd h Script.not_ends_fail
  | ok found =>
      rw [hpeer] at h
      obtain ⟨m, hm, h⟩ := Script.ends_seq.mp h
      obtain rfl := Script.ends_command.mp hm
      have hfound : w.fleet.cluster peer = found := by
        cases found with
        | none => exact not_found_of_peerOf hpeer
        | some pc => exact loaded_of_peerOf hpeer
      cases hup : found.filter fun pc => (asking r op w).stateOf pc = .running with
      | none =>
          rw [hup] at h
          have hfleet := fleet_of_forgetPeer (r := r) (c := c) h
          refine Or.inl ⟨fun pc hpc => ?_, hfleet⟩
          rw [hfound] at hpc
          simpa [hpc] using hup
      | some pc =>
          rw [hup] at h
          refine Or.inr ⟨pc, hfound.trans (Option.filter_eq_some_iff.mp hup).1, ?_⟩
          cases running with
          | true =>
              have hfleet := fleet_of_disconnect (r := r) (c := c) h
              exact Or.inl hfleet
          | false =>
              obtain ⟨m, hm, h⟩ := Script.ends_seq.mp h
              exact Or.inr ((fleet_of_forgetPeer h).trans (by rw [fleet_of_forgetPeer hm]; rfl))

/-- A round changes the two clusters it is about. -/
lemma leavePeer_untouched (h : (leavePeer r op running c peer).Ends w w') (hc : n ≠ c.name)
    (hpeer : n ≠ peer) : w'.fleet.cluster n = w.fleet.cluster n := by
  have hown : ∀ f : Fleet, (f.save (withoutPeer c peer)).cluster n = f.cluster n := fun f => by
    rw [cluster_save, name_withoutPeer, if_neg hc]
  rcases leavePeer_cases h with ⟨-, hf⟩ | ⟨pc, hpc, hf⟩
  · rw [hf, hown]
  · have htheirs : ∀ f : Fleet, (f.save (withoutPeer pc c.name)).cluster n = f.cluster n := fun f => by
      rw [cluster_save, name_withoutPeer, if_neg (w.fleet.named hpc ▸ hpeer)]
    rcases hf with hf | hf
    · rw [hf, htheirs, hown]
    · rw [hf, hown, htheirs]

/-- A peer that runs does not list the cluster after its round. -/
lemma leavePeer_left (h : (leavePeer r op running c peer).Ends w w') (hne : peer ≠ c.name)
    (hpc : w.fleet.cluster peer = some pc) (hrun : (asking r op w).stateOf pc = .running) :
    c.name ∉ w'.fleet.peers peer := by
  rcases leavePeer_cases h with ⟨hdown, -⟩ | ⟨pc', hpc', hf⟩
  · exact absurd hrun (hdown pc hpc)
  · have hname := w.fleet.named hpc'
    have hwritten : w'.fleet.cluster peer = some (withoutPeer pc' c.name) := by
      rcases hf with hf | hf
      · rw [hf, cluster_save, name_withoutPeer, hname, if_pos rfl]
      · rw [hf, cluster_save, name_withoutPeer, if_neg hne, cluster_save, name_withoutPeer, hname,
          if_pos rfl]
    exact notMem_peers_withoutPeer hwritten

/-- **The rounds change the cluster and the peers they are about.** -/
lemma leavePeers_untouched {peers : List String} (h : (leavePeers r op running c peers).Ends w w')
    (hc : n ≠ c.name) (hn : n ∉ peers) : w'.fleet.cluster n = w.fleet.cluster n := by
  induction peers generalizing c w with
  | nil =>
      rw [leavePeers] at h
      split at h
      · rw [Script.ends_skip.mp h]
      · exact absurd h Script.not_ends_fail
  | cons peer rest ih =>
      obtain ⟨m, hm, hrest⟩ := Script.ends_seq.mp h
      have hfirst := leavePeer_untouched hm hc fun he => hn (by simp [he])
      rw [ih hrest (by rwa [name_withoutPeer]) fun hmem => hn (List.mem_cons_of_mem peer hmem), hfirst]

/-! ### The peer runs -/

/-- The target of the cluster is active on every host. -/
def Up (b : Cluster) (w : World) : Prop :=
  ∀ host ∈ b.nodeHosts, ∃ id, machineOf b (some host) = some id ∧
    w.has id (.active (b.name ++ ".target")) = true

/-- The hosts of the cluster answer whenever they are asked. -/
def Listening (r : Replies) (b : Cluster) : Prop :=
  ∀ host ∈ b.nodeHosts, ∀ id, machineOf b (some host) = some id → ∀ n, r.lineTo n id = .up

/-- The same cluster in the same phase, but for its peers. -/
def Twin (b b' : Cluster) : Prop :=
  Alike b b' ∧ b'.status.map (·.phase) = b.status.map (·.phase)

lemma Twin.withoutPeer (h : Twin b c) (peer : String) : Twin b (withoutPeer c peer) := by
  refine ⟨h.1.trans (alike_withoutPeer c peer), ?_⟩
  rw [← h.2, Delete.withoutPeer, withPeers]
  cases hst : c.status with
  | none => rw [hst]
  | some st => simp

lemma stateOf_of_up (hup : Up b w) (hlisten : Listening r b) (hfile : w.fleet.cluster b.name = some c)
    (htwin : Twin b c) (hready : b.status.map (·.phase) = some .ready) :
    (asking r op w).stateOf c = .running := by
  have hname := htwin.1.name
  have hall : c.nodeHosts.map ((asking r op w).targetUp c.name) =
      c.nodeHosts.map fun _ => some true := by
    obtain ⟨⟨st, rfl⟩, -⟩ := htwin
    refine List.map_congr_left fun host hhost => ?_
    obtain ⟨id, hid, hactive⟩ := hup host hhost
    have hid' : machineOf { b with status := st } (some host) = some id := hid
    have hline := hlisten host hhost id hid
    simp only [asking, hname, hfile, hid', hline, hactive, Option.bind_eq_bind, Option.bind_some, if_true]
  rw [Operator.stateOf, if_neg (by rw [htwin.2, hready]; simp), hall]
  simp

/-- What the clusters keep while they are taken apart. -/
structure Kept (op : Operator) (a b : Cluster) (w : World) : Prop where
  peers : Peers op a w
  fileA : OnFile a w
  fileB : ∃ b', w.fleet.cluster b.name = some b' ∧ Twin b b'

/-- A cluster that may be saved while they are. -/
def Good (op : Operator) (a b c : Cluster) : Prop :=
  (Manages op c ∧ (c.name = a.name → meshOf c ⊆ meshOf a)) ∧ (c.name = a.name → Alike a c) ∧
    (c.name = b.name → Twin b c)

lemma saving_kept : Saving op (Kept op a b) (Good op a b) where
  tick w n h := ⟨saving_peers.tick w n h.peers, h.fileA, h.fileB⟩
  putState w id n h := ⟨saving_peers.putState w id n h.peers, h.fileA, h.fileB⟩
  save w c hc h := by
    refine ⟨saving_peers.save w c hc.1 h.peers, ?_, ?_⟩
    · by_cases hname : a.name = c.name
      · exact ⟨c, by simp [cluster_save, hname], hc.2.1 hname.symm⟩
      · obtain ⟨a', ha', halike⟩ := h.fileA
        exact ⟨a', by simpa [cluster_save, hname] using ha', halike⟩
    · by_cases hname : b.name = c.name
      · exact ⟨c, by simp [cluster_save, hname], hc.2.2 hname.symm⟩
      · obtain ⟨b', hb', htwin⟩ := h.fileB
        exact ⟨b', by simpa [cluster_save, hname] using hb', htwin⟩
  withoutPeer c n h := by
    refine ⟨saving_peers.withoutPeer c n h.1, fun hname => ?_, fun hname => ?_⟩
    · exact (h.2.1 (name_withoutPeer ▸ hname)).trans (alike_withoutPeer c n)
    · exact (h.2.2 (name_withoutPeer ▸ hname)).withoutPeer n
  loaded w n pc h hload := by
    have hfile := loaded_of_peerOf hload
    have hname := w.fleet.named hfile
    refine ⟨saving_peers.loaded w n pc h.peers hload, fun ha => ?_, fun hb => ?_⟩
    · obtain ⟨a', ha', halike⟩ := h.fileA
      rw [← ha, hname, hfile] at ha'
      exact Option.some.inj ha' ▸ halike
    · obtain ⟨b', hb', htwin⟩ := h.fileB
      rw [← hb, hname, hfile] at hb'
      exact Option.some.inj hb' ▸ htwin

lemma Kept.good_of_file (h : Kept op a b w) (ha : w.fleet.cluster a.name = some c) : Good op a b c := by
  refine saving_kept.loaded w a.name c h ?_
  rw [peerOf_eq_ok (h.peers.managed a.name (List.mem_cons_self ..)), ha]

lemma Up.tick (h : Up b w) (k : ℕ) : Up b (w.tick k) := by
  intro host hhost
  obtain ⟨id, hid, hactive⟩ := h host hhost
  exact ⟨id, hid, by rwa [World.has_tick]⟩

lemma Up.putState (h : Up b w) (id : MachineId) (n : String) : Up b (w.putState id n) := by
  intro host hhost
  obtain ⟨id', hid, hactive⟩ := h host hhost
  refine ⟨id', hid, ?_⟩
  have hplain : ∀ m, ¬ (id' = none ∧ Item.active (b.name ++ ".target") = .stateDir m) := by simp
  rw [World.has_of_host hplain, decide_eq_true_eq] at hactive ⊢
  by_cases hsame : id' = id
  · subst hsame
    simp [World.putState, hactive]
  · simpa [World.putState, Function.update_of_ne hsame] using hactive

lemma Up.save (h : Up b w) (c : Cluster) : Up b { w with fleet := w.fleet.save c } := by
  intro host hhost
  obtain ⟨id, hid, hactive⟩ := h host hhost
  refine ⟨id, hid, ?_⟩
  have hplain : ∀ m, ¬ (id = none ∧ Item.active (b.name ++ ".target") = .stateDir m) := by simp
  rw [World.has_of_host hplain] at hactive ⊢
  exact hactive

/-- The same, and for a delete the peer stays up. -/
structure Held (cmd : Parting) (op : Operator) (a b : Cluster) (w : World) : Prop where
  kept : Kept op a b w
  up : cmd = .delete → Up b w

lemma saving_held {cmd : Parting} : Saving op (Held cmd op a b) (Good op a b) where
  tick w k h := ⟨saving_kept.tick w k h.kept, fun hcmd => (h.up hcmd).tick k⟩
  putState w id n h := ⟨saving_kept.putState w id n h.kept, fun hcmd => (h.up hcmd).putState id n⟩
  save w c hc h := ⟨saving_kept.save w c hc h.kept, fun hcmd => (h.up hcmd).save c⟩
  withoutPeer := saving_kept.withoutPeer
  loaded w n pc h hload := saving_kept.loaded w n pc h.kept hload

/-- **A running peer does not list the cluster after the rounds**, if it did not before or a round is
about it. -/
lemma leavePeers_left {peers : List String} (h : (leavePeers r op running c peers).Ends w w')
    (hc : Good op a b c) (hname : c.name = a.name) (hne : b.name ≠ a.name)
    (hheld : Held .delete op a b w) (hlisten : Listening r b)
    (hready : b.status.map (·.phase) = some .ready)
    (hb : b.name ∈ peers ∨ a.name ∉ w.fleet.peers b.name) : a.name ∉ w'.fleet.peers b.name := by
  induction peers generalizing c w with
  | nil =>
      rw [leavePeers] at h
      split at h
      · rw [Script.ends_skip.mp h]
        exact hb.resolve_left (by simp)
      · exact absurd h Script.not_ends_fail
  | cons peer rest ih =>
      obtain ⟨m, hm, hrest⟩ := Script.ends_seq.mp h
      refine ih hrest (saving_kept.withoutPeer c peer hc) (name_withoutPeer.trans hname)
        ((keeps_leavePeer saving_held hc).ends hheld hm) ?_
      by_cases hpeer : b.name = peer
      · obtain ⟨b', hb', htwin⟩ := hheld.kept.fileB
        have hrun : (asking r op w).stateOf b' = .running :=
          stateOf_of_up (hheld.up rfl) hlisten hb' htwin hready
        exact Or.inr (hname ▸ hpeer ▸ leavePeer_left hm (by rwa [← hpeer, hname]) (hpeer ▸ hb') hrun)
      · have hsame := leavePeer_untouched hm (hname ▸ hne) hpeer
        refine hb.imp (fun hmem => (List.mem_cons.mp hmem).resolve_left hpeer) fun hnot => ?_
        rwa [Fleet.peers, hsame]

/-! ### Apart, and halfway -/

/-- Neither cluster lists the other. -/
def Parted (a b : Cluster) (w : World) : Prop :=
  b.name ∉ w.fleet.peers a.name ∧ a.name ∉ w.fleet.peers b.name

/-- The cluster's own record is written, and the other's is not. -/
def Half (a b : Cluster) (w : World) : Prop :=
  b.name ∉ w.fleet.peers a.name ∧ a.name ∈ w.fleet.peers b.name

/-- Two clusters connected from this operator, which has connected all the peers of the first. -/
structure Connected (op : Operator) (a b : Cluster) (w : World) : Prop where
  distinct : b.name ≠ a.name
  fileA : w.fleet.cluster a.name = some a
  fileB : w.fleet.cluster b.name = some b
  recorded : b.name ∈ meshOf a ∧ a.name ∈ meshOf b
  managed : ∀ n ∈ a.name :: meshOf a, ∀ c, w.fleet.cluster n = some c → Manages op c

/-- What a delete is asked for: a cluster whose routers are known, and a peer that runs. -/
def Parting.Ready (a b : Cluster) (w : World) : Parting → Prop
  | .disconnect => True
  | .delete => (∃ routers, a.routers = .ok routers) ∧ b.status.map (·.phase) = some .ready ∧ Up b w

/-- Running the command again succeeds unless there is nothing left to do, and whoever succeeds has
taken the clusters apart. -/
structure PartsAgain (cmd : Parting) (op : Operator) (a b : Cluster) (w : World) : Prop where
  succeeds : Parted a b w ∨ ∃ w', (cmd.command obedient op a.name b.name).Ends w w'
  parted : ∀ r w', (cmd = .delete → Listening r b) → (cmd.command r op a.name b.name).Ends w w' →
    Parted a b w'

/-- One run of the command, stopped anywhere in the part that takes the clusters apart. -/
def PartingStep (op : Operator) (cmd : Parting) (a b : String) (t : Trace.Transition World Replies) :
    Prop :=
  (cmd.part t.label op a b).Reaches t.source t.target

/-! ### Disconnect again -/

lemma validateName_cluster : Operator.validateName c.name = .ok () := by
  rw [Operator.validateName, Checked.refuseIf_eq_ok, Bool.not_eq_false]
  exact c.metadata.name.ok

lemma Kept.managedB (h : Kept op a b w) (hb : b.name ∈ meshOf a) :
    ∀ c, w.fleet.cluster b.name = some c → Manages op c :=
  h.peers.managed b.name (List.mem_cons_of_mem _ hb)

lemma eq_ok_of_peerOf {loaded : Except Raised Cluster} (h : peerOf loaded = .ok (some c)) :
    loaded = .ok c := by
  cases loaded with
  | ok c' => simpa [peerOf] using h
  | error e => cases e <;> simp [peerOf] at h

/-- What is loaded once both clusters are there. -/
lemma loadForDisconnect_of_kept (h : Kept op a b w) (hne : b.name ≠ a.name) (hb : b.name ∈ meshOf a) :
    ∃ a' b', w.fleet.cluster a.name = some a' ∧ w.fleet.cluster b.name = some b' ∧
      loadForDisconnect op w.fleet a.name b.name =
        if b.name ∈ meshOf a' then .ok (a', some b')
        else .error (.usageError
          s!"clusters {a.name} and {b.name} are not connected (tkctl get clusters)") := by
  obtain ⟨a', ha', -⟩ := h.fileA
  obtain ⟨b', hb', -⟩ := h.fileB
  have hown : op.clusterContext w.fleet a.name = .ok a' := by
    have hload := peerOf_eq_ok (h.peers.managed a.name (List.mem_cons_self ..))
    rw [ha'] at hload
    rw [Operator.clusterContext, validateName_cluster, Checked.ok_bind]
    exact eq_ok_of_peerOf hload
  have hpeer : peerOf (op.clusterContext w.fleet b.name) = .ok (some b') := by
    rw [Operator.clusterContext, validateName_cluster, Checked.ok_bind,
      peerOf_eq_ok (h.managedB hb), hb']
  refine ⟨a', b', ha', hb', ?_⟩
  rw [loadForDisconnect, validateName_cluster, validateName_cluster, Checked.ok_bind, Checked.ok_bind,
    Checked.refuseIf, if_neg (Ne.symm hne), Checked.ok_bind, hown, Checked.ok_bind, hpeer,
    Checked.ok_bind, Checked.refuseIf]
  by_cases hmem : b.name ∈ meshOf a'
  · simp [hmem]
  · simp [hmem]

/-- A disconnect that succeeds found the clusters connected, and has written both records. -/
lemma disconnectCluster_ends (h : Kept op a b w) (hne : b.name ≠ a.name) (hb : b.name ∈ meshOf a)
    (hends : (disconnectCluster r op a.name b.name).Ends w w') :
    b.name ∈ w.fleet.peers a.name ∧ Parted a b w' := by
  obtain ⟨a', b', ha', hb', hload⟩ := loadForDisconnect_of_kept h hne hb
  rw [disconnectCluster, Script.ends_ask, hload] at hends
  by_cases hmem : b.name ∈ meshOf a'
  · rw [if_pos hmem] at hends
    have hfleet := fleet_of_disconnect (r := r) (c := a') hends
    rw [w.fleet.named ha'] at hfleet
    refine ⟨by rwa [Fleet.peers_of_cluster ha'], ?_, ?_⟩
    · refine notMem_peers_withoutPeer (c := a') ?_
      rw [hfleet, cluster_save, name_withoutPeer, w.fleet.named hb', if_neg (Ne.symm hne), cluster_save,
        name_withoutPeer, w.fleet.named ha', if_pos rfl]
    · refine notMem_peers_withoutPeer (c := b') ?_
      rw [hfleet, cluster_save, name_withoutPeer, w.fleet.named hb', if_pos rfl]
  · rw [if_neg hmem] at hends
    exact absurd hends Script.not_ends_fail

/-- As long as the first record lists the peer, a disconnect can succeed. -/
lemma disconnectCluster_succeeds (h : Kept op a b w) (hne : b.name ≠ a.name) (hb : b.name ∈ meshOf a)
    (hmem : b.name ∈ w.fleet.peers a.name) :
    ∃ w', (disconnectCluster obedient op a.name b.name).Ends w w' := by
  obtain ⟨a', b', ha', hb', hload⟩ := loadForDisconnect_of_kept h hne hb
  rw [Fleet.peers_of_cluster ha'] at hmem
  have hhalts : Halts (disconnect obedient a' b' b.name) := halts_disconnect
  obtain ⟨w', hw', -⟩ := hhalts w trivial
  refine ⟨w', ?_⟩
  rw [disconnectCluster, Script.ends_ask, hload, if_pos hmem]
  exact hw'

/-! ### Delete again -/

/-- The phases after `mesh` leave the files of the other clusters alone. -/
lemma keeps_otherFile {x : Context} {file : Option Cluster} (hn : n ≠ x.name) {ap : AskedPhase}
    (hap : ap ∈ phasesAfterMesh r x) : Keeps (fun w => w.fleet.cluster n = file) ap.visit := by
  have htick : ∀ (w : World) k, w.fleet.cluster n = file → (World.tick k w).fleet.cluster n = file :=
    fun _ _ h => h
  cases List.mem_append.mp hap with
  | inl hmem =>
      obtain ⟨ph, -, rfl⟩ := List.mem_map.mp hmem
      refine keeps_visit htick (keeps_hostPhase (fun _ => True) htick (fun _ _ _ _ => trivial) ?_)
      intro w id f hf hw
      have hkeep : f (.stateDir n) ≠ true := fun ht => by
        have htouch := hf _ ht
        cases ph <;> simp [Touches, unitPaths] at htouch
        exact hn htouch
      rw [World.remove_cluster, if_neg fun h => hkeep h.2, hw]
  | inr hmem =>
      rw [List.mem_singleton.mp hmem]
      exact keeps_visit htick (keeps_kubeconfig fun _ _ _ h => h)

/-- **A delete that succeeds** has left the mesh, then removed its own `cluster.yaml`, and no other. -/
lemma deleteCluster_ends (hpeers : Peers op a w) (ha : w.fleet.cluster a.name = some c)
    (hends : (deleteCluster r op a.name).Ends w w') :
    w'.fleet.cluster a.name = none ∧ ∃ k m, (meshVisit r (contextOf c) op).Ends (w.tick k) m ∧
      ∀ n, n ≠ a.name → w'.fleet.cluster n = m.fleet.cluster n := by
  obtain ⟨k, hk⟩ := runPhases_of_ends (loadForDelete_of_file hpeers ha) hends
  have hname := w.fleet.named ha
  obtain ⟨m, hm, hphases⟩ := Script.ends_seq.mp hk
  have hothers : ∀ n, n ≠ a.name → w'.fleet.cluster n = m.fleet.cluster n := by
    intro n hn
    have hother : n ≠ (contextOf c).name := by rwa [← hname] at hn
    have hvisits : ∀ ap ∈ phasesAfterMesh r (contextOf c),
        Keeps (fun t => t.fleet.cluster n = m.fleet.cluster n) ap.visit :=
      fun ap hap => keeps_otherFile hother hap
    exact (Script.Spec.each_keeps hvisits).ends rfl hphases
  refine ⟨?_, k, m, hm, hothers⟩
  rw [phasesAfterMesh, Script.ends_each_append] at hphases
  obtain ⟨u, hu, hkube⟩ := hphases
  rw [Script.each_cons, Script.each_nil, Script.ends_seq] at hkube
  obtain ⟨t, ht, hend⟩ := hkube
  obtain rfl := Script.ends_skip.mp hend
  have hgone : u.has none (.stateDir c.name) = false := by
    have hasked : (none, Item.stateDir c.name) ∈ questions c .state :=
      mem_questions operator_mem_targets (by simp [part, parts])
    exact lacks_of_each hu .state (by simp) (none, .stateDir c.name) hasked
  have hgone' := ((sheds_kubeconfig u).ends (World.Fewer.refl u) ht).lacks hgone
  rw [hname] at hgone'
  simp only [World.has, Bool.or_eq_false_iff, Option.isSome_eq_false_iff] at hgone'
  exact Option.isNone_iff_eq_none.mp hgone'.1

lemma peers_of_none {f : Fleet} (h : f.cluster n = none) : f.peers n = [] :=
  Fleet.peers_of_not_has (by simp [Fleet.Has, h])

/-- The rounds of the phase `mesh`: one for each recorded peer. -/
lemma rounds_of_meshVisit (h : (meshVisit r (contextOf c) op).Ends w w') :
    w' = w ∧ meshOf c = [] ∨
      ∃ k running, (leavePeers r op running c (meshOf c)).Ends (w.tick k) w' := by
  simp only [meshVisit, contextOf] at h
  by_cases hnone : meshOf c = []
  · rw [if_pos hnone] at h
    exact Or.inl ⟨Script.ends_skip.mp h, hnone⟩
  · rw [if_neg hnone, Script.ends_ask] at h
    obtain ⟨m, hm, h⟩ := Script.ends_seq.mp h
    obtain rfl := Script.ends_command.mp hm
    exact Or.inr ⟨_, _, h⟩

/-- **A delete that succeeds while the peer runs** takes the clusters apart, unless only the peer
lists the cluster. -/
lemma parted_of_deleteCluster (h : Held .delete op a b w) (hne : b.name ≠ a.name)
    (hready : b.status.map (·.phase) = some .ready) (hhalf : ¬ Half a b w) (hlisten : Listening r b)
    (hends : (deleteCluster r op a.name).Ends w w') : Parted a b w' := by
  obtain ⟨a', ha', -⟩ := h.kept.fileA
  obtain ⟨hgone, k, m, hm, hothers⟩ := deleteCluster_ends h.kept.peers ha' hends
  refine ⟨by simp [peers_of_none hgone], ?_⟩
  rw [Fleet.peers, hothers b.name hne]
  have hb : b.name ∈ meshOf a' ∨ a.name ∉ w.fleet.peers b.name := by
    rw [Half, Fleet.peers_of_cluster ha'] at hhalf
    tauto
  rcases rounds_of_meshVisit hm with ⟨rfl, hnone⟩ | ⟨k', running, hrounds⟩
  · exact hb.resolve_left (by simp [hnone])
  · exact leavePeers_left hrounds (h.kept.good_of_file ha') (w.fleet.named ha') hne
      (saving_held.tick _ k' (saving_held.tick w k h)) hlisten hready hb

/-- **A peer that the cluster does not list any more is left as it is.** -/
lemma half_of_deleteCluster (h : Kept op a b w) (hne : b.name ≠ a.name) (hhalf : Half a b w)
    (hends : (deleteCluster r op a.name).Ends w w') : a.name ∈ w'.fleet.peers b.name := by
  obtain ⟨a', ha', -⟩ := h.fileA
  obtain ⟨-, k, m, hm, hothers⟩ := deleteCluster_ends h.peers ha' hends
  have hsame : m.fleet.cluster b.name = w.fleet.cluster b.name := by
    rcases rounds_of_meshVisit hm with ⟨rfl, -⟩ | ⟨k', running, hrounds⟩
    · rfl
    · have hnot : b.name ∉ meshOf a' := Fleet.peers_of_cluster ha' ▸ hhalf.1
      exact (leavePeers_untouched hrounds (by rwa [w.fleet.named ha']) hnot :)
  rw [Fleet.peers, hothers b.name hne, hsame]
  exact hhalf.2

/-! ### Runs -/

lemma keeps_part {cmd : Parting} (hne : b.name ≠ a.name) (hb : b.name ∈ meshOf a) :
    Keeps (Held cmd op a b) (cmd.part r op a.name b.name) := by
  cases cmd with
  | disconnect =>
      simp only [Parting.part, disconnectCluster]
      refine keeps_ask fun w hw => ?_
      obtain ⟨a', b', ha', hb', hload⟩ := loadForDisconnect_of_kept hw.kept hne hb
      have hgoodA := hw.kept.good_of_file ha'
      have hgoodB : Good op a b b' := by
        refine saving_kept.loaded w b.name b' hw.kept ?_
        rw [peerOf_eq_ok (hw.kept.managedB hb), hb']
      rw [hload]
      by_cases hmem : b.name ∈ meshOf a'
      · rw [if_pos hmem]
        exact keeps_disconnect saving_held hgoodA hgoodB
      · rw [if_neg hmem]
        exact keeps_fail
  | delete =>
      simp only [Parting.part]
      refine keeps_ask fun w hw => ?_
      obtain ⟨a', ha', -⟩ := hw.kept.fileA
      rw [loadForDelete_of_file hw.kept.peers ha']
      refine keeps_mesh saving_held fun c hc => ?_
      obtain rfl := Option.some.inj hc
      exact hw.kept.good_of_file ha'

/-- **One state**: what was not stopped between the two records can be done again. -/
lemma partsAgain_iff_not_half {cmd : Parting} {w₀ : World} (h : Connected op a b w₀)
    (hready : cmd.Ready a b w₀) (hw : Held cmd op a b w) :
    PartsAgain cmd op a b w ↔ ¬ Half a b w := by
  have hb := h.recorded.1
  have hlistening : Listening obedient b := by
    intro host _ id _ n
    cases id <;> rfl
  cases cmd with
  | disconnect =>
      constructor
      · rintro hagain hhalf
        rcases hagain.succeeds with hparted | ⟨w', hw'⟩
        · exact hparted.2 hhalf.2
        · exact hhalf.1 (disconnectCluster_ends hw.kept h.distinct hb hw').1
      · intro hhalf
        refine ⟨?_, fun r w' _ hends => (disconnectCluster_ends hw.kept h.distinct hb hends).2⟩
        by_cases hmem : b.name ∈ w.fleet.peers a.name
        · exact Or.inr (disconnectCluster_succeeds hw.kept h.distinct hb hmem)
        · exact Or.inl ⟨hmem, fun hother => hhalf ⟨hmem, hother⟩⟩
  | delete =>
      obtain ⟨⟨routers, hr⟩, hphase, -⟩ := hready
      constructor
      · rintro hagain hhalf
        rcases hagain.succeeds with hparted | ⟨w', hw'⟩
        · exact hparted.2 hhalf.2
        · refine (hagain.parted obedient w' (fun _ => hlistening) hw').2 ?_
          exact half_of_deleteCluster hw.kept h.distinct hhalf hw'
      · intro hhalf
        refine ⟨Or.inr ?_, fun r w' hlisten hends => ?_⟩
        · obtain ⟨a', ha', halike⟩ := hw.kept.fileA
          have hr' : a'.routers = .ok routers := by
            obtain ⟨st, rfl⟩ := halike
            exact hr
          exact succeeds_of_file hw.kept.peers hr' ha'
        · exact parted_of_deleteCluster hw h.distinct hphase hhalf (hlisten rfl) hends

lemma held_of_connected {cmd : Parting} (h : Connected op a b w) (hready : cmd.Ready a b w) :
    Held cmd op a b w where
  kept :=
    { peers :=
        { managed := h.managed
          fewer := fun c hc => by
            obtain rfl := Option.some.inj (h.fileA.symm.trans hc)
            exact fun _ hp => hp }
      fileA := ⟨a, h.fileA, Alike.refl a⟩
      fileB := ⟨b, h.fileB, Alike.refl b, rfl⟩ }
  up hcmd := by
    subst hcmd
    exact hready.2.2

/-- What holds after every stopped command. -/
lemma held_of_run {cmd : Parting} {w₀ : World} {ts : List (Trace.Transition World Replies)}
    (h : Connected op a b w₀) (hready : cmd.Ready a b w₀)
    (run : Trace.Run (PartingStep op cmd a.name b.name) w₀ ts w) :
    ∀ t ∈ ts, Held cmd op a b t.target := by
  have hstep : ∀ t, PartingStep op cmd a.name b.name t → True → Held cmd op a b t.source →
      Held cmd op a b t.target :=
    fun _ ht _ hs => (keeps_part h.distinct h.recorded.1).stops hs ht
  exact fun t ht => ((run.invariant (held_of_connected h hready) hstep fun _ _ => trivial).2 t ht).2

/-- **Disconnect is crash-resumable exactly when it was not stopped between the two records**, and so
is the phase `mesh` of a delete: a rerun looks at the first record alone, which is written by then. -/
theorem partsAgain_iff {cmd : Parting} {w₀ : World} {ts : List (Trace.Transition World Replies)}
    (h : Connected op a b w₀) (hready : cmd.Ready a b w₀)
    (run : Trace.Run (PartingStep op cmd a.name b.name) w₀ ts w) :
    (∀ t ∈ ts, PartsAgain cmd op a b t.target) ↔ ∀ t ∈ ts, ¬ Half a b t.target :=
  forall₂_congr fun t ht => partsAgain_iff_not_half h hready (held_of_run h hready run t ht)

/-! ### Two connected clusters -/

/-- A cluster that lists one peer. -/
def listing (name : ClusterName) (id : ℕ) (peer : String) : Cluster :=
  { meshable name id with
    status := (meshable name id).status.map fun st => { st with mesh := [peer] } }

def clusterA : Cluster := listing ⟨"a", clusterName_a⟩ 1 "b"

def clusterB : Cluster := listing ⟨"b", clusterName_b⟩ 2 "a"

/-- Both run on one machine. -/
def connectedWorld : World where
  host id := if id = none then [.active "a.target", .active "b.target"] else []
  inDir := by
    intro id cluster file h
    split at h <;> simp at h
  fleet := (Fleet.empty.save clusterA).save clusterB

lemma connected_connectedWorld : Connected plainOperator clusterA clusterB connectedWorld where
  distinct := by decide
  fileA := by decide
  fileB := by decide
  recorded := by decide
  managed := by
    intro n hn c hc hmanaged
    have hsingle : ∀ m ∈ clusterA.name :: meshOf clusterA,
        ((connectedWorld.fleet.cluster m).any (·.multiHost)) = false := by
      decide
    have hm := hsingle n hn
    rw [hc, Option.any_some, hmanaged.1] at hm
    exact absurd hm (by simp)

lemma ready_connectedWorld (cmd : Parting) : cmd.Ready clusterA clusterB connectedWorld := by
  cases cmd with
  | disconnect => trivial
  | delete => exact ⟨Checked.exists_eq_ok (by decide), rfl, fun host _ => ⟨none, rfl, rfl⟩⟩

/-- A disconnect that finished. -/
theorem partsAgain_finished : ∃ t : Trace.Transition World Replies,
    PartingStep plainOperator .disconnect clusterA.name clusterB.name t ∧
      Parted clusterA clusterB t.target ∧
        PartsAgain .disconnect plainOperator clusterA clusterB t.target := by
  have hrun : ((disconnectCluster obedient plainOperator clusterA.name clusterB.name).result
      connectedWorld).any (fun w => clusterB.name ∉ w.fleet.peers clusterA.name ∧
        clusterA.name ∉ w.fleet.peers clusterB.name) = true := by
    decide
  obtain ⟨w, hw, hparted⟩ := (Option.any_eq_true _ _).mp hrun
  rw [decide_eq_true_eq] at hparted
  have hstep : PartingStep plainOperator .disconnect clusterA.name clusterB.name
      ⟨connectedWorld, obedient, w⟩ := (Script.result_eq_some.mp hw).reaches
  refine ⟨_, hstep, hparted, ?_⟩
  refine (partsAgain_iff connected_connectedWorld (ready_connectedWorld _)
    (Trace.Run.snoc Trace.Run.nil hstep)).mpr (fun t ht hhalf => ?_) _ (by simp)
  obtain rfl := List.mem_singleton.mp ht
  exact hparted.2 hhalf.2

/-- From every state it was stopped in, the command takes the clusters apart. -/
def Parting.CrashResumable (cmd : Parting) : Prop :=
  ∀ (op : Operator) (a b : Cluster) (w₀ w : World) (ts : List (Trace.Transition World Replies)),
    Connected op a b w₀ → cmd.Ready a b w₀ → Trace.Run (PartingStep op cmd a.name b.name) w₀ ts w →
      ∀ t ∈ ts, PartsAgain cmd op a b t.target

lemma not_crashResumable (cmd : Parting) : ¬ cmd.CrashResumable := by
  intro hall
  have hrun : ((cmd.part obedient plainOperator clusterA.name clusterB.name connectedWorld).passed.any
      fun w => clusterB.name ∉ w.fleet.peers clusterA.name ∧
        clusterA.name ∈ w.fleet.peers clusterB.name) = true := by
    cases cmd <;> decide
  obtain ⟨w, hw, hhalf⟩ := List.any_eq_true.mp hrun
  rw [decide_eq_true_eq] at hhalf
  have hstep : PartingStep plainOperator cmd clusterA.name clusterB.name
      ⟨connectedWorld, obedient, w⟩ := Or.inr hw
  have run := Trace.Run.snoc Trace.Run.nil hstep
  have hready := ready_connectedWorld cmd
  have hheld := held_of_run connected_connectedWorld hready run _ (List.mem_singleton.mpr rfl)
  exact (partsAgain_iff_not_half connected_connectedWorld hready hheld).mp
    (hall _ _ _ _ _ _ connected_connectedWorld hready run _ (List.mem_singleton.mpr rfl)) hhalf

/-- Stopped once the first record is written: the other cluster lists it for good, whichever the
command. -/
theorem not_partsAgain_stopped :
    ¬ Parting.CrashResumable .disconnect ∧ ¬ Parting.CrashResumable .delete :=
  ⟨not_crashResumable .disconnect, not_crashResumable .delete⟩

end Tk8s.Delete
