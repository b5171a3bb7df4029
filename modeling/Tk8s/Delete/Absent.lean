import Tk8s.Delete.Done
import Tk8s.Lib.Run
import Tk8s.Node.Edits

/-!
`delete cluster` while hosts come and go.

* `DeleteStep`: one run, with any replies of the hosts, stopped at any command or finished.
* `Listed`: the containers and volumes are where `cluster.yaml` places them; `NothingLeft`: a host
  holds nothing of the cluster.
* `Deleting`: `cluster.yaml` is there, or every host is clean; `spec_deleteCluster`: **a delete keeps
  it**, because the operator is the last target of the last host-side phase.
* `hostsFirst_of_run`: **no delete outruns an absent host**.
-/

namespace Tk8s.Delete

open Net

/-! ### What a delete keeps -/

/-- One run of `delete cluster`. -/
def DeleteStep (op : Operator) (name : String) (t : Trace.Transition World Replies) : Prop :=
  (deleteCluster t.label op name).Reaches t.source t.target

/-- The same cluster but for what is recorded in its status. -/
def Alike (c c' : Cluster) : Prop := ∃ st, c' = { c with status := st }

/-- The containers and volumes of the cluster are where `cluster.yaml` places them. -/
structure Listed (c : Cluster) (w : World) : Prop where
  containers : ∀ n ∈ containerNames c, ∀ id ∈ targetHosts c, w.has id (.container n) = true →
    (contextOf c).hostFor n = id
  volumes : ∀ n ∈ c.spec.nodes.map (·.name.text), ∀ v ∈ nodeVolumes n, ∀ id ∈ targetHosts c,
    w.has id (.volume v) = true → (contextOf c).hostFor n = id

/-- A host holds nothing of the cluster: no unit, container, volume, network, route or state
directory. -/
def NothingLeft (c : Cluster) (w : World) (id : MachineId) : Prop :=
  ∀ ph, ∀ i ∈ parts c ph, w.has id i = false

/-- The operator has a `cluster.yaml` of the cluster. -/
def OnFile (c : Cluster) (w : World) : Prop := ∃ c', w.fleet.cluster c.name = some c' ∧ Alike c c'

/-- **The invariant**: the list of hosts is there as long as any of them holds something. -/
structure Deleting (c : Cluster) (w : World) : Prop where
  listed : Listed c w
  onFile : OnFile c w ∨
    (w.fleet.cluster c.name = none ∧ ∀ id ∈ targetHosts c, NothingLeft c w id)

variable {c c' : Cluster} {w w' : World} {r : Replies} {op : Operator}

lemma Alike.refl (c : Cluster) : Alike c c := ⟨c.status, rfl⟩

lemma Alike.trans {c'' : Cluster} (h : Alike c c') (h' : Alike c' c'') : Alike c c'' := by
  obtain ⟨st, rfl⟩ := h
  obtain ⟨st', rfl⟩ := h'
  exact ⟨st', rfl⟩

lemma alike_withoutPeer (c : Cluster) (peer : String) : Alike c (withoutPeer c peer) := by
  rw [withoutPeer, withPeers]
  cases c.status with
  | none => exact Alike.refl c
  | some st => exact ⟨_, rfl⟩

lemma Listed.fewer (h : Listed c w) (hf : w.Fewer w') : Listed c w' where
  containers n hn id hid hi := h.containers n hn id hid (hf.items _ _ hi)
  volumes n hn v hv id hid hi := h.volumes n hn v hv id hid (hf.items _ _ hi)

lemma NothingLeft.fewer {id : MachineId} (h : NothingLeft c w id) (hf : w.Fewer w') :
    NothingLeft c w' id := fun ph i hi => hf.lacks (h ph i hi)

/-- None of this depends on the status. -/
lemma Alike.listed (h : Alike c c') (hw : Listed c w) : Listed c' w := by
  obtain ⟨st, rfl⟩ := h
  exact ⟨hw.containers, hw.volumes⟩

lemma Alike.deleting (h : Alike c c') (hw : Deleting c' w) : Deleting c w := by
  obtain ⟨st, rfl⟩ := h
  exact ⟨⟨hw.listed.containers, hw.listed.volumes⟩, hw.onFile⟩

lemma OnFile.tick (h : OnFile c w) (n : ℕ) : OnFile c (w.tick n) := h

/-- Once there is no `cluster.yaml`, a removal cannot break anything. -/
lemma Deleting.fewer (h : Deleting c w) (hnone : w.fleet.cluster c.name = none) (hf : w.Fewer w') :
    Deleting c w' ∧ w'.fleet.cluster c.name = none := by
  have hnone' : w'.fleet.cluster c.name = none := by
    cases hf.files c.name with
    | inl he => rw [he, hnone]
    | inr he => exact he
  refine ⟨⟨h.listed.fewer hf, Or.inr ⟨hnone', fun id hid => ?_⟩⟩, hnone'⟩
  cases h.onFile with
  | inl hfile =>
      obtain ⟨c', hc', -⟩ := hfile
      exact absurd (hnone.symm.trans hc') (by simp)
  | inr hclean => exact (hclean.2 id hid).fewer hf

/-- A host with nothing left of the phases has nothing left: containers and volumes are nowhere
else. -/
lemma nothingLeft_of_lacks (h : Listed c w) (hlacks : ∀ ph, Lacks (questions c ph) w)
    {id : MachineId} (hid : id ∈ targetHosts c) : NothingLeft c w id := by
  intro ph i hi
  cases hhas : w.has id i with
  | false => rfl
  | true =>
      refine absurd hhas ?_
      rw [Bool.not_eq_true]
      suffices hpart : i ∈ part c id ph from hlacks ph _ (mem_questions hid hpart)
      cases ph with
      | containers =>
          obtain ⟨n, hn, rfl⟩ := List.mem_map.mp hi
          have hhost := h.containers n hn id hid hhas
          exact List.mem_map_of_mem (List.mem_filter.mpr ⟨hn, by simpa using hhost⟩)
      | volumes =>
          obtain ⟨v, hv, rfl⟩ := List.mem_map.mp hi
          obtain ⟨n, hn, hvn⟩ := List.mem_flatMap.mp hv
          have hhost := h.volumes n hn v hvn id hid hhas
          exact List.mem_flatMap.mpr ⟨n, List.mem_filter.mpr ⟨hn, by simpa using hhost⟩,
            List.mem_map_of_mem hvn⟩
      | stop => exact hi
      | units => exact hi
      | network => exact hi
      | routes => exact hi
      | state => exact hi

/-! ### The phases before `state` -/

/-- `cluster.yaml` is there, and these phases are done. -/
structure Past (c : Cluster) (phs : List HostPhase) (w : World) : Prop where
  listed : Listed c w
  onFile : OnFile c w
  lacks : ∀ ph ∈ phs, Lacks (questions c ph) w

lemma Past.deleting {phs : List HostPhase} (h : Past c phs w) : Deleting c w :=
  ⟨h.listed, Or.inl h.onFile⟩

lemma Past.tick {phs : List HostPhase} (h : Past c phs w) (n : ℕ) : Past c phs (w.tick n) where
  listed := h.listed.fewer (World.fewer_tick w n)
  onFile := h.onFile
  lacks ph hph := (h.lacks ph hph).fewer (World.fewer_tick w n)

/-- No other phase removes a state directory. -/
lemma not_touches_stateDir {x : Context} {named : String → Prop} {ph : HostPhase}
    (h : ph ≠ .state) (n : String) : ¬ Touches x named ph (.stateDir n) := by
  cases ph with
  | state => exact absurd rfl h
  | _ => simp [Touches, unitPaths]

/-- **A phase before `state`**: `cluster.yaml` stays, and the phase is done at the end. -/
lemma spec_visit {phs : List HostPhase} {ph : HostPhase} (hph : ph ≠ .state) :
    Script.Spec (Past c phs) (hostPhase r (contextOf c) ph).visit (Past c phs) (Past c (ph :: phs)) := by
  have hkeeps : Keeps (Past c phs) (hostPhase r (contextOf c) ph).visit := by
    refine keeps_visit (fun w n h => h.tick n) (keeps_hostPhase (fun _ => True)
      (fun w n h => h.tick n) (fun _ _ _ _ => trivial) fun w id f hf h => ?_)
    have hspares : ∀ n, f (.stateDir n) = false := fun n =>
      Bool.eq_false_iff.mpr fun hn => not_touches_stateDir hph n (hf _ hn)
    have hfewer := World.fewer_remove w id f
    refine ⟨h.listed.fewer hfewer, ?_, fun ph' hph' => (h.lacks ph' hph').fewer hfewer⟩
    obtain ⟨c', hc', halike⟩ := h.onFile
    exact ⟨c', by rw [World.remove_cluster, hspares, if_neg (by simp), hc'], halike⟩
  refine ⟨hkeeps.stops, fun hw ht => ?_⟩
  have hend := hkeeps.ends hw ht
  refine ⟨hend.listed, hend.onFile, fun ph' hph' => ?_⟩
  cases List.mem_cons.mp hph' with
  | inl he => exact he ▸ lacks_of_visit ht
  | inr hmem => exact hend.lacks ph' hmem

/-! ### The phase `state` -/

/-- After the operator comes nobody else. -/
lemma targets_after_operator {before rest : List MachineId}
    (h : targetHosts c = before ++ none :: rest) : ∀ id ∈ rest, id = none := by
  have hremote : none ∉ remoteHosts c := by
    intro hmem
    obtain ⟨host, hhost, hnone⟩ := List.mem_map.mp hmem
    simpa [hnone] using List.of_mem_filter hhost
  obtain ⟨mine, hmine, htargets⟩ : ∃ mine, (∀ id ∈ mine, id = none) ∧
      (targetHosts c = mine ∨ targetHosts c = remoteHosts c ++ mine) := by
    rw [targetHosts]
    cases c.spec.hosts with
    | none => exact ⟨[none], by simp, Or.inl rfl⟩
    | some hosts =>
        refine ⟨_, ?_, Or.inr rfl⟩
        intro id hid
        split at hid
        · simpa using hid
        · obtain ⟨host, hhost, rfl⟩ := List.mem_map.mp hid
          simpa using List.of_mem_filter hhost
  cases htargets with
  | inl he =>
      intro id hid
      exact hmine id (by rw [← he, h]; simp [hid])
  | inr he =>
      rw [h] at he
      cases List.append_eq_append_iff.mp he with
      | inl hsplit =>
          obtain ⟨early, hearly, hsplit⟩ := hsplit
          cases early with
          | nil =>
              intro id hid
              exact hmine id (by rw [← List.nil_append mine, ← hsplit]; simp [hid])
          | cons first early =>
              obtain rfl := (List.cons.inj hsplit).1
              exact absurd (by rw [hearly]; simp) hremote
      | inr hsplit =>
          obtain ⟨late, -, hsplit⟩ := hsplit
          intro id hid
          exact hmine id (by rw [hsplit]; simp [hid])

/-- Everything but the state directories is gone; `cluster.yaml` went only when they are gone. -/
structure Emptying (c : Cluster) (w : World) : Prop where
  listed : Listed c w
  lacks : ∀ ph, ph ≠ .state → Lacks (questions c ph) w
  onFile : OnFile c w ∨ (w.fleet.cluster c.name = none ∧
    ∀ id ∈ targetHosts c, w.has id (.stateDir c.name) = false)

/-- The state directories are gone but on the hosts that are still to come. -/
structure EmptyingFrom (c : Cluster) (rest : List MachineId) (w : World) : Prop
    extends Emptying c w where
  emptied : ∀ id ∈ targetHosts c, id ∉ rest → w.has id (.stateDir c.name) = false

lemma Emptying.tick (h : Emptying c w) (n : ℕ) : Emptying c (w.tick n) where
  listed := h.listed.fewer (World.fewer_tick w n)
  lacks ph hph := (h.lacks ph hph).fewer (World.fewer_tick w n)
  onFile := h.onFile.imp (fun hf => hf) fun hg => ⟨hg.1, fun id hid => by
    rw [World.has_tick, hg.2 id hid]⟩

lemma EmptyingFrom.tick {rest : List MachineId} (h : EmptyingFrom c rest w) (n : ℕ) :
    EmptyingFrom c rest (w.tick n) :=
  ⟨h.toEmptying.tick n, fun id hid hrest => by rw [World.has_tick, h.emptied id hid hrest]⟩

lemma Emptying.deleting (h : Emptying c w) : Deleting c w := by
  refine ⟨h.listed, h.onFile.imp_right fun hgone => ⟨hgone.1, fun id hid => ?_⟩⟩
  refine nothingLeft_of_lacks h.listed (fun ph => ?_) hid
  by_cases hph : ph = .state
  · subst hph
    intro q hq
    obtain ⟨id', hid', hq⟩ := List.mem_flatMap.mp hq
    obtain ⟨i, hi, rfl⟩ := List.mem_map.mp hq
    rw [List.mem_singleton.mp hi]
    exact hgone.2 id' hid'
  · exact h.lacks ph hph

/-- A state directory is removed in turn; `cluster.yaml` goes with the operator's, which is last. -/
lemma EmptyingFrom.remove {before rest : List MachineId} {id : MachineId}
    (hsplit : targetHosts c = before ++ id :: rest) (h : EmptyingFrom c (id :: rest) w) :
    EmptyingFrom c rest (w.remove id (· = .stateDir c.name)) := by
  have hfewer := World.fewer_remove w id (· = .stateDir c.name)
  have hemptied : ∀ id' ∈ targetHosts c, id' ∉ rest →
      (w.remove id (· = .stateDir c.name)).has id' (.stateDir c.name) = false := by
    intro id' hid' hrest
    by_cases hsame : id' = id
    · rw [World.has_remove]
      simp [hsame, World.takes]
    · exact hfewer.lacks (h.emptied id' hid' (by simp [hsame, hrest]))
  refine ⟨⟨h.listed.fewer hfewer, fun ph hph => (h.lacks ph hph).fewer hfewer, ?_⟩, hemptied⟩
  by_cases hoperator : id = none
  · subst hoperator
    refine Or.inr ⟨by rw [World.remove_cluster]; simp, fun id' hid' => ?_⟩
    by_cases hrest : id' ∈ rest
    · -- only the operator itself can come after the operator
      rw [targets_after_operator hsplit id' hrest, World.has_remove]
      simp [World.takes]
    · exact hemptied id' hid' hrest
  · have hcluster : ∀ n, (w.remove id (· = .stateDir c.name)).fleet.cluster n = w.fleet.cluster n :=
      fun n => by rw [World.remove_cluster, if_neg fun hg => hoperator hg.1]
    refine h.onFile.imp (fun ⟨c', hc', halike⟩ => ⟨c', by rw [hcluster, hc'], halike⟩) fun hg => ?_
    exact ⟨by rw [hcluster, hg.1], fun id' hid' => hfewer.lacks (hg.2 id' hid')⟩

/-- One target of the phase `state`. -/
lemma spec_dropState {before rest : List MachineId} {id : MachineId}
    (hsplit : targetHosts c = before ++ id :: rest) :
    Script.Spec (EmptyingFrom c (id :: rest)) (drop r id true (· = .stateDir c.name)) (Emptying c)
      (EmptyingFrom c rest) := by
  refine spec_tell (fun w h => ⟨h.toEmptying, (h.remove hsplit).toEmptying⟩) (fun w h => ?_)
    fun hcheck => absurd hcheck (by simp)
  exact ⟨(h.remove hsplit).toEmptying.tick 1, (h.remove hsplit).tick 1⟩

/-- **The phase `state`** removes the operator's directory last. -/
lemma spec_visitState : Script.Spec (Emptying c) (hostPhase r (contextOf c) .state).visit
    (Emptying c) (Emptying c) := by
  have htick : ∀ w n, Emptying c w → Emptying c (World.tick n w) := fun w n h => h.tick n
  refine keeps_visit htick ?_
  have hloop : Script.Spec (EmptyingFrom c (targetHosts c))
      (hostPhase r (contextOf c) .state).run (Emptying c) (EmptyingFrom c []) := by
    refine Script.Spec.each_split (fun before id rest hsplit => ?_) fun w h => h.toEmptying
    split
    · refine spec_asked (fun w h => h.toEmptying) fun w done notes h hasked => ?_
      refine ⟨h.toEmptying.tick _, ?_⟩
      cases done with
      | true =>
          refine Script.Spec.skip fun w' hw' => ?_
          have hgone : w.has id (.stateDir c.name) = false :=
            (gone_eq_ok hasked).1.mp rfl (id, .stateDir c.name) (List.mem_singleton.mpr rfl)
          have hnext : EmptyingFrom c rest w := by
            refine ⟨h.toEmptying, fun id' hid' hrest => ?_⟩
            by_cases hsame : id' = id
            · rw [hsame, hgone]
            · exact h.emptied id' hid' (by simp [hsame, hrest])
          exact hw' ▸ ⟨h.toEmptying.tick _, hnext.tick _⟩
      | false =>
          exact (spec_dropState hsplit).weaken (fun w' hw' => hw' ▸ h.tick _) (fun _ h => h)
            fun _ h => h
    · exact spec_dropState hsplit
  exact hloop.weaken (fun w h => ⟨h, fun id hid hnot => absurd hid hnot⟩) (fun _ h => h)
    fun w h => h.toEmptying

/-! ### The phase `mesh` -/

/-- The containers and volumes are listed, and `cluster.yaml` is there. -/
def Filed (c : Cluster) (w : World) : Prop := Listed c w ∧ OnFile c w

lemma Filed.tick (h : Filed c w) (n : ℕ) : Filed c (w.tick n) :=
  ⟨h.1.fewer (World.fewer_tick w n), h.2⟩

/-- Containers and volumes do not depend on the state directories. -/
lemma Listed.congr (h : Listed c w)
    (hhas : ∀ id i, (∀ n, i ≠ Item.stateDir n) → w'.has id i = w.has id i) : Listed c w' where
  containers n hn id hid hi := h.containers n hn id hid (by rwa [hhas _ _ (by simp)] at hi)
  volumes n hn v hv id hid hi := h.volumes n hn v hv id hid (by rwa [hhas _ _ (by simp)] at hi)

/-- A cluster that is saved under the name is the cluster. -/
lemma filed_save (h : Filed c w) (hsave : c'.name = c.name → Alike c c') :
    Filed c { w with fleet := w.fleet.save c' } := by
  refine ⟨h.1.congr fun id i hi => ?_, ?_⟩
  · have hplain : ∀ n, ¬ (id = none ∧ i = .stateDir n) := fun n hn => hi n hn.2
    rw [World.has_of_host hplain, World.has_of_host hplain]
  obtain ⟨old, hold, halike⟩ := h.2
  by_cases hname : c'.name = c.name
  · exact ⟨c', by simp [Fleet.save, hname], hsave hname⟩
  · exact ⟨old, by simp [Fleet.save, Function.update_of_ne (Ne.symm hname), hold], halike⟩

lemma filed_putState {id : MachineId} {n : String} (h : Filed c w) : Filed c (w.putState id n) := by
  refine ⟨h.1.congr fun id' i hi => ?_, h.2⟩
  have hplain : ∀ n, ¬ (id' = none ∧ i = .stateDir n) := fun n hn => hi n hn.2
  rw [World.has_of_host hplain, World.has_of_host hplain]
  by_cases hid : id' = id
  · subst hid
    simp [World.putState, hi n]
  · simp [World.putState, Function.update_of_ne hid]

lemma Alike.name (h : Alike c c') : c'.name = c.name := by
  obtain ⟨st, rfl⟩ := h
  rfl

lemma loaded_of_peerOf {f : Fleet} {n : String} {pc : Cluster}
    (h : peerOf (op.loadCluster f n) = .ok (some pc)) : f.cluster n = some pc := by
  cases hload : op.loadCluster f n with
  | ok found =>
      rw [hload, peerOf] at h
      obtain rfl := Option.some.inj (Except.ok.inj h)
      exact Operator.loadCluster_eq_ok hload
  | error e =>
      rw [hload] at h
      cases e <;> simp [peerOf] at h

/-- A cluster that is saved under the name of the deleted one is that cluster. -/
lemma saving_filed : Saving op (Filed c) fun c' => c'.name = c.name → Alike c c' where
  tick w n h := h.tick n
  putState w id n h := filed_putState h
  save w c' hgood h := filed_save h hgood
  withoutPeer c' peer h hname := by
    rw [(alike_withoutPeer c' peer).name] at hname
    exact (h hname).trans (alike_withoutPeer c' peer)
  loaded w n pc hw hload hname := by
    have hfile := loaded_of_peerOf hload
    rw [← w.fleet.named hfile, hname] at hfile
    obtain ⟨c', hc', halike⟩ := hw.2
    rwa [← Option.some.inj (hc'.symm.trans hfile)]

/-! ### A run of `delete cluster` -/

lemma Past.emptying (h : Past c [.routes, .network, .units, .volumes, .containers, .stop] w) :
    Emptying c w where
  listed := h.listed
  lacks ph hph := h.lacks ph (by cases ph <;> simp at hph ⊢)
  onFile := Or.inl h.onFile

/-- `~/.kube/config` says nothing about the hosts. -/
lemma Emptying.setKube {kube kubeBak : KubeFile} (h : Emptying c w) :
    Emptying c { w with kube := kube, kubeBak := kubeBak } where
  listed := ⟨h.listed.containers, h.listed.volumes⟩
  lacks := h.lacks
  onFile := h.onFile

/-- **The phases of a run with `cluster.yaml`**, in their order. -/
lemma spec_runPhases : Script.Spec (Filed c) (runPhases r (contextOf c) op) (Deleting c) (Emptying c) := by
  have hvisit : ∀ {phs : List HostPhase} (ph : HostPhase), ph ≠ .state →
      Script.Spec (Past c phs) (hostPhase r (contextOf c) ph).visit (Deleting c)
        (Past c (ph :: phs)) :=
    fun ph hph => (spec_visit hph).weaken (fun _ h => h) (fun _ h => h.deleting) fun _ h => h
  have hmesh : Script.Spec (Filed c) (meshVisit r (contextOf c) op) (Deleting c) (Past c []) :=
    (keeps_mesh saving_filed fun c' hc' _ => Option.some.inj hc' ▸ Alike.refl c).weaken
      (fun _ h => h) (fun _ h => ⟨h.1, Or.inl h.2⟩) fun _ h => ⟨h.1, h.2, by simp⟩
  have hkube : Keeps (Emptying c) (kubeconfigPhase (contextOf c)).visit :=
    keeps_visit (fun w n h => h.tick n) (keeps_kubeconfig fun w _ _ h => h.setKube)
  have hdeleting : ∀ w, Emptying c w → Deleting c w := fun w h => h.deleting
  simp only [runPhases, phasesAfterMesh, List.map_cons, List.map_nil, List.cons_append,
    List.nil_append, Script.each_cons, Script.each_nil]
  refine hmesh.seq <| (hvisit .stop (by simp)).seq <| (hvisit .containers (by simp)).seq <|
    (hvisit .volumes (by simp)).seq <| (hvisit .units (by simp)).seq <|
    (hvisit .network (by simp)).seq <| (hvisit .routes (by simp)).seq ?_
  refine Script.Spec.seq (spec_visitState.weaken (fun _ h => h.emptying) hdeleting fun _ h => h) ?_
  refine Script.Spec.seq (hkube.weaken (fun _ h => h) hdeleting fun _ h => h) ?_
  exact Script.Spec.skip fun w h => ⟨h.deleting, h⟩

/-- Without `cluster.yaml` a run only takes away. -/
lemma sheds_runPhases {name : String} : Sheds (runPhases r ⟨name, none⟩ op) := by
  intro w₀
  refine Script.Spec.seq keeps_skip (Script.Spec.each_keeps fun ph hph => ?_)
  cases List.mem_append.mp hph with
  | inl hmem =>
      obtain ⟨ph, -, rfl⟩ := List.mem_map.mp hmem
      exact sheds_hostPhase ph w₀
  | inr hmem => exact List.mem_singleton.mp hmem ▸ sheds_kubeconfig w₀

lemma not_found_of_peerOf {f : Fleet} {name : String}
    (h : peerOf (op.loadCluster f name) = .ok none) : f.cluster name = none := by
  cases hfile : f.cluster name with
  | none => rfl
  | some c =>
      rw [Operator.loadCluster, hfile] at h
      by_cases hmanaged : c.multiHost = true ∧ op.managedFrom c ≠ none
      · simp [Checked.ofOption, Checked.refuseIf, hmanaged, peerOf] at h
      · simp [Checked.ofOption, Checked.refuseIf, hmanaged, peerOf] at h

lemma loadForDelete_eq_ok {f : Fleet} {name : String} {found : Option Cluster}
    (h : loadForDelete op f name = .ok found) : f.cluster name = found := by
  simp only [loadForDelete, Checked.bind_eq_ok] at h
  obtain ⟨-, -, h⟩ := h
  cases found with
  | none => exact not_found_of_peerOf h
  | some c => exact loaded_of_peerOf h

/-- **A delete keeps the list of hosts** as long as any host holds something. -/
theorem spec_deleteCluster : Keeps (Deleting c) (deleteCluster r op c.name) := by
  refine Script.Spec.ask fun w hw => ?_
  have hhere : ∀ w', w' = w → Deleting c w' := fun w' he => he ▸ hw
  cases hload : loadForDelete op w.fleet c.name with
  | error e => exact Script.Spec.fail hhere
  | ok found =>
      have hfile := loadForDelete_eq_ok hload
      have hask : ∀ {k : Bool → Script World}, (∀ n there, Script.Spec (fun w' => w' = w.tick n) (k there)
          (Deleting c) (Deleting c)) → ∀ q, Script.Spec (fun w' => w' = w) (asked q k)
            (Deleting c) (Deleting c) := by
        intro k hk q
        refine spec_asked hhere fun w' there notes hw' _ => ?_
        rw [hw']
        exact ⟨⟨hw.listed.fewer (World.fewer_tick w _), hw.onFile.imp (fun h => h) fun h =>
          ⟨h.1, fun id hid => (h.2 id hid).fewer (World.fewer_tick w _)⟩⟩, hk _ there⟩
      refine hask (fun n there => ?_) _
      have hnext : Deleting c (w.tick n) := ⟨hw.listed.fewer (World.fewer_tick w n),
        hw.onFile.imp (fun h => h) fun h =>
          ⟨h.1, fun id hid => (h.2 id hid).fewer (World.fewer_tick w n)⟩⟩
      cases there with
      | false => exact Script.Spec.fail fun w' hw' => hw' ▸ hnext
      | true =>
          cases found with
          | none =>
              have hnone : (w.tick n).fleet.cluster c.name = none := hfile
              refine (sheds_runPhases (w.tick n)).weaken (fun w' hw' => ?_)
                (fun w' hf => (hnext.fewer hnone hf).1) fun w' hf => (hnext.fewer hnone hf).1
              exact hw' ▸ World.Fewer.refl _
          | some c' =>
              have hfiled : OnFile c w := by
                refine hw.onFile.resolve_right fun hgone => ?_
                exact absurd (hgone.1.symm.trans hfile) (by simp)
              obtain ⟨c'', hc'', halike⟩ := hfiled
              obtain rfl := Option.some.inj (hc''.symm.trans hfile)
              have hfiled : Filed c'' (w.tick n) :=
                ⟨halike.listed hnext.listed, c'', halike.name ▸ hfile, Alike.refl c''⟩
              have hrun : Script.Spec (Filed c'') (runPhases r (contextOf c'') op) (Deleting c'')
                  (Emptying c'') := spec_runPhases
              rw [contextOf, halike.name] at hrun
              exact hrun.weaken (fun w' hw' => hw' ▸ hfiled) (fun w' h => halike.deleting h)
                fun w' h => halike.deleting h.deleting

/-- The hosts are heard before a phase counts as done, and they are clean before `cluster.yaml`
goes. -/
structure HostsFirst (c : Cluster) (ts : List (Trace.Transition World Replies)) : Prop where
  counted : ∀ c', Alike c c' → ∀ r ph w notes,
    (hostPhase r (contextOf c') ph).done w [] = .ok (true, notes) →
      ∀ id ∈ targetHosts c, ∀ i ∈ part c id ph,
        (⟨id, i, false⟩ : Note MachineId Item) ∈ notes ∧ w.has id i = false
  kept : ∀ t ∈ ts, t.target.fleet.cluster c.name = none →
    ∀ id ∈ targetHosts c, NothingLeft c t.target id

variable {w₀ : World} {ts : List (Trace.Transition World Replies)}

lemma deleting_of_file (hfile : w₀.fleet.cluster c.name = some c) (hlisted : Listed c w₀) :
    Deleting c w₀ := ⟨hlisted, Or.inl ⟨c, hfile, Alike.refl c⟩⟩

/-- Every state a sequence of deletes reaches. -/
lemma deleting_of_run (h : Deleting c w₀) (run : Trace.Run (DeleteStep op c.name) w₀ ts w) :
    Deleting c w ∧ ∀ t ∈ ts, Deleting c t.source ∧ Deleting c t.target := by
  have hstep : ∀ t, DeleteStep op c.name t → True → Deleting c t.source → Deleting c t.target :=
    fun _ ht _ hs => spec_deleteCluster.stops hs ht
  exact run.invariant h hstep fun _ _ => trivial

/-- **No delete outruns an absent host**: whoever answers when, a phase is counted as done only when
every host said that its part is gone, and `cluster.yaml` goes when all of them are clean. -/
theorem hostsFirst_of_run (hfile : w₀.fleet.cluster c.name = some c) (hlisted : Listed c w₀)
    (run : Trace.Run (DeleteStep op c.name) w₀ ts w) : HostsFirst c ts where
  counted c' halike r ph w notes h id hid i hi := by
    obtain ⟨st, rfl⟩ := halike
    exact noted_of_done (c := { c with status := st }) h hid hi
  kept t ht hnone := by
    have htarget := ((deleting_of_run (deleting_of_file hfile hlisted) run).2 t ht).2
    cases htarget.onFile with
    | inl hon =>
        obtain ⟨c', hc', -⟩ := hon
        exact absurd (hnone.symm.trans hc') (by simp)
    | inr hclean => exact hclean.2

/-! ### A node on another host -/

/-- The node runs on the host `b`, the router on the operator. -/
def splitCluster : Cluster where
  metadata := loneCluster.metadata
  spec :=
    { loneCluster.spec with
      network := { loneCluster.spec.network with
        range := some "192.168.1.64-79", routerHosts := some ["a"] }
      nodes := loneCluster.spec.nodes.map fun n => { n with host := some "b" }
      hosts := some [⟨⟨"a", hostName_a⟩, none, "eth0"⟩, ⟨⟨"b", hostName_b⟩, some "b", "eth0"⟩] }
  status := some { phase := .ready, tk8s := "dev", operator := some "operator" }

def splitItems : MachineId → List Item
  | none => [.container "dev-router", .unitDir "dev", .network "dev", .systemd "dev.target"]
  | some target =>
      if target = "b" then [.container "dev-control-plane-1", .volume "dev-control-plane-1-var",
        .unitDir "dev", .network "dev", .stateDir "dev"]
      else []

/-- Both hosts, with what create put there. -/
def splitWorld : World where
  host := splitItems
  inDir := by
    intro id cluster file h
    cases id with
    | none => simp [splitItems] at h
    | some target =>
        simp only [splitItems] at h
        split at h <;> simp at h
  fleet := Fleet.empty.save splitCluster

def plainOperator : Operator where
  clustersDir := "/srv/tk8s/clusters"
  hostname := "operator"
  targetUp _ _ := none

lemma listed_splitWorld : Listed splitCluster splitWorld where
  containers := by decide +kernel
  volumes := by decide +kernel

/-- A delete of both hosts, from `cluster.yaml` to the end. -/
theorem hostsFirst_splitWorld : ∃ t : Trace.Transition World Replies,
    DeleteStep plainOperator splitCluster.name t ∧
      t.target.fleet.cluster splitCluster.name = none ∧ HostsFirst splitCluster [t] := by
  have hrun : ((deleteCluster obedient plainOperator splitCluster.name).result splitWorld).any
      (fun w => (w.fleet.cluster splitCluster.name).isNone) = true := by
    decide +kernel
  obtain ⟨w, hw, hgone⟩ := (Option.any_eq_true _ _).mp hrun
  have hstep : DeleteStep plainOperator splitCluster.name ⟨splitWorld, obedient, w⟩ :=
    (Script.result_eq_some.mp hw).reaches
  refine ⟨_, hstep, Option.isNone_iff_eq_none.mp hgone, ?_⟩
  have hfile : splitWorld.fleet.cluster splitCluster.name = some splitCluster := by
    simp [splitWorld, Fleet.save]
  exact hostsFirst_of_run hfile listed_splitWorld (Trace.Run.snoc Trace.Run.nil hstep)

end Tk8s.Delete
