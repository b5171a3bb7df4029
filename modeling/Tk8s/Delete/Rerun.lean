import Tk8s.Delete.Absent

/-!
`delete cluster` stopped and run again.

* `Clean`: nothing of the cluster is left on any host, and nothing in `~/.kube/config`.
* `total_visit`: where everyone answers and obeys, **a host-side phase gets to its end**;
  `total_runPhases`: so do all of them.
* `Resumes`: running the delete again succeeds, and whoever succeeds has left everything clean.
* `clean_or_resumes_iff`: **a stopped delete is clean or can be resumed exactly when it was not
  stopped between the operator's state directory and the entry in `~/.kube/config`**.
-/

namespace Tk8s.Delete

open Net

/-! ### Phases that get to their end -/

variable {c : Cluster} {x : Context} {w w' : World} {p q : Script World} {P Q : World → Prop}

/-- What holds of a state holds when more is gone. -/
def Lasting (P : World → Prop) : Prop := ∀ w w', P w → w.Fewer w' → P w'

lemma lasting_lacks (qs : List (MachineId × Item)) : Lasting (Lacks qs) := fun _ _ h hf => h.fewer hf

lemma lasting_true : Lasting fun _ => True := fun _ _ _ _ => trivial

/-- A script that takes away and ends, on top of what is gone already. -/
lemma total_more (hs : Sheds p) (hp : Script.Total (fun _ => True) p Q) (hP : Lasting P) :
    Script.Total P p fun w => P w ∧ Q w := by
  intro w hw
  obtain ⟨t, ht, hQ⟩ := hp w trivial
  exact ⟨t, ht, hP w t hw ((hs w).ends (World.Fewer.refl w) ht), hQ⟩

lemma total_tell {id : MachineId} {check : Bool} {f : World → World}
    (h : ∀ w, P w → Q ((f w).tick 1)) : Script.Total P (tell obedient id check f) Q := by
  refine Script.Total.ask fun w hw => ?_
  have hup : obedient.lineTo w.clock id = .up := by cases id <;> rfl
  have hobeys : obedient.refuses w.clock id = false := rfl
  simp only [hup, hobeys, Bool.false_eq_true, if_false]
  exact Script.Total.command fun w' hw' => hw' ▸ h w hw

/-- A removal takes away what it is asked to. -/
lemma total_drop {id : MachineId} {check : Bool} {f : Item → Bool} :
    Script.Total (fun _ => True) (drop obedient id check f)
      fun w => ∀ i, f i = true → w.has id i = false := by
  refine total_tell fun w _ i hi => ?_
  have htakes : World.takes f i = true := by cases i <;> simp [World.takes, hi]
  rw [World.has_tick, World.has_remove]
  simp [htakes]

lemma total_pass {id : MachineId} {check : Bool} :
    Script.Total (fun _ => True) (pass obedient id check) (Lacks []) :=
  total_tell fun _ _ q hq => absurd hq (by simp)

/-- Two scripts, each with its own part. -/
lemma total_seq {qs qs' : List (MachineId × Item)} (hp : Script.Total (fun _ => True) p (Lacks qs))
    (hs : Sheds q) (hq : Script.Total (fun _ => True) q (Lacks qs')) :
    Script.Total (fun _ => True) (Script.seq p q) (Lacks (qs ++ qs')) := by
  refine hp.seq ((total_more hs hq (lasting_lacks qs)).weaken (fun _ h => h) fun w h i hi => ?_)
  cases List.mem_append.mp hi with
  | inl hi => exact h.1 i hi
  | inr hi => exact h.2 i hi

/-- A question that everyone answers. -/
lemma gone_obedient (qs : List (MachineId × Item)) (w : World) :
    ∃ b notes, gone obedient qs w [] = .ok (b, notes) ∧ (b = true ↔ Lacks qs w) := by
  have hheard : ∀ n id, (audience obedient w).silent n id = none := by
    intro n id
    cases id <;> rfl
  obtain ⟨notes, h⟩ := Inquiry.noneOf_of_heard hheard qs []
  exact ⟨_, notes, h, lacks_eq⟩

/-- Asked whether it is gone, and removed when it is not. -/
lemma total_unless {qs : List (MachineId × Item)}
    (hp : Script.Total (fun _ => True) p (Lacks qs)) :
    Script.Total (fun _ => True)
      (asked (gone obedient qs) fun done => if done then Script.skip else p) (Lacks qs) := by
  intro w _
  obtain ⟨b, notes, hgone, htruth⟩ := gone_obedient qs w
  cases b with
  | true =>
      refine ⟨w.tick notes.length, ends_asked.mpr ⟨true, notes, hgone, Script.ends_skip.mpr rfl⟩, ?_⟩
      exact (htruth.mp rfl).fewer (World.fewer_tick w _)
  | false =>
      obtain ⟨t, ht, hlacks⟩ := hp (w.tick notes.length) trivial
      exact ⟨t, ends_asked.mpr ⟨false, notes, hgone, ht⟩, hlacks⟩

/-- A loop in which each round takes its own part away. -/
lemma total_each {α : Type} {l : List α} {f : α → Script World} {qs : α → List (MachineId × Item)}
    (hs : ∀ a, Sheds (f a)) (hf : ∀ a, Script.Total (fun _ => True) (f a) (Lacks (qs a))) :
    Script.Total (fun _ => True) (Script.each l f) (Lacks (l.flatMap qs)) := by
  induction l with
  | nil => exact Script.Total.skip fun w _ q hq => absurd hq (by simp)
  | cons a l ih => exact total_seq (hf a) (fun w₀ => Script.Spec.each_keeps fun b _ => hs b w₀) ih

lemma sheds_drop {r : Replies} {id : MachineId} {check : Bool} {f : Item → Bool} :
    Sheds (drop r id check f) := fun _ =>
  keeps_drop fewer_next fun w h => h.trans (World.fewer_remove w id f)

lemma sheds_unless {r : Replies} {qs : List (MachineId × Item)} (h : Sheds p) :
    Sheds (asked (gone r qs) fun done => if done then Script.skip else p) := fun w₀ =>
  keeps_unless fewer_next (h w₀)

lemma total_perHost {items : List Item} {run : MachineId → Script World}
    (hs : ∀ id, Sheds (run id))
    (hrun : ∀ id, Script.Total (fun _ => True) (run id) (Lacks (items.map fun i => (id, i)))) :
    Script.Total (fun _ => True) (perHost obedient (contextOf c) items run).run
      (Lacks ((targetHosts c).flatMap fun id => items.map fun i => (id, i))) := by
  refine total_each (fun id => ?_) fun id => ?_
  · split
    · exact sheds_unless (hs id)
    · exact hs id
  · split
    · exact total_unless (hrun id)
    · exact hrun id

/-- A removal of these and perhaps more. -/
lemma total_dropAll {id : MachineId} {check : Bool} {f : Item → Bool} {items : List Item}
    (h : ∀ i ∈ items, f i = true) : Script.Total (fun _ => True) (drop obedient id check f)
      (Lacks (items.map fun i => (id, i))) := by
  refine total_drop.weaken (fun _ h => h) fun w hw q hq => ?_
  obtain ⟨i, hi, rfl⟩ := List.mem_map.mp hq
  exact hw i (h i hi)

lemma total_dropOne {id : MachineId} {check : Bool} {i : Item} :
    Script.Total (fun _ => True) (drop obedient id check (· = i)) (Lacks [(id, i)]) := by
  have h : ∀ j ∈ [i], decide (j = i) = true := by simp
  exact total_dropAll h

variable {routers : List Router} {ph : HostPhase}

/-- **A host-side phase takes away all its parts**, where everyone answers and obeys. -/
theorem total_hostPhase (hr : c.routers = .ok routers) :
    Script.Total (fun _ => True) (hostPhase obedient (contextOf c) ph).run (Lacks (questions c ph)) := by
  have hpass : ∀ {id check}, Sheds (pass obedient id check) := fun _ => keeps_pass fewer_next
  cases ph with
  | stop =>
      exact total_perHost (fun id w₀ => (sheds_drop w₀).seq (sheds_drop w₀)) fun id =>
        total_seq total_dropOne sheds_drop total_dropOne
  | containers =>
      simp only [hostPhase, containersPhase, questions, List.map_eq_flatMap]
      refine Script.Total.ask fun w _ => ?_
      rw [containers_eq hr]
      exact (total_each (fun n => sheds_unless sheds_drop) fun n => total_unless total_dropOne).weaken
        (fun _ _ => trivial) fun _ h => h
  | volumes =>
      simp only [hostPhase, volumesPhase, questions]
      refine Script.Total.ask fun w _ => ?_
      refine (total_each (fun n w₀ => ?_) fun n => ?_).weaken (fun _ _ => trivial) fun _ h => h
      · exact Script.Spec.each_keeps fun v _ => sheds_unless sheds_drop w₀
      · rw [List.map_eq_flatMap]
        exact total_each (fun v => sheds_unless sheds_drop) fun v => total_unless total_dropOne
  | units =>
      refine total_perHost (fun id w₀ => (sheds_drop w₀).seq ((hpass w₀).seq (hpass w₀))) fun id => ?_
      have hunits : ∀ i ∈ unitPaths (contextOf c), decide (i ∈ unitPaths (contextOf c)) = true :=
        fun i hi => decide_eq_true hi
      refine (total_seq (total_dropAll hunits) (fun w₀ => (hpass w₀).seq (hpass w₀))
        (total_seq total_pass hpass total_pass)).weaken (fun _ h => h) fun w h => ?_
      simpa using h
  | network => exact total_perHost (fun id => sheds_drop) fun id => total_dropOne
  | routes =>
      have hshim : ∀ id, Sheds (if c.multiHost then drop obedient id false (· = .link (shimName c.name))
          else Script.skip) := by
        intro id w₀
        split
        · exact sheds_drop w₀
        · exact keeps_skip
      have hroute : ∀ id s, Sheds (asked (gone obedient [(id, .route s)]) fun done =>
          if done then Script.skip else drop obedient id true (· = .route s)) :=
        fun _ _ => sheds_unless sheds_drop
      refine total_perHost (fun id w₀ =>
        (Script.Spec.each_keeps fun s _ => hroute id s w₀).seq (hshim id w₀)) fun id => ?_
      have hend : Script.Total (fun _ => True)
          (if c.multiHost then drop obedient id false (· = .link (shimName c.name)) else Script.skip)
          (Lacks []) := by
        split
        · exact total_drop.weaken (fun _ h => h) fun w _ q hq => absurd hq (by simp)
        · exact Script.Total.skip fun w _ q hq => absurd hq (by simp)
      have heach := total_each (l := (contextOf c).subnets) (hroute id) fun s =>
        total_unless total_dropOne
      have h := total_seq heach (hshim id) hend
      rw [List.append_nil] at h
      rw [List.map_map, List.map_eq_flatMap]
      exact h
  | state => exact total_perHost (fun id => sheds_drop) fun id => total_dropOne

section Visit

variable {ap : AskedPhase} {m : World} {notes notes' : List (Note MachineId Item)}

lemma ends_visit_done (h : ap.done w [] = .ok (true, notes)) :
    ap.visit.Ends w (w.tick notes.length) :=
  ends_asked.mpr ⟨true, notes, h, Script.ends_skip.mpr rfl⟩

lemma ends_visit_run (h : ap.done w [] = .ok (false, notes))
    (hrun : ap.run.Ends (w.tick notes.length) m) (hdone : ap.done m [] = .ok (true, notes')) :
    ap.visit.Ends w (m.tick notes'.length) := by
  have hconfirm : (asked ap.done fun done => if done then Script.skip else Script.fail).Ends m
      (m.tick notes'.length) := ends_asked.mpr ⟨true, notes', hdone, Script.ends_skip.mpr rfl⟩
  exact ends_asked.mpr ⟨false, notes, h, Script.ends_seq.mpr ⟨m, hrun, hconfirm⟩⟩

end Visit

/-- **A host-side phase gets to its end**, where everyone answers and obeys. -/
theorem total_visit (hr : c.routers = .ok routers) :
    Script.Total (fun _ => True) (hostPhase obedient (contextOf c) ph).visit
      (Lacks (questions c ph)) := by
  suffices hends : ∀ w, ∃ t, (hostPhase obedient (contextOf c) ph).visit.Ends w t by
    intro w _
    obtain ⟨t, ht⟩ := hends w
    exact ⟨t, ht, lacks_of_visit ht⟩
  intro w
  have hasked : ∀ w, ∃ b notes, (hostPhase obedient (contextOf c) ph).done w [] = .ok (b, notes) ∧
      (b = true ↔ Lacks (questions c ph) w) := by
    intro w
    rw [hostPhase_done hr]
    exact gone_obedient _ w
  obtain ⟨b, notes, hdone, -⟩ := hasked w
  cases b with
  | true => exact ⟨_, ends_visit_done hdone⟩
  | false =>
      obtain ⟨m, hm, hlacks⟩ := total_hostPhase hr (w.tick notes.length) trivial
      obtain ⟨b', notes', hdone', htruth⟩ := hasked m
      obtain rfl : b' = true := htruth.mpr hlacks
      exact ⟨_, ends_visit_run hdone hm hdone'⟩

/-- What the cluster's entries in `~/.kube/config` point at. -/
def serverOf (c : Cluster) : String := s!"https://{c.endpointIp.text}:6443"

/-- Some entry of the cluster is in `~/.kube/config`. -/
def HasEntry (c : Cluster) (w : World) : Prop := w.kube.has c.name (serverOf c) = true

lemma kubeconfig_done_eq {notes : List (Note MachineId Item)} :
    (kubeconfigPhase (contextOf c)).done w notes = .ok (!w.kube.has c.name (serverOf c), notes) := rfl

lemma not_hasEntry_of_visit (h : (kubeconfigPhase (contextOf c)).visit.Ends w w') :
    ¬ HasEntry c w' := by
  obtain ⟨u, notes, hdone, rfl⟩ := done_of_visit h
  rw [kubeconfig_done_eq] at hdone
  have hnot := (Prod.mk.inj (Except.ok.inj hdone)).1
  simpa [HasEntry] using hnot

lemma total_kubeconfig :
    Script.Total (fun _ => True) (kubeconfigPhase (contextOf c)).visit fun w => ¬ HasEntry c w := by
  suffices hends : ∀ w, ∃ t, (kubeconfigPhase (contextOf c)).visit.Ends w t by
    intro w _
    obtain ⟨t, ht⟩ := hends w
    exact ⟨t, ht, not_hasEntry_of_visit ht⟩
  intro w
  have hasked : ∀ w : World, (kubeconfigPhase (contextOf c)).done w [] =
      .ok (!w.kube.has c.name (serverOf c), []) := fun w => kubeconfig_done_eq
  cases hhas : w.kube.has c.name (serverOf c) with
  | false => exact ⟨_, ends_visit_done (by rw [hasked, hhas]; rfl)⟩
  | true =>
      obtain ⟨m, hm, hkube⟩ : ∃ m, (kubeconfigPhase (contextOf c)).run.Ends (w.tick 0) m ∧
          m.kube = w.kube.drop c.name (serverOf c) := by
        refine ⟨{ w.tick 0 with kubeBak := w.kube, kube := w.kube.drop c.name (serverOf c) }, ?_, rfl⟩
        have hserver : (contextOf c).server = some (serverOf c) := rfl
        have hname : (contextOf c).name = c.name := rfl
        simp only [kubeconfigPhase, Script.ends_ask, hserver, hname, World.tick_kube, hhas, if_true,
          Script.ends_seq, Script.ends_command, exists_eq_left]
      have hfirst : (kubeconfigPhase (contextOf c)).done w [] = .ok (false, []) := by
        rw [hasked, hhas]
        rfl
      have hlast : (kubeconfigPhase (contextOf c)).done m [] = .ok (true, []) := by
        rw [hasked, hkube, KubeFile.has_drop]
        rfl
      exact ⟨_, ends_visit_run hfirst hm hlast⟩

/-! ### The phase `mesh`, to its end -/

variable {op : Operator}

/-- The cluster may be touched from this operator. -/
def Manages (op : Operator) (c : Cluster) : Prop := ¬ (c.multiHost = true ∧ op.managedFrom c ≠ none)

/-- The cluster and its peers, as far as their files are here, may be touched from this operator,
and the cluster has no peer that it did not have. -/
structure Peers (op : Operator) (c : Cluster) (w : World) : Prop where
  managed : ∀ n ∈ c.name :: meshOf c, ∀ c', w.fleet.cluster n = some c' → Manages op c'
  fewer : ∀ c', w.fleet.cluster c.name = some c' → meshOf c' ⊆ meshOf c

lemma peerOf_eq_ok {f : Fleet} {n : String} (h : ∀ c', f.cluster n = some c' → Manages op c') :
    peerOf (op.loadCluster f n) = .ok (f.cluster n) := by
  rw [Operator.loadCluster]
  cases hfile : f.cluster n with
  | none => rfl
  | some c' =>
      have hmanages := h c' hfile
      rw [Manages] at hmanages
      simp only [Checked.ofOption, Checked.ok_bind, Checked.refuseIf, hmanages, if_false]
      rfl

lemma manages_of_peerOf {f : Fleet} {n : String} {pc : Cluster}
    (h : peerOf (op.loadCluster f n) = .ok (some pc)) : Manages op pc := by
  have hfile := loaded_of_peerOf h
  intro hmanaged
  rw [Operator.loadCluster, hfile] at h
  simp only [Checked.ofOption, Checked.ok_bind, Checked.refuseIf, hmanaged, ne_eq,
    not_false_eq_true, and_self, if_true, Checked.error_bind, peerOf] at h
  exact absurd h (by simp)

lemma meshOf_withoutPeer {n p : String} :
    p ∈ meshOf (withoutPeer c n) ↔ p ∈ meshOf c ∧ p ≠ n := by
  rw [withoutPeer, withPeers]
  cases hst : c.status with
  | none => simp [meshOf, hst]
  | some st => simp [meshOf, hst]

lemma Manages.withoutPeer (h : Manages op c) (n : String) : Manages op (withoutPeer c n) := by
  rw [Delete.withoutPeer, withPeers]
  cases hst : c.status with
  | none => exact h
  | some st =>
      have hmanaged : op.managedFrom (c.withStatus { st with mesh := sorted ((meshOf c).filter (· ≠ n)) }) =
          op.managedFrom c := by
        simp [Operator.managedFrom, hst]
      rw [Manages, hmanaged]
      exact h

lemma saving_peers : Saving op (Peers op c) fun c' =>
    Manages op c' ∧ (c'.name = c.name → meshOf c' ⊆ meshOf c) where
  tick _ _ h := ⟨h.managed, h.fewer⟩
  putState _ _ _ h := ⟨h.managed, h.fewer⟩
  save w c' hgood h := by
    have hcluster : ∀ n c'', (w.fleet.save c').cluster n = some c'' →
        (n = c'.name ∧ c'' = c') ∨ w.fleet.cluster n = some c'' := by
      intro n c'' hn
      by_cases hname : n = c'.name
      · subst hname
        simp only [Fleet.save, Function.update_self] at hn
        exact Or.inl ⟨rfl, (Option.some.inj hn).symm⟩
      · simp only [Fleet.save, Function.update_of_ne hname] at hn
        exact Or.inr hn
    refine ⟨fun n hn c'' hc'' => ?_, fun c'' hc'' => ?_⟩
    · rcases hcluster n c'' hc'' with ⟨-, rfl⟩ | hold
      · exact hgood.1
      · exact h.managed n hn c'' hold
    · rcases hcluster _ c'' hc'' with ⟨hname, rfl⟩ | hold
      · exact hgood.2 hname.symm
      · exact h.fewer c'' hold
  withoutPeer c' n h := by
    refine ⟨h.1.withoutPeer n, fun hname p hp => ?_⟩
    rw [(alike_withoutPeer c' n).name] at hname
    exact h.2 hname (meshOf_withoutPeer.mp hp).1
  loaded w n pc hw hload := by
    refine ⟨manages_of_peerOf hload, fun hname => ?_⟩
    have hfile := loaded_of_peerOf hload
    rw [← w.fleet.named hfile, hname] at hfile
    exact hw.fewer pc hfile

/-- A script that always gets to its end. -/
abbrev Halts (p : Script World) : Prop := Script.Total (fun _ => True) p fun _ => True

lemma halts_each {α : Type} {l : List α} {f : α → Script World} (h : ∀ a ∈ l, Halts (f a)) :
    Halts (Script.each l f) := by
  induction l with
  | nil => exact Script.Total.skip fun _ _ => trivial
  | cons a l ih => exact (h a (by simp)).seq (ih fun b hb => h b (List.mem_cons_of_mem a hb))

lemma halts_pass {id : MachineId} {check : Bool} : Halts (pass obedient id check) :=
  total_tell fun _ _ => trivial

lemma halts_saveCluster : Halts (saveCluster obedient c) := by
  have hsave : Halts (Script.command fun w => { w with fleet := w.fleet.save c }) :=
    Script.Total.command fun _ _ => trivial
  exact hsave.seq (halts_each fun _ _ => total_tell fun _ _ => trivial)

lemma halts_forgetPeer {peer : String} : Halts (forgetPeer obedient c peer) :=
  halts_pass.seq (halts_pass.seq halts_saveCluster)

lemma halts_disconnect {pc : Cluster} {peer : String} : Halts (disconnect obedient c pc peer) :=
  halts_pass.seq (halts_saveCluster.seq (halts_saveCluster.seq halts_pass))

lemma total_leavePeer {c' : Cluster} {peer : String} {running : Bool} (h : peer ∈ meshOf c) :
    Script.Total (Peers op c) (leavePeer obedient op running c' peer) fun _ => True := by
  rw [leavePeer]
  refine Script.Total.ask fun w hw => ?_
  rw [peerOf_eq_ok (hw.managed peer (List.mem_cons_of_mem _ h))]
  have htick : ∀ n, Script.Total (fun w' => w' = w) (Script.command (World.tick n)) fun _ => True :=
    fun n => Script.Total.command fun _ _ => trivial
  refine (htick _).seq ?_
  cases (w.fleet.cluster peer).filter fun pc => (asking obedient op w).stateOf pc = .running with
  | none => exact halts_forgetPeer
  | some pc =>
      dsimp only
      split
      · exact halts_disconnect
      · exact halts_forgetPeer.seq halts_forgetPeer

/-- The peers are left one by one, until none is recorded. -/
lemma total_leavePeers {c' : Cluster} {peers : List String} {running : Bool} (hpeers : peers ⊆ meshOf c)
    (hgood : Manages op c' ∧ (c'.name = c.name → meshOf c' ⊆ meshOf c)) (hall : meshOf c' ⊆ peers) :
    Script.Total (Peers op c) (leavePeers obedient op running c' peers) fun _ => True := by
  induction peers generalizing c' with
  | nil =>
      rw [leavePeers, if_pos (List.subset_nil.mp hall)]
      exact Script.Total.skip fun _ _ => trivial
  | cons peer rest ih =>
      rw [leavePeers]
      have hpeer : peer ∈ meshOf c := hpeers (by simp)
      have hleave : Script.Total (Peers op c) (leavePeer obedient op running c' peer)
          fun w => True ∧ Peers op c w :=
        (total_leavePeer hpeer).and_spec (keeps_leavePeer saving_peers hgood)
      refine (hleave.weaken (fun _ h => h) fun _ h => h.2).seq (ih ?_ ?_ ?_)
      · exact fun p hp => hpeers (List.mem_cons_of_mem peer hp)
      · exact saving_peers.withoutPeer c' peer hgood
      · intro p hp
        obtain ⟨hmem, hne⟩ := meshOf_withoutPeer.mp hp
        exact (List.mem_cons.mp (hall hmem)).resolve_left hne

/-- **The phase `mesh` gets to its end**, where everyone answers and obeys. -/
lemma total_mesh {c' : Cluster}
    (hgood : Manages op c' ∧ meshOf c' ⊆ meshOf c) :
    Script.Total (Peers op c) (meshVisit obedient (contextOf c') op) fun _ => True := by
  simp only [meshVisit, contextOf]
  split
  · exact Script.Total.skip fun _ _ => trivial
  · refine Script.Total.ask fun w hw => ?_
    have htick : Script.Total (fun w' => w' = w) (Script.command (World.tick c'.nodeHosts.length))
        (Peers op c) :=
      Script.Total.command fun w' hw' => hw' ▸ saving_peers.tick w _ hw
    exact htick.seq (total_leavePeers hgood.2 ⟨hgood.1, fun _ => hgood.2⟩ fun _ h => h)

/-! ### A whole delete -/

/-- **The phases of a delete get to their end**, where everyone answers and obeys. -/
theorem total_runPhases {c' : Cluster} (hr : c'.routers = .ok routers)
    (hgood : Manages op c' ∧ meshOf c' ⊆ meshOf c) :
    Script.Total (Peers op c) (runPhases obedient (contextOf c') op) fun _ => True := by
  have hphases : Halts (Script.each (phasesAfterMesh obedient (contextOf c')) AskedPhase.visit) := by
    refine halts_each fun ap hmem => ?_
    cases List.mem_append.mp hmem with
    | inl hmem =>
        obtain ⟨ph, -, rfl⟩ := List.mem_map.mp hmem
        exact (total_visit hr).weaken (fun _ h => h) fun _ _ => trivial
    | inr hmem =>
        rw [List.mem_singleton.mp hmem]
        exact total_kubeconfig.weaken (fun _ h => h) fun _ _ => trivial
  exact (total_mesh hgood).seq hphases

/-- Nothing of the cluster is left. -/
structure Clean (c : Cluster) (w : World) : Prop where
  hosts : ∀ id ∈ targetHosts c, NothingLeft c w id
  kubeconfig : ¬ HasEntry c w

/-- Running the delete again succeeds, and leaves everything clean whenever it does. -/
structure Resumes (op : Operator) (c : Cluster) (w : World) : Prop where
  succeeds : ∃ w', (deleteCluster obedient op c.name).Ends w w'
  clean : ∀ r w', (deleteCluster r op c.name).Ends w w' → Clean c w'

variable {r : Replies}

lemma lacks_of_each {phs : List HostPhase}
    (h : (Script.each (phs.map (hostPhase r (contextOf c))) AskedPhase.visit).Ends w w') :
    ∀ ph ∈ phs, Lacks (questions c ph) w' := by
  induction phs generalizing w with
  | nil => simp
  | cons ph phs ih =>
      obtain ⟨m, hm, hrest⟩ := Script.ends_seq.mp h
      intro ph' hph'
      cases List.mem_cons.mp hph' with
      | inl he =>
          have hsheds : Sheds (Script.each (phs.map (hostPhase r (contextOf c))) AskedPhase.visit) :=
            fun w₀ => Script.Spec.each_keeps fun ap hap => by
              obtain ⟨ph, -, rfl⟩ := List.mem_map.mp hap
              exact sheds_hostPhase ph w₀
          exact he ▸ (lacks_of_visit hm).fewer ((hsheds m).ends (World.Fewer.refl m) hrest)
      | inr hmem => exact ih hrest ph' hmem

/-- **A delete with `cluster.yaml` that succeeds leaves everything clean.** -/
theorem clean_of_runPhases (h : (runPhases r (contextOf c) op).Ends w w') (hw : Filed c w) :
    Clean c w' := by
  have hlisted := (spec_runPhases.ends hw h).listed
  obtain ⟨m, -, hphases⟩ := Script.ends_seq.mp h
  rw [phasesAfterMesh, Script.ends_each_append] at hphases
  obtain ⟨u, hu, hkube⟩ := hphases
  rw [Script.each_cons, Script.each_nil, Script.ends_seq] at hkube
  obtain ⟨t, ht, hend⟩ := hkube
  obtain rfl := Script.ends_skip.mp hend
  have hlacks : ∀ ph, Lacks (questions c ph) w' := fun ph =>
    (lacks_of_each hu ph (by cases ph <;> simp)).fewer ((sheds_kubeconfig u).ends (World.Fewer.refl u) ht)
  exact ⟨fun id hid => nothingLeft_of_lacks hlisted hlacks hid, not_hasEntry_of_visit ht⟩

/-! ### Stopped and run again -/

/-- A cluster as create left it: its `cluster.yaml` on this operator, the containers and volumes
where that places them, and peers that were connected from here. -/
structure Deletable (op : Operator) (c : Cluster) (w : World) : Prop where
  file : w.fleet.cluster c.name = some c
  listed : Listed c w
  routers : ∃ routers, c.routers = .ok routers
  managed : ∀ n ∈ c.name :: meshOf c, ∀ c', w.fleet.cluster n = some c' → Manages op c'

lemma Deletable.peers (h : Deletable op c w) : Peers op c w where
  managed := h.managed
  fewer c' hc' := by
    obtain rfl := Option.some.inj (h.file.symm.trans hc')
    exact fun _ hp => hp

lemma Sheds.keeps (h : Sheds p) (hP : Lasting P) : Keeps P p where
  stops hw ht := hP _ _ hw ((h _).stops (World.Fewer.refl _) ht)
  ends hw ht := hP _ _ hw ((h _).ends (World.Fewer.refl _) ht)

lemma lasting_peers : Lasting (Peers op c) := by
  intro w w' h hf
  have hfile : ∀ n c', w'.fleet.cluster n = some c' → w.fleet.cluster n = some c' := by
    intro n c' hc'
    cases hf.files n with
    | inl he => rwa [he] at hc'
    | inr he => exact absurd (he.symm.trans hc') (by simp)
  exact ⟨fun n hn c' hc' => h.managed n hn c' (hfile n c' hc'), fun c' hc' => h.fewer c' (hfile _ c' hc')⟩

/-- The peers' files are kept by a delete. -/
lemma keeps_peers : Keeps (Peers op c) (deleteCluster r op c.name) := by
  rw [deleteCluster]
  refine keeps_ask fun w hw => ?_
  cases hload : loadForDelete op w.fleet c.name with
  | error e => exact keeps_fail
  | ok found =>
      refine keeps_asked saving_peers.tick fun there => ?_
      cases there with
      | false => exact keeps_fail
      | true =>
          refine Script.Spec.seq (keeps_mesh saving_peers fun c' hc' => ?_)
            (Script.Spec.each_keeps fun ap hap => ?_)
          · obtain rfl : found = some c' := hc'
            simp only [loadForDelete, Checked.bind_eq_ok] at hload
            obtain ⟨-, -, hload⟩ := hload
            exact saving_peers.loaded w _ c' hw hload
          · cases List.mem_append.mp hap with
            | inl hmem =>
                obtain ⟨ph, -, rfl⟩ := List.mem_map.mp hmem
                exact (sheds_hostPhase ph).keeps lasting_peers
            | inr hmem =>
                rw [List.mem_singleton.mp hmem]
                exact sheds_kubeconfig.keeps lasting_peers

/-- The operator is always a target. -/
lemma operator_mem_targets : none ∈ targetHosts c := by
  rw [targetHosts]
  cases c.spec.hosts with
  | none => simp
  | some hosts =>
      dsimp only
      split
      · simp
      · rename_i hmine
        obtain ⟨mine, hmem⟩ := List.exists_mem_of_ne_nil _ (mt List.isEmpty_iff.mpr hmine)
        obtain ⟨host, hhost, rfl⟩ := List.mem_map.mp hmem
        have hssh : host.ssh = none := by simpa using List.of_mem_filter hhost
        exact List.mem_append_right _ (hssh ▸ hmem)

/-- What `found` asks. -/
def foundQuestions (x : Context) : List (MachineId × Item) :=
  x.targets.flatMap fun id => [(id, .stateDir x.name), (id, .unitDir x.name),
    (id, .systemd (x.name ++ ".target")), (id, .network x.name)]

lemma found_eq_ok {there : Bool} {notes notes' : List (Note MachineId Item)} :
    found r x w notes = .ok (there, notes') ↔
      gone r (foundQuestions x) w notes = .ok (!there, notes') := by
  rw [found, Inquiry.bind_apply, Checked.bind_eq_ok]
  constructor
  · rintro ⟨⟨b, asked⟩, hgone, hb⟩
    obtain ⟨rfl, rfl⟩ := Prod.mk.inj (Except.ok.inj hb)
    rw [Bool.not_not]
    exact hgone
  · intro hgone
    refine ⟨(!there, notes'), hgone, ?_⟩
    rw [Inquiry.pure_apply, Bool.not_not]

/-- Without `cluster.yaml`, and with nothing left here, the cluster is not found. -/
lemma not_ends_of_gone (h : Deleting c w) (hnone : w.fleet.cluster c.name = none) :
    ¬ (deleteCluster r op c.name).Ends w w' := by
  intro hends
  have hclean : ∀ id ∈ targetHosts c, NothingLeft c w id := by
    refine (h.onFile.resolve_left fun hon => ?_).2
    obtain ⟨c', hc', -⟩ := hon
    exact absurd (hnone.symm.trans hc') (by simp)
  have hhere := hclean none operator_mem_targets
  rw [deleteCluster, Script.ends_ask] at hends
  cases hload : loadForDelete op w.fleet c.name with
  | error e =>
      rw [hload] at hends
      exact Script.not_ends_fail hends
  | ok found' =>
      rw [hload] at hends
      obtain rfl : none = found' := hnone.symm.trans (loadForDelete_eq_ok hload)
      obtain ⟨there, notes, hfound, hends⟩ := ends_asked.mp hends
      cases there with
      | false => exact Script.not_ends_fail hends
      | true =>
          refine absurd ((gone_eq_ok (found_eq_ok.mp hfound)).1.mpr ?_) (by simp)
          intro q hq
          simp only [foundQuestions, Context.targets, List.flatMap_cons, List.flatMap_nil, List.append_nil,
            List.mem_cons, List.not_mem_nil, or_false] at hq
          rcases hq with rfl | rfl | rfl | rfl
          · exact hhere .state _ (by simp [parts])
          · exact hhere .units _ (by simp [parts, unitPaths, contextOf])
          · exact hhere .units _ (by simp [parts, unitPaths, contextOf])
          · exact hhere .network _ (by simp [parts])

/-- A cluster that is here, and may be touched from here, is loaded. -/
lemma loadForDelete_of_file {c' : Cluster} (hpeers : Peers op c w)
    (hfile : w.fleet.cluster c.name = some c') :
    loadForDelete op w.fleet c.name = .ok (some c') := by
  have hvalid : Operator.validateName c.name = .ok () := by
    rw [Operator.validateName, Checked.refuseIf_eq_ok, Bool.not_eq_false]
    exact c.metadata.name.ok
  have hmanaged := hpeers.managed c.name (List.mem_cons_self ..)
  rw [loadForDelete, hvalid, Checked.ok_bind, peerOf_eq_ok hmanaged, hfile]

/-- **While there is a `cluster.yaml` the delete can succeed.** -/
theorem succeeds_of_file {c' : Cluster} (hpeers : Peers op c w) (hr : c'.routers = .ok routers)
    (hfile : w.fleet.cluster c.name = some c') :
    ∃ w', (deleteCluster obedient op c.name).Ends w w' := by
  have hcontext : contextOf c' = ⟨c.name, some c'⟩ := by rw [contextOf, w.fleet.named hfile]
  obtain ⟨b, notes, hgone, htruth⟩ := gone_obedient (foundQuestions ⟨c.name, some c'⟩) w
  obtain rfl : b = false := by
    rw [← Bool.not_eq_true, htruth]
    intro hlacks
    have hstate : w.has none (.stateDir c.name) = true := by simp [World.has, hfile]
    refine absurd hstate ?_
    rw [hlacks (none, .stateDir c.name) ?_]
    · simp
    · exact List.mem_flatMap.mpr ⟨none, operator_mem_targets, by simp⟩
  have hgood : Manages op c' ∧ meshOf c' ⊆ meshOf c :=
    ⟨hpeers.managed c.name (List.mem_cons_self ..) c' hfile, hpeers.fewer c' hfile⟩
  obtain ⟨w', hw', -⟩ := total_runPhases hr hgood (w.tick notes.length)
    (saving_peers.tick w _ hpeers)
  refine ⟨w', ?_⟩
  rw [deleteCluster, Script.ends_ask, loadForDelete_of_file hpeers hfile]
  exact ends_asked.mpr ⟨true, notes, found_eq_ok.mpr hgone, hcontext ▸ hw'⟩

/-- A delete with a `cluster.yaml` that succeeds has gone through its phases. -/
lemma runPhases_of_ends {c' : Cluster} (hload : loadForDelete op w.fleet c.name = .ok (some c'))
    (hends : (deleteCluster r op c.name).Ends w w') :
    ∃ n, (runPhases r (contextOf c') op).Ends (w.tick n) w' := by
  have hcontext : contextOf c' = ⟨c.name, some c'⟩ := by
    rw [contextOf, w.fleet.named (loadForDelete_eq_ok hload)]
  rw [deleteCluster, Script.ends_ask, hload] at hends
  obtain ⟨there, notes, -, hends⟩ := ends_asked.mp hends
  cases there with
  | false => exact absurd hends Script.not_ends_fail
  | true => exact ⟨notes.length, hcontext ▸ hends⟩

/-- **While there is a `cluster.yaml` the delete can be resumed.** -/
theorem resumes_of_file (h : Deleting c w) (hpeers : Peers op c w) (hr : c.routers = .ok routers)
    (hfile : ∃ c', w.fleet.cluster c.name = some c') : Resumes op c w := by
  obtain ⟨c', hc'⟩ := hfile
  have halike : Alike c c' := by
    obtain ⟨c'', hc'', halike⟩ := h.onFile.resolve_right fun hgone =>
      absurd (hgone.1.symm.trans hc') (by simp)
    rwa [← Option.some.inj (hc''.symm.trans hc')]
  have hfiled : ∀ n, Filed c' (w.tick n) := fun n =>
    ⟨halike.listed (h.listed.fewer (World.fewer_tick w n)), c', halike.name ▸ hc', Alike.refl c'⟩
  have hclean : ∀ {w'}, Clean c' w' → Clean c w' := by
    obtain ⟨st, rfl⟩ := halike
    exact fun h => ⟨h.hosts, h.kubeconfig⟩
  have hr' : c'.routers = .ok routers := by
    obtain ⟨st, rfl⟩ := halike
    exact hr
  refine ⟨succeeds_of_file hpeers hr' hc', fun r w' hends => ?_⟩
  obtain ⟨n, hn⟩ := runPhases_of_ends (loadForDelete_of_file hpeers hc') hends
  exact hclean (clean_of_runPhases hn (hfiled n))

/-- Stopped between the operator's state directory and the entry in `~/.kube/config`. -/
def Stranded (c : Cluster) (w : World) : Prop := w.fleet.cluster c.name = none ∧ HasEntry c w

/-- A delete can be resumed from wherever it was stopped, and ends as one that was not. -/
structure CrashResumable (op : Operator) (c : Cluster) (w₀ : World)
    (ts : List (Trace.Transition World Replies)) : Prop where
  uninterrupted : Resumes op c w₀
  stopped : ∀ t ∈ ts, Clean c t.target ∨ Resumes op c t.target

lemma clean_or_resumes (h : Deleting c w) (hpeers : Peers op c w) (hr : c.routers = .ok routers) :
    Clean c w ∨ Resumes op c w ↔ ¬ Stranded c w := by
  cases hfile : w.fleet.cluster c.name with
  | some c' =>
      refine ⟨fun _ hs => absurd (hs.1.symm.trans hfile) (by simp), fun _ => Or.inr ?_⟩
      exact resumes_of_file h hpeers hr ⟨c', hfile⟩
  | none =>
      have hclean : ∀ id ∈ targetHosts c, NothingLeft c w id := by
        refine (h.onFile.resolve_left fun hon => ?_).2
        obtain ⟨c', hc', -⟩ := hon
        exact absurd (hfile.symm.trans hc') (by simp)
      constructor
      · rintro (hc | hresumes) hstranded
        · exact hc.kubeconfig hstranded.2
        · obtain ⟨w', hw'⟩ := hresumes.succeeds
          exact not_ends_of_gone h hfile hw'
      · exact fun hnot => Or.inl ⟨hclean, fun hentry => hnot ⟨hfile, hentry⟩⟩

variable {w₀ : World} {ts : List (Trace.Transition World Replies)}

/-- **A delete is crash-resumable exactly when it was never stopped between the operator's state
directory and the entry in `~/.kube/config`**: from there it does not find the cluster any more. -/
theorem crashResumable_iff (h : Deletable op c w₀)
    (run : Trace.Run (DeleteStep op c.name) w₀ ts w) :
    CrashResumable op c w₀ ts ↔ ∀ t ∈ ts, ¬ Stranded c t.target := by
  obtain ⟨routers, hr⟩ := h.routers
  have h₀ : Deleting c w₀ ∧ Peers op c w₀ := ⟨deleting_of_file h.file h.listed, h.peers⟩
  have hstep : ∀ t, DeleteStep op c.name t → True → Deleting c t.source ∧ Peers op c t.source →
      Deleting c t.target ∧ Peers op c t.target :=
    fun _ ht _ hs => ⟨spec_deleteCluster.stops hs.1 ht, keeps_peers.stops hs.2 ht⟩
  have hall := (run.invariant (I := fun w => Deleting c w ∧ Peers op c w) h₀ hstep
    fun _ _ => trivial).2
  have hiff : ∀ t ∈ ts, (Clean c t.target ∨ Resumes op c t.target) ↔ ¬ Stranded c t.target :=
    fun t ht => clean_or_resumes (hall t ht).2.1 (hall t ht).2.2 hr
  constructor
  · exact fun hres t ht => (hiff t ht).mp (hres.stopped t ht)
  · intro hnot
    exact ⟨resumes_of_file h₀.1 h₀.2 hr ⟨c, h.file⟩, fun t ht => (hiff t ht).mpr (hnot t ht)⟩

/-! ### Stopped at the last command but two -/

/-- The hosts of the split cluster, with its entry in `~/.kube/config`. -/
def usedWorld : World :=
  { splitWorld with
    kube := .config
      { clusters := [⟨"dev", "https://172.22.0.253:6443", ""⟩], users := [⟨"dev-admin", ""⟩]
        contexts := [⟨"dev", ""⟩], current := "dev" } }

lemma deletable_usedWorld : Deletable plainOperator splitCluster usedWorld where
  file := by simp [usedWorld, splitWorld, Fleet.save]
  listed := ⟨listed_splitWorld.containers, listed_splitWorld.volumes⟩
  routers := Checked.exists_eq_ok (by decide +kernel)
  managed := by
    intro n hn c' hc'
    obtain rfl : n = splitCluster.name := List.mem_singleton.mp hn
    obtain rfl : splitCluster = c' := by simpa [usedWorld, splitWorld, Fleet.save] using hc'
    simp [Manages, Operator.managedFrom, splitCluster, plainOperator]

/-- A delete that finished. -/
theorem crashResumable_usedWorld : ∃ t : Trace.Transition World Replies,
    DeleteStep plainOperator splitCluster.name t ∧
      t.target.fleet.cluster splitCluster.name = none ∧
        CrashResumable plainOperator splitCluster usedWorld [t] := by
  have hrun : ((deleteCluster obedient plainOperator splitCluster.name).result usedWorld).any
      (fun w => (w.fleet.cluster splitCluster.name).isNone &&
        !w.kube.has splitCluster.name (serverOf splitCluster)) = true := by
    decide +kernel
  obtain ⟨w, hw, hgone⟩ := (Option.any_eq_true _ _).mp hrun
  rw [Bool.and_eq_true, Option.isNone_iff_eq_none, Bool.not_eq_true'] at hgone
  have hstep : DeleteStep plainOperator splitCluster.name ⟨usedWorld, obedient, w⟩ :=
    (Script.result_eq_some.mp hw).reaches
  refine ⟨_, hstep, hgone.1, ?_⟩
  refine (crashResumable_iff deletable_usedWorld (Trace.Run.snoc Trace.Run.nil hstep)).mpr ?_
  intro t ht hstranded
  obtain rfl := List.mem_singleton.mp ht
  exact absurd (hstranded.2.symm.trans hgone.2) (by simp)

/-- Stopped once the operator's state directory is gone: the entry stays for good. -/
theorem not_crashResumable_stopped :
    ¬ ∀ (op : Operator) (c : Cluster) (w₀ w : World) (ts : List (Trace.Transition World Replies)),
      Deletable op c w₀ → Trace.Run (DeleteStep op c.name) w₀ ts w →
        CrashResumable op c w₀ ts := by
  intro hall
  have hrun : ((deleteCluster obedient plainOperator splitCluster.name usedWorld).passed.any
      fun w => (w.fleet.cluster splitCluster.name).isNone &&
        w.kube.has splitCluster.name (serverOf splitCluster)) = true := by
    decide +kernel
  obtain ⟨w, hw, hstranded⟩ := List.any_eq_true.mp hrun
  rw [Bool.and_eq_true, Option.isNone_iff_eq_none] at hstranded
  have hstep : DeleteStep plainOperator splitCluster.name ⟨usedWorld, obedient, w⟩ := Or.inr hw
  have hres := hall _ _ _ _ _ deletable_usedWorld (Trace.Run.snoc Trace.Run.nil hstep)
  have hdeleting := spec_deleteCluster.stops
    (deleting_of_file deletable_usedWorld.file deletable_usedWorld.listed) hstep
  cases hres.stopped ⟨usedWorld, obedient, w⟩ (by simp) with
  | inl hclean => exact hclean.kubeconfig hstranded.2
  | inr hresumes =>
      obtain ⟨w', hw'⟩ := hresumes.succeeds
      exact not_ends_of_gone hdeleting hstranded.1 hw'

end Tk8s.Delete
