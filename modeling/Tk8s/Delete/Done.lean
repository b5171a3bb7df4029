import Tk8s.Delete.Phases

/-!
What the host-side phases of `delete cluster` say and do.

* `Keeps`, `Touches`: what a phase can remove; `keeps_hostPhase`: **a phase keeps what its removals
  keep**.
* `Saving`, `keeps_mesh`: **what the phase `mesh` keeps**.
* `Sheds`: a script that only takes away; `sheds_hostPhase`: every phase after `mesh` is one.
* `part`: what a phase removes from one host; `questions`: the same, host by host, in the order asked.
* `hostPhase_done`: `done` asks exactly these questions; `noted_of_done`: **a phase found done has
  heard from every host that its part is gone**.
* `lacks_of_visit`: **a phase that was visited to its end is gone everywhere**.
-/

namespace Tk8s.Delete

open Net

/-! ### What the phases keep -/

/-- A script that keeps something, wherever it is stopped. -/
abbrev Keeps (I : World → Prop) (p : Script World) : Prop := Script.Spec I p I I

variable {r : Replies} {x : Context} {p q : Script World} {I : World → Prop}

lemma keeps_skip : Keeps I Script.skip := Script.Spec.skip fun _ h => ⟨h, h⟩

lemma keeps_fail : Keeps I Script.fail := Script.Spec.fail fun _ h => h

lemma keeps_ask {k : World → Script World} (h : ∀ w, I w → Keeps I (k w)) : Keeps I (Script.ask k) :=
  Script.Spec.ask fun w hw => (h w hw).weaken (fun _ he => he ▸ hw) (fun _ h => h) fun _ h => h

section Tick

variable (htick : ∀ w n, I w → I (World.tick n w))

include htick

lemma keeps_asked {α : Type} {qs : World → Asking α} {k : α → Script World} (h : ∀ a, Keeps I (k a)) :
    Keeps I (asked qs k) := by
  refine spec_asked (fun w hw => hw) fun w a notes hw _ => ?_
  have hnext := htick w notes.length hw
  exact ⟨hnext, (h a).weaken (fun _ he => he ▸ hnext) (fun _ h => h) fun _ h => h⟩

lemma keeps_drop {id : MachineId} {check : Bool} {f : Item → Bool}
    (hremove : ∀ w, I w → I (w.remove id f)) : Keeps I (drop r id check f) := by
  refine spec_tell (fun w hw => ⟨hw, hremove w hw⟩) (fun w hw => ?_) fun _ w hw => ?_
  · exact ⟨htick _ 1 (hremove w hw), htick _ 1 (hremove w hw)⟩
  · exact ⟨htick w 1 hw, htick w 1 hw⟩

lemma keeps_pass {id : MachineId} {check : Bool} : Keeps I (pass r id check) :=
  spec_tell (fun _ hw => ⟨hw, hw⟩) (fun w hw => ⟨htick w 1 hw, htick w 1 hw⟩)
    fun _ w hw => ⟨htick w 1 hw, htick w 1 hw⟩

/-- Asked whether it is gone, and removed when it is not. -/
lemma keeps_unless {qs : List (MachineId × Item)} (h : Keeps I p) :
    Keeps I (asked (gone r qs) fun done => if done then Script.skip else p) := by
  refine keeps_asked htick fun done => ?_
  cases done with
  | true => exact keeps_skip
  | false => exact h

lemma keeps_perHost {items : List Item} {run : MachineId → Script World}
    (h : ∀ id, Keeps I (run id)) : Keeps I (perHost r x items run).run := by
  refine Script.Spec.each_keeps fun id _ => ?_
  split
  · exact keeps_unless htick (h id)
  · exact h id

/-- What the phases after `mesh` are visited for is kept by the visit. -/
lemma keeps_visit {ph : AskedPhase} (h : Keeps I ph.run) : Keeps I ph.visit := by
  refine keeps_asked htick fun done => ?_
  cases done with
  | true => exact keeps_skip
  | false =>
      refine Script.Spec.seq h (keeps_asked htick fun done => ?_)
      cases done with
      | true => exact keeps_skip
      | false => exact keeps_fail

end Tick

/-- What a phase can remove; containers and volumes go by the names the run has. -/
def Touches (x : Context) (named : String → Prop) : HostPhase → Item → Prop
  | .stop, i => i ∈ [Item.active (x.name ++ ".target"), .active (x.name ++ "-network.service")]
  | .containers, i => ∃ n, named n ∧ i = .container n
  | .volumes, i => ∃ n, named n ∧ ∃ v ∈ nodeVolumes n, i = .volume v
  | .units, i => i ∈ unitPaths x
  | .network, i => i = .network x.name
  | .routes, i => (∃ s ∈ x.subnets, i = .route s) ∨
      ∃ c ∈ x.cluster, c.multiHost = true ∧ i = .link (shimName c.name)
  | .state, i => i = .stateDir x.name

/-- The names a run goes by in a state. -/
def Names (x : Context) (w : World) (n : String) : Prop :=
  n ∈ x.nodeNames w ∨ ∃ names, x.containers w = .ok names ∧ n ∈ names

/-- **A phase keeps what its removals keep.** -/
theorem keeps_hostPhase (named : String → Prop) {ph : HostPhase}
    (htick : ∀ w n, I w → I (World.tick n w)) (hnamed : ∀ w n, I w → Names x w n → named n)
    (hremove : ∀ w id f, (∀ i, f i = true → Touches x named ph i) → I w → I (w.remove id f)) :
    Keeps I (hostPhase r x ph).run := by
  have hdrop : ∀ {id check f}, (∀ i, f i = true → Touches x named ph i) →
      Keeps I (drop r id check f) := fun hf => keeps_drop htick fun w hw => hremove w _ _ hf hw
  have hone : ∀ {i j : Item}, decide (j = i) = true → j = i := fun h => of_decide_eq_true h
  cases ph with
  | stop =>
      refine keeps_perHost htick fun id => Script.Spec.seq (hdrop fun i hi => ?_) (hdrop fun i hi => ?_)
      · simp [Touches, hone hi]
      · simp [Touches, hone hi]
  | containers =>
      simp only [hostPhase, containersPhase]
      refine keeps_ask fun w hw => ?_
      cases hnames : x.containers w with
      | error e => exact keeps_fail
      | ok names =>
          refine Script.Spec.each_keeps fun n hn => keeps_unless htick (hdrop fun i hi => ?_)
          exact ⟨n, hnamed w n hw (Or.inr ⟨names, hnames, hn⟩), hone hi⟩
  | volumes =>
      simp only [hostPhase, volumesPhase]
      refine keeps_ask fun w hw => Script.Spec.each_keeps fun n hn => ?_
      refine Script.Spec.each_keeps fun v hv => keeps_unless htick (hdrop fun i hi => ?_)
      exact ⟨n, hnamed w n hw (Or.inl hn), v, hv, hone hi⟩
  | units =>
      refine keeps_perHost htick fun id => Script.Spec.seq (hdrop fun i hi => ?_)
        (Script.Spec.seq (keeps_pass htick) (keeps_pass htick))
      have hmem : i ∈ unitPaths x := of_decide_eq_true hi
      exact hmem
  | network => exact keeps_perHost htick fun id => hdrop fun i hi => hone hi
  | routes =>
      refine keeps_perHost htick fun id => Script.Spec.seq (Script.Spec.each_keeps fun s hs => ?_) ?_
      · exact keeps_unless htick (hdrop fun i hi => Or.inl ⟨s, hs, hone hi⟩)
      · cases hc : x.cluster with
        | none => exact keeps_skip
        | some c =>
            by_cases hmulti : c.multiHost = true
            · simp only [hmulti, if_true]
              exact hdrop fun i hi => Or.inr ⟨c, hc, hmulti, hone hi⟩
            · simp only [hmulti, Bool.false_eq_true, if_false]
              exact keeps_skip
  | state => exact keeps_perHost htick fun id => hdrop fun i hi => hone hi

/-- `KUBECONFIG` leaves the hosts and the `cluster.yaml` files alone. -/
lemma keeps_kubeconfig
    (h : ∀ (w : World) kube kubeBak, I w → I { w with kube := kube, kubeBak := kubeBak }) :
    Keeps I (kubeconfigPhase x).run := by
  have hset : ∀ f : World → World, (∀ w, I w → I (f w)) → Keeps I (Script.command f) :=
    fun f hf => Script.Spec.command fun w hw => ⟨hw, hf w hw, hf w hw⟩
  simp only [kubeconfigPhase]
  refine keeps_ask fun w _ => ?_
  cases x.server with
  | none => exact keeps_skip
  | some server =>
      dsimp only
      split
      · exact Script.Spec.seq (hset _ fun w hw => h w _ _ hw) (hset _ fun w hw => h w _ _ hw)
      · exact keeps_skip

/-! ### What `mesh` keeps -/

/-- What survives the saving of clusters, as long as those that are saved are good. -/
structure Saving (op : Operator) (I : World → Prop) (good : Cluster → Prop) : Prop where
  tick : ∀ w n, I w → I (World.tick n w)
  putState : ∀ w id n, I w → I (World.putState w id n)
  save : ∀ w c, good c → I w → I { w with fleet := w.fleet.save c }
  withoutPeer : ∀ c peer, good c → good (withoutPeer c peer)
  loaded : ∀ w n pc, I w → peerOf (op.loadCluster w.fleet n) = .ok (some pc) → good pc

section Mesh

variable {op : Operator} {good : Cluster → Prop} {peer : String} {running : Bool} {c pc : Cluster}
  (h : Saving op I good)

include h

lemma keeps_tick (n : ℕ) : Keeps I (Script.command (World.tick n)) :=
  Script.Spec.command fun w hw => ⟨hw, h.tick w n hw, h.tick w n hw⟩

lemma keeps_saveCluster (hc : good c) : Keeps I (saveCluster r c) := by
  refine Script.Spec.seq (Script.Spec.command fun w hw => ?_) (Script.Spec.each_keeps fun id _ => ?_)
  · exact ⟨hw, h.save w c hc hw, h.save w c hc hw⟩
  · refine spec_tell (fun w hw => ⟨hw, h.putState w id c.name hw⟩) (fun w hw => ?_) fun hcheck => ?_
    · exact ⟨h.tick _ 1 (h.putState w id c.name hw), h.tick _ 1 (h.putState w id c.name hw)⟩
    · exact absurd hcheck (by simp)

lemma keeps_forgetPeer (hc : good c) : Keeps I (forgetPeer r c peer) :=
  Script.Spec.seq (keeps_pass h.tick) <| Script.Spec.seq (keeps_pass h.tick) <|
    keeps_saveCluster h (h.withoutPeer c peer hc)

lemma keeps_disconnect (hc : good c) (hpc : good pc) : Keeps I (disconnect r c pc peer) :=
  Script.Spec.seq (keeps_pass h.tick) <|
    Script.Spec.seq (keeps_saveCluster h (h.withoutPeer c peer hc)) <|
      Script.Spec.seq (keeps_saveCluster h (h.withoutPeer pc c.name hpc)) (keeps_pass h.tick)

lemma keeps_leavePeer (hc : good c) : Keeps I (leavePeer r op running c peer) := by
  rw [leavePeer]
  refine keeps_ask fun w hw => ?_
  cases hpeer : peerOf (op.loadCluster w.fleet peer) with
  | error e => exact keeps_fail
  | ok found =>
      refine Script.Spec.seq (keeps_tick h _) ?_
      cases hup : found.filter fun pc => (asking r op w).stateOf pc = .running with
      | none => exact keeps_forgetPeer h hc
      | some pc =>
          have hfound : found = some pc := (Option.filter_eq_some_iff.mp hup).1
          have hpc := h.loaded w peer pc hw (hfound ▸ hpeer)
          dsimp only
          split
          · exact keeps_disconnect h hc hpc
          · exact Script.Spec.seq (keeps_forgetPeer h hpc) (keeps_forgetPeer h hc)

lemma keeps_leavePeers {peers : List String} (hc : good c) :
    Keeps I (leavePeers r op running c peers) := by
  induction peers generalizing c with
  | nil =>
      rw [leavePeers]
      split
      · exact keeps_skip
      · exact keeps_fail
  | cons peer rest ih =>
      rw [leavePeers]
      exact Script.Spec.seq (keeps_leavePeer h hc) (ih (h.withoutPeer c peer hc))

/-- **The phase `mesh`** keeps what the saving of its clusters keeps. -/
theorem keeps_mesh (hc : ∀ c ∈ x.cluster, good c) : Keeps I (meshVisit r x op) := by
  rw [meshVisit]
  cases hx : x.cluster with
  | none => exact keeps_skip
  | some c =>
      have hgood := hc c hx
      dsimp only
      split
      · exact keeps_skip
      · exact keeps_ask fun w _ => Script.Spec.seq (keeps_tick h _) (keeps_leavePeers h hgood)

end Mesh

/-! ### Nothing comes back -/

/-- A script that only takes away. -/
def Sheds (p : Script World) : Prop := ∀ w₀ : World, Keeps w₀.Fewer p

lemma fewer_next {w₀ : World} (w : World) (n : ℕ) (h : w₀.Fewer w) : w₀.Fewer (World.tick n w) :=
  h.trans (World.fewer_tick w n)

/-- **A phase only takes away.** -/
theorem sheds_hostPhase (ph : HostPhase) : Sheds (hostPhase r x ph).visit := fun _ =>
  keeps_visit fewer_next <| keeps_hostPhase (fun _ => True) fewer_next
    (fun _ _ _ _ => trivial) fun w id f _ h => h.trans (World.fewer_remove w id f)

lemma sheds_kubeconfig : Sheds (kubeconfigPhase x).visit := fun _ =>
  keeps_visit fewer_next <| keeps_kubeconfig fun _ _ _ h => h.trans ⟨fun _ _ h => h, fun _ => Or.inl rfl⟩

/-! ### What a phase asks -/

/-- The context of a run with this cluster. -/
def contextOf (c : Cluster) : Context := ⟨c.name, some c⟩

/-- What a phase removes from every host it visits; containers and volumes are named for their host
alone. -/
def parts (c : Cluster) : HostPhase → List Item
  | .stop => [.active (c.name ++ ".target"), .active (c.name ++ "-network.service")]
  | .containers => (containerNames c).map .container
  | .volumes => (volumeNames c).map .volume
  | .units => unitPaths (contextOf c)
  | .network => [.network c.name]
  | .routes => (contextOf c).subnets.map .route
  | .state => [.stateDir c.name]

/-- The questions of a phase, in order. -/
def questions (c : Cluster) : HostPhase → List (MachineId × Item)
  | .containers => (containerNames c).map fun n => ((contextOf c).hostFor n, .container n)
  | .volumes => (c.spec.nodes.map (·.name.text)).flatMap fun n =>
      (nodeVolumes n).map fun v => ((contextOf c).hostFor n, .volume v)
  | ph => (targetHosts c).flatMap fun id => (parts c ph).map fun i => (id, i)

/-- The part of one host: the containers it runs, the volumes of the nodes it runs, or all. -/
def part (c : Cluster) (id : MachineId) : HostPhase → List Item
  | .containers => ((containerNames c).filter ((contextOf c).hostFor · = id)).map .container
  | .volumes => ((c.spec.nodes.map (·.name.text)).filter ((contextOf c).hostFor · = id)).flatMap
      fun n => (nodeVolumes n).map .volume
  | ph => parts c ph

/-- None of these is there. -/
def Lacks (qs : List (MachineId × Item)) (w : World) : Prop := ∀ q ∈ qs, w.has q.1 q.2 = false

variable {c : Cluster} {routers : List Router} {ph : HostPhase} {w w' : World}
  {qs : List (MachineId × Item)} {notes notes' : List (Note MachineId Item)} {b : Bool}

lemma Lacks.fewer (h : Lacks qs w) (hf : w.Fewer w') : Lacks qs w' := fun q hq => hf.lacks (h q hq)

lemma lacks_eq : (audience r w).lacks qs = true ↔ Lacks qs w := by
  simp [Audience.lacks, audience, Lacks]

/-- **Whoever concludes that something is gone has heard so from everyone asked.** -/
theorem gone_eq_ok (h : gone r qs w notes = .ok (b, notes')) :
    (b = true ↔ Lacks qs w) ∧
      (b = true → ∀ q ∈ qs, (⟨q.1, q.2, false⟩ : Note MachineId Item) ∈ notes') := by
  obtain ⟨hb, -, hnoted⟩ := Inquiry.noneOf_eq_ok h
  exact ⟨by rw [hb, lacks_eq], hnoted⟩

lemma containers_eq (h : c.routers = .ok routers) :
    (contextOf c).containers w = .ok (containerNames c) := by
  simp only [Context.containers, Context.routerNames, Context.nodeNames, contextOf, h, containerNames,
    ← routers_names h]
  rfl

lemma perHost_done {items : List Item} {run : MachineId → Script World} :
    (perHost r (contextOf c) items run).done w =
      gone r ((targetHosts c).flatMap fun id => items.map fun i => (id, i)) w :=
  Inquiry.allM_noneOf (targetHosts c) fun id => items.map fun i => (id, i)

lemma volumes_done :
    (volumesPhase r (contextOf c)).done w = gone r (questions c .volumes) w :=
  Inquiry.allM_noneOf _ _

/-- **What a phase asks.** -/
theorem hostPhase_done (h : c.routers = .ok routers) :
    (hostPhase r (contextOf c) ph).done w = gone r (questions c ph) w := by
  cases ph with
  | containers =>
      simp only [hostPhase, containersPhase, containers_eq h]
      rfl
  | volumes => exact volumes_done
  | stop => exact perHost_done
  | units => exact perHost_done
  | network => exact perHost_done
  | routes => exact perHost_done
  | state => exact perHost_done

/-- A containers phase that was found done could list the containers. -/
lemma routers_of_done (h : (containersPhase r (contextOf c)).done w notes = .ok (b, notes')) :
    ∃ routers, c.routers = .ok routers := by
  cases hr : c.routers with
  | ok routers => exact ⟨routers, rfl⟩
  | error e =>
      have hnames : (contextOf c).containers w = .error e := by
        simp only [Context.containers, Context.routerNames, contextOf, hr]
        rfl
      simp only [containersPhase, hnames] at h
      exact absurd h (by simp [throw, throwThe, MonadExceptOf.throw, StateT.lift])

/-- The part of a host is among the questions. -/
lemma mem_questions {id : MachineId} {i : Item} (hid : id ∈ targetHosts c) (hi : i ∈ part c id ph) :
    (id, i) ∈ questions c ph := by
  have hall : ∀ items : List Item, i ∈ items →
      (id, i) ∈ (targetHosts c).flatMap fun id => items.map fun i => (id, i) := by
    intro items hi
    exact List.mem_flatMap.mpr ⟨id, hid, List.mem_map_of_mem hi⟩
  cases ph with
  | containers =>
      obtain ⟨n, hn, rfl⟩ := List.mem_map.mp hi
      obtain ⟨hmem, hhost⟩ := List.mem_filter.mp hn
      rw [decide_eq_true_eq] at hhost
      exact List.mem_map.mpr ⟨n, hmem, by rw [hhost]⟩
  | volumes =>
      obtain ⟨n, hn, hv⟩ := List.mem_flatMap.mp hi
      obtain ⟨v, hvol, rfl⟩ := List.mem_map.mp hv
      obtain ⟨hmem, hhost⟩ := List.mem_filter.mp hn
      rw [decide_eq_true_eq] at hhost
      exact List.mem_flatMap.mpr ⟨n, hmem, List.mem_map.mpr ⟨v, hvol, by rw [hhost]⟩⟩
  | stop => exact hall _ hi
  | units => exact hall _ hi
  | network => exact hall _ hi
  | routes => exact hall _ hi
  | state => exact hall _ hi

/-- **What a phase that answers has asked.** -/
lemma gone_of_done (h : (hostPhase r (contextOf c) ph).done w notes = .ok (b, notes')) :
    gone r (questions c ph) w notes = .ok (b, notes') := by
  cases ph with
  | containers =>
      obtain ⟨routers, hr⟩ := routers_of_done h
      exact hostPhase_done hr ▸ h
  | volumes => exact volumes_done ▸ h
  | stop => exact perHost_done ▸ h
  | units => exact perHost_done ▸ h
  | network => exact perHost_done ▸ h
  | routes => exact perHost_done ▸ h
  | state => exact perHost_done ▸ h

/-- **A phase found done has heard from every host that its part is gone.** -/
theorem noted_of_done (h : (hostPhase r (contextOf c) ph).done w [] = .ok (true, notes)) {id : MachineId}
    (hid : id ∈ targetHosts c) {i : Item} (hi : i ∈ part c id ph) :
    (⟨id, i, false⟩ : Note MachineId Item) ∈ notes ∧ w.has id i = false := by
  obtain ⟨htruth, hnoted⟩ := gone_eq_ok (gone_of_done h)
  exact ⟨hnoted rfl _ (mem_questions hid hi), htruth.mp rfl _ (mem_questions hid hi)⟩

/-! ### What a visit leaves -/

lemma ends_asked {α : Type} {q : World → Asking α} {k : α → Script World} :
    (asked q k).Ends w w' ↔
      ∃ a notes, q w [] = .ok (a, notes) ∧ (k a).Ends (w.tick notes.length) w' := by
  simp only [asked, Script.ends_ask]
  cases q w [] with
  | error e => simp
  | ok p =>
      simp only [Script.ends_seq, Script.ends_command, exists_eq_left, Except.ok.injEq]
      constructor
      · exact fun h => ⟨p.1, p.2, rfl, h⟩
      · rintro ⟨a, notes, rfl, h⟩
        exact h

/-- A visit that ends found the phase done at last. -/
lemma done_of_visit {p : AskedPhase} (h : p.visit.Ends w w') :
    ∃ u notes, p.done u [] = .ok (true, notes) ∧ w' = u.tick notes.length := by
  rw [AskedPhase.visit, ends_asked] at h
  obtain ⟨done, notes, hdone, h⟩ := h
  cases done with
  | true => exact ⟨w, notes, hdone, Script.ends_skip.mp h⟩
  | false =>
      obtain ⟨m, -, h⟩ := Script.ends_seq.mp h
      rw [ends_asked] at h
      obtain ⟨done, notes', hdone', h⟩ := h
      cases done with
      | true => exact ⟨m, notes', hdone', Script.ends_skip.mp h⟩
      | false => exact absurd h Script.not_ends_fail

/-- **A phase that was visited to its end is gone everywhere.** -/
theorem lacks_of_visit (h : (hostPhase r (contextOf c) ph).visit.Ends w w') :
    Lacks (questions c ph) w' := by
  obtain ⟨u, notes, hdone, rfl⟩ := done_of_visit h
  exact ((gone_eq_ok (gone_of_done hdone)).1.mp rfl).fewer (World.fewer_tick u _)

end Tk8s.Delete
