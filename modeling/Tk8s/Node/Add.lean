import Tk8s.Create.PerHost
import Tk8s.Create.Topology
import Tk8s.Node.Edits

/-!
`node/add.py`: `add node` and `join node`, two lists of phases that share most of them.

* `RoutesUnit`, `Routed`: the routes unit on the operator, what systemd loaded of it, and what the
  host's routes were made from.
* `Rest.withRoutes`: create's phases with the routes unit in the world they work on.
* `addNode`, `joinNode`: the phases of the two verbs; `join node` has no host-routes phase.
* `deferred_eq_direct_iff`: **`add node --no-join` and `join node` end like `add node` exactly when
  Kubernetes reports no pod CIDR that is not recorded yet**.
-/

namespace Tk8s

open Net

variable {V : Type} {e : Env}

/-! ### The routes unit on the operator -/

/-- `<cluster>-routes.service`: its text, the text systemd loaded, and the text whose commands made
the routes of the host. -/
structure RoutesUnit where
  text : Option String := none
  loaded : Option String := none
  started : Option String := none

/-- The routes unit, and everything else. -/
structure Routed (V : Type) where
  routes : RoutesUnit
  other : V

/-- The routes unit a cluster renders for the operator, if any. -/
def operatorRoutes (c : Cluster) : Except Raised (Option String) := do
  let units ← (perHost c).mapM fun h => hostRoutes c h.1
  return units.findSome? id

/-- `routes_current`. -/
def routesCurrent (c : Cluster) (w : Routed V) : Bool :=
  match operatorRoutes c with
  | .ok (some text) => w.routes.text = some text
  | .ok none => true
  | .error _ => false

/-- The routes unit is rendered again. -/
def writeRoutes (c : Cluster) : Script (Routed V) :=
  match operatorRoutes c with
  | .ok (some text) => Script.command fun w => { w with routes := { w.routes with text := text } }
  | .ok none => Script.skip
  | .error _ => Script.fail

/-- `systemctl daemon-reload` on the operator. -/
def Routed.reload (w : Routed V) : Routed V :=
  { w with routes := { w.routes with loaded := w.routes.text } }

/-- `systemctl daemon-reload` on a machine; the routes unit is the operator's. -/
def Job.reloadOn (id : MachineId) (j : Job (Routed V)) : Job (Routed V) :=
  let j := j.onMachine id Machine.reload
  if id = none then { j with site := { j.site with other := j.site.other.reload } } else j

/-- `systemctl restart <cluster>-routes.service`. -/
def Routed.restart (w : Routed V) : Routed V :=
  { w with routes := { w.routes with started := w.routes.loaded } }

/-- The end of `write_routes`, where a host has the unit. -/
def restartRoutes (c : Cluster) : Script (Routed V) :=
  match operatorRoutes c with
  | .ok (some _) => Script.seq (Script.command Routed.reload) (Script.command Routed.restart)
  | .ok none => Script.skip
  | .error _ => Script.fail

/-- Every registered node's CIDR is recorded. -/
def cidrsRecorded (c : Cluster) (cidrs : String → Option String) : Bool :=
  c.spec.nodes.all fun n =>
    (cidrs n.name.text).all fun text => (n.podCidr.map IPv4Network.text).getD "" = text

/-- A script on everything but the routes unit. -/
def elsewhere (p : Script V) : Script (Routed V) :=
  Script.within (fun w => w.other) (fun v w => { w with other := v }) p

/-- The rest of the world with the routes unit in it, where Kubernetes reports these pod CIDRs. -/
def Rest.withRoutes (rest : Rest V) (cidrs : String → Option String) : Rest (Routed V) where
  done full c w :=
    if full = "units" then routesCurrent c w && rest.done full c w.other
    else if full = "cni/host-routes" then cidrsRecorded c cidrs && routesCurrent c w
    else rest.done full c w.other
  act full c :=
    if full = "units" then Script.seq (writeRoutes c) (elsewhere (rest.act full c))
    else if full = "cni/host-routes" then Script.seq (writeRoutes c) (restartRoutes c)
    else elsewhere (rest.act full c)
  datapath w := rest.datapath w.other
  cilium := rest.cilium
  cidrs _ := cidrs
  now w := rest.now w.other

/-! ### The phases of the verbs -/

section Verbs

variable (e : Env) (rest : Rest (Routed V)) (name : String)

/-- systemd on the node's host reads its units. -/
def reloadHost : Script (Job (Routed V)) :=
  Script.ask fun j =>
    match (findNode j.cluster name).bind fun n => machineOf j.cluster n.host with
    | none => Script.fail
    | some id => Script.command (Job.reloadOn id)

/-- `START`: the routers are reloaded and the node is started. -/
def startPhase : Leaf (Job (Routed V)) where
  done := some (rest.isDone "start")
  run := Script.seq (reloadHost name) (rest.script "start")

/-- `PROVISION`: create's own phases, with the start of the node between them. -/
def provision : List (Phase (Job (Routed V))) :=
  [.leaf "images" (rest.leaf "images"), .leaf "units" (unitsPhase e rest),
   .leaf "start" (startPhase rest name), .leaf "frr" (rest.leaf "frr"),
   .leaf "runtimeclass" (rest.leaf "addons/runtimeclass"),
   .leaf "gvisor" (rest.leaf "addons/gvisor")]

/-- `RECORD`: `join: true` in `cluster.yaml`. -/
def markPhase : Leaf (Job (Routed V)) where
  done := some fun j => (findNode j.cluster name).any (·.join)
  run := Script.ask fun j =>
    match findNode j.cluster name with
    | none => Script.fail
    | some _ => Script.command fun j => j.save (markedJoined j.cluster name)

/-- What `add node` runs after `plan`. -/
def addPhases (join : Bool) : List (Phase (Job (Routed V))) :=
  [.group "add" (provision e rest name ++ if join then
    [.leaf "kubeadm" (rest.leaf "kubeadm"), .leaf "ready" (rest.leaf "ready"),
     .leaf "host-routes" (hostRoutesPhase rest), .leaf "record" (markPhase name)] else [])]

/-- `JOIN_PHASE`. -/
def joinPhases : List (Phase (Job (Routed V))) :=
  [.group "join" (provision e rest name ++
    [.leaf "kubeadm" (rest.leaf "kubeadm"), .leaf "ready" (rest.leaf "ready"),
     .leaf "record" (markPhase name)])]

/-- `add node`. No node is named at first, so `plan` runs always; the other phases work on the node
it planned. The checks of its memory and its host are left open. -/
def addNode (req : NodeRequest) (join : Bool) : Script (Job (Routed V)) :=
  Script.ask fun j =>
    match planAdd j.cluster req with
    | .error _ => Script.fail
    | .ok n =>
        Script.seq (rest.script "plan") <|
          Script.seq (Script.command fun j => j.save (withNode j.cluster n)) <|
            Runner.run { phases := addPhases e rest n.name.text join }

/-- `join node`. -/
def joinNode : Script (Job (Routed V)) := Runner.run { phases := joinPhases e rest name }

end Verbs

/-! ### The routes of a cluster with a new node -/

lemma join_append_empty (l : List String) : String.join (l ++ [""]) = String.join l := by
  simp [String.join]

/-- A node without a pod CIDR has no route. -/
lemma nodeRoutes_withNode {c : Cluster} {n first : Node} (hn : n.podCidr = none)
    (verb dev : String) : nodeRoutes (withNode c n) first verb dev = nodeRoutes c first verb dev := by
  rw [nodeRoutes, nodeRoutes, withNode, Cluster.withNodes_nodes, List.map_append, List.map_singleton,
    hn]
  exact join_append_empty _

lemma firstControlPlane_withNode {c : Cluster} {n : Node} (hne : c.spec.nodes ≠ []) :
    (withNode c n).firstControlPlane = c.firstControlPlane := by
  rw [Cluster.firstControlPlane, Cluster.firstControlPlane, withNode, Cluster.withNodes_nodes]
  cases hnodes : c.spec.nodes with
  | nil => exact absurd hnodes hne
  | cons first rest => rfl

lemma routesValues_withNode {c : Cluster} {n first : Node} (hn : n.podCidr = none) (dev : String) :
    routesValues (withNode c n) first dev = routesValues c first dev := by
  rw [routesValues, routesValues, nodeRoutes_withNode hn, nodeRoutes_withNode hn]
  rfl

/-- **A new node changes no routes unit** before it has its pod CIDR. -/
theorem operatorRoutes_withNode {c : Cluster} {n : Node} (hn : n.podCidr = none)
    (hne : c.spec.nodes ≠ []) : operatorRoutes (withNode c n) = operatorRoutes c := by
  have hroutes : ∀ h, hostRoutes (withNode c n) h = hostRoutes c h := by
    intro h
    have hnamed : (withNode c n).hostNamed h = c.hostNamed h := rfl
    have hunit : routesUnit (withNode c n) = routesUnit c := by
      simp only [routesUnit, firstControlPlane_withNode hne, routesValues_withNode hn]
    have hmacvlan : ∀ me, routesMacvlan (withNode c n) me = routesMacvlan c me := by
      intro me
      simp only [routesMacvlan, firstControlPlane_withNode hne, routesValues_withNode hn]
      rfl
    rw [hostRoutes, hostRoutes, hnamed, hunit]
    cases c.hostNamed h with
    | none => rfl
    | some me => simp only [hmacvlan]
  have hhosts : perHost (withNode c n) = perHost c := rfl
  rw [operatorRoutes, operatorRoutes, hhosts]
  simp only [hroutes]

/-! ### The claim and its condition -/

/-- `cluster.yaml` holds this cluster, and the routes of the operator are these. -/
structure Steady (c : Cluster) (routes : Option String) (j : Job (Routed V)) : Prop where
  cluster : j.cluster = c
  file : j.site.file = some c
  text : j.site.other.routes.text = routes
  started : j.site.other.routes.started = routes

/-- A well-formed running cluster: the operator has, and has started, the routes its `cluster.yaml`
renders. -/
def Running (j : Job (Routed V)) : Prop :=
  ∃ routes, operatorRoutes j.cluster = .ok routes ∧ Steady j.cluster routes j

/-- The same `cluster.yaml`, the same routes unit on the operator and the same host routes. -/
structure EndAlike (d f : Job (Routed V)) : Prop where
  file : d.site.file = f.site.file
  text : d.site.other.routes.text = f.site.other.routes.text
  started : d.site.other.routes.started = f.site.other.routes.started

/-- Kubernetes reports no pod CIDR but those recorded. -/
def NothingNew (c : Cluster) (cidrs : String → Option String) : Prop :=
  ∀ n ∈ c.spec.nodes, ∀ text ∈ cidrs n.name.text, text ≠ "" → IPv4Network.parse text = n.podCidr

/-! ### What the pod CIDRs change -/

variable {c c' : Cluster} {cidrs : String → Option String} {routes : Option String}

/-- A reported pod CIDR that is recorded already changes nothing. -/
lemma assignCidr_self_iff {pods : IPv4Network} {n n' : Node}
    (h : assignCidr pods cidrs n = .ok n') :
    n' = n ↔ ∀ text ∈ cidrs n.name.text, text ≠ "" → IPv4Network.parse text = n.podCidr := by
  rw [assignCidr] at h
  cases hrep : (cidrs n.name.text).filter (· ≠ "") with
  | none =>
      rw [hrep] at h
      refine iff_of_true (Except.ok.inj h).symm fun text htext hne => ?_
      rw [Option.filter_eq_none_iff] at hrep
      exact absurd (hrep text htext) (by simpa using hne)
  | some text =>
      rw [hrep] at h
      simp only [Checked.bind_eq_ok, Checked.exists_unit, Checked.ofOption_eq_ok,
        Checked.pure_eq_ok] at h
      obtain ⟨cidr, hparse, -, rfl⟩ := h
      obtain ⟨htext, hne⟩ := Option.filter_eq_some_iff.mp hrep
      have hnode : ({ n with podCidr := some cidr } : Node) = n ↔ some cidr = n.podCidr :=
        ⟨fun h => congrArg Node.podCidr h, fun h => by rw [h]⟩
      rw [hnode, htext, ← hparse]
      simp only [Option.mem_def, Option.some_inj, forall_eq', decide_eq_true_eq] at hne ⊢
      exact ⟨fun h _ => h, fun h => h hne⟩

/-- **The pod CIDRs change nothing exactly when none of them is new.** -/
lemma withPodCidrs_self_iff (h : withPodCidrs c cidrs = .ok c') : c' = c ↔ NothingNew c cidrs := by
  obtain ⟨nodes, hnodes, rfl⟩ := withPodCidrs_eq_ok.mp h
  have hlist : nodes = c.spec.nodes ↔ NothingNew c cidrs := by
    rw [NothingNew]
    clear h
    generalize c.spec.nodes = l at hnodes
    induction hnodes with
    | nil => simp
    | cons hn _ ih => rw [List.cons.injEq, List.forall_mem_cons, assignCidr_self_iff hn, ih]
  rw [← hlist]
  exact ⟨fun h => congrArg (fun c : Cluster => c.spec.nodes) h, fun h => by rw [h]⟩

/-- What is found recorded is nothing new. -/
lemma nothingNew_of_recorded (h : cidrsRecorded c cidrs = true) : NothingNew c cidrs := by
  rw [cidrsRecorded, List.all_eq_true] at h
  intro n hn text htext hne
  have hn' := h n hn
  rw [Option.mem_def.mp htext, Option.all_some, decide_eq_true_eq] at hn'
  cases hcidr : n.podCidr with
  | none =>
      rw [hcidr] at hn'
      exact absurd hn'.symm hne
  | some cidr =>
      rw [hcidr] at hn'
      rw [← hn']
      exact IPv4Network.parse_text cidr

/-! ### What the shared phases keep -/

section Steady

variable {rest : Rest V} {name : String} {j u d m f : Job (Routed V)}

lemma steady_other {w : Routed V} (hw : w.routes.text = routes ∧ w.routes.started = routes)
    (h : Steady c routes j) : Steady c routes { j with site := { j.site with other := w } } :=
  ⟨h.cluster, h.file, hw.1, hw.2⟩

/-- The commands of a phase that has nothing to do with the routes unit. -/
lemma steady_script {full : String} (hunits : full ≠ "units") (hroutes : full ≠ "cni/host-routes") :
    Script.Spec (Steady (V := V) c routes) ((rest.withRoutes cidrs).script full)
      (Steady c routes) (Steady c routes) := by
  refine Script.Spec.ask fun j hj => ?_
  have hact : (rest.withRoutes cidrs).act full j.cluster = elsewhere (rest.act full j.cluster) := by
    rw [Rest.withRoutes]
    simp only [if_neg hunits, if_neg hroutes]
  rw [hact, elsewhere, Script.within_within]
  refine Script.Spec.within (fun _ => rfl) fun s v hs => ?_
  have hj' : Steady c routes s := hs ▸ hj
  have hput := steady_other (w := { s.site.other with other := v }) ⟨hj'.text, hj'.started⟩ hj'
  exact ⟨hput, hput⟩

/-- **Rendered again, the routes unit is the same.** -/
lemma steady_unitsScript (hc : operatorRoutes c = .ok routes) :
    Script.Spec (Steady (V := V) c routes) ((rest.withRoutes cidrs).script "units")
      (Steady c routes) (Steady c routes) := by
  refine Script.Spec.ask fun j hj => ?_
  have hact : (rest.withRoutes cidrs).act "units" j.cluster =
      Script.seq (writeRoutes j.cluster) (elsewhere (rest.act "units" j.cluster)) := rfl
  rw [hact, hj.cluster, writeRoutes, hc]
  refine Script.Spec.inside (fun _ => rfl) ?_
  rintro j rfl
  have hkeep : ∀ w : Routed V, w.routes.text = routes ∧ w.routes.started = routes →
      Steady c routes { j with site := { j.site with other := w } } :=
    fun w hw => steady_other hw hj
  have helse : Script.Spec (fun w : Routed V => w.routes.text = routes ∧ w.routes.started = routes)
      (elsewhere (rest.act "units" c))
      (fun w => Steady c routes { j with site := { j.site with other := w } })
      (fun w => Steady c routes { j with site := { j.site with other := w } }) :=
    Script.Spec.within (fun _ => rfl) fun w v hw => ⟨hkeep _ hw, hkeep _ hw⟩
  refine Script.Spec.seq ?_ helse
  cases routes with
  | none =>
      refine Script.Spec.skip ?_
      rintro _ rfl
      exact ⟨hj, hj.text, hj.started⟩
  | some text =>
      refine Script.Spec.command ?_
      rintro _ rfl
      exact ⟨hj, hkeep _ ⟨rfl, hj.started⟩, rfl, hj.started⟩

lemma steady_reloadHost : Script.Spec (Steady (V := V) c routes) (reloadHost name)
    (Steady c routes) (Steady c routes) := by
  refine Script.Spec.ask fun j hj => ?_
  cases hid : (findNode j.cluster name).bind fun n => machineOf j.cluster n.host with
  | none => exact Script.Spec.fail fun s hs => hs ▸ hj
  | some id =>
      refine Script.Spec.command ?_
      rintro j rfl
      have hreload : Steady c routes (j.reloadOn id) := by
        rw [Job.reloadOn]
        by_cases hop : id = none
        · rw [if_pos hop]
          exact ⟨hj.cluster, hj.file, hj.text, hj.started⟩
        · rw [if_neg hop]
          exact ⟨hj.cluster, hj.file, hj.text, hj.started⟩
      exact ⟨hj, hreload, hreload⟩

/-- What both verbs run before the host routes and the record. -/
def sharedPhases (e : Env) (rest : Rest (Routed V)) (name : String) : List (Phase (Job (Routed V))) :=
  provision e rest name ++ [.leaf "kubeadm" (rest.leaf "kubeadm"), .leaf "ready" (rest.leaf "ready")]

/-- **The phases that both verbs share change neither `cluster.yaml` nor the routes.** -/
lemma steady_leaves {above : String} (hc : operatorRoutes c = .ok routes) :
    ∀ l ∈ leavesOf above (sharedPhases e (rest.withRoutes cidrs) name),
      Script.Spec (Steady (V := V) c routes) l.2.run (Steady c routes) (Steady c routes) := by
  have hwrite : KeepsWrite e (Steady (V := V) c routes) := fun _ _ _ _ _ h =>
    ⟨fun _ _ => ⟨h.cluster, h.file, h.text, h.started⟩, h.cluster, h.file, h.text, h.started⟩
  simp only [sharedPhases, provision, leavesOf, Phase.leaves, List.append_nil, List.cons_append,
    List.nil_append, List.forall_mem_cons, List.not_mem_nil, false_imp_iff, implies_true, and_true]
  exact ⟨steady_script (by decide) (by decide), spec_unitsRun (steady_unitsScript hc) hwrite,
    steady_reloadHost.seq (steady_script (by decide) (by decide)),
    steady_script (by decide) (by decide), steady_script (by decide) (by decide),
    steady_script (by decide) (by decide), steady_script (by decide) (by decide),
    steady_script (by decide) (by decide)⟩

lemma steady_visits {r : Runner (Job (Routed V))} {ls : List (String × Leaf (Job (Routed V)))}
    (hsay : ∀ full j, r.say full j = j) (hrecord : ∀ full, r.record full = Script.skip)
    (hkeep : ∀ l ∈ ls, Script.Spec (Steady c routes) l.2.run (Steady c routes) (Steady c routes)) :
    Script.Spec (Steady c routes) (r.visits ls) (Steady c routes) (Steady c routes) := by
  refine Runner.spec_visits (fun full j h => (hsay full j).symm ▸ h) hkeep fun full => ?_
  rw [hrecord]
  exact Script.Spec.skip fun _ h => ⟨h, h⟩

/-! ### The host-routes phase -/

/-- The end of the host-routes phase renders and starts the routes unit. -/
lemma steady_routesScript (hc : operatorRoutes c = .ok routes) :
    Script.Spec (Steady (V := V) c routes) ((rest.withRoutes cidrs).script "cni/host-routes")
      (fun _ => True) (Steady c routes) := by
  refine Script.Spec.ask fun j hj => ?_
  have hact : (rest.withRoutes cidrs).act "cni/host-routes" j.cluster =
      Script.seq (writeRoutes j.cluster) (restartRoutes j.cluster) := rfl
  rw [hact, hj.cluster, writeRoutes, restartRoutes, hc]
  refine Script.Spec.inside (fun _ => rfl) ?_
  rintro j rfl
  cases routes with
  | none =>
      refine (Script.Spec.skip fun _ h => ⟨trivial, h⟩).seq (Script.Spec.skip ?_)
      rintro _ rfl
      exact ⟨trivial, hj⟩
  | some text =>
      have hwrite : Script.Spec (fun w : Routed V => w = j.site.other)
          (Script.command fun w => { w with routes := { w.routes with text := some text } })
          (fun _ => True) (fun w => w.routes.text = some text) :=
        Script.Spec.command fun _ _ => ⟨trivial, trivial, rfl⟩
      have hreload : Script.Spec (fun w : Routed V => w.routes.text = some text)
          (Script.command Routed.reload) (fun _ => True)
          (fun w => w.routes.text = some text ∧ w.routes.loaded = some text) :=
        Script.Spec.command fun _ h => ⟨trivial, trivial, h, h⟩
      refine hwrite.seq (hreload.seq (Script.Spec.command fun w hw => ⟨trivial, trivial, ?_⟩))
      exact steady_other ⟨hw.1, hw.2⟩ hj

/-- What the host-routes phase leaves behind when it runs. -/
lemma ends_hostRoutesRun (hj : Steady c routes j)
    (h : (hostRoutesRun (rest.withRoutes cidrs)).Ends j u) :
    ∃ c', withPodCidrs c cidrs = .ok c' ∧ u.cluster = c' ∧ u.site.file = some c' ∧
      (operatorRoutes c' = .ok routes → Steady c' routes u) := by
  rw [hostRoutesRun, Script.ends_ask, hj.cluster] at h
  by_cases hmiss : cidrMissing c cidrs = true
  · exact absurd h (by rw [Rest.withRoutes, if_pos hmiss]; exact Script.not_ends_fail)
  have hcidrs : (rest.withRoutes cidrs).cidrs j.site.other = cidrs := rfl
  rw [hcidrs, if_neg hmiss] at h
  cases hc' : withPodCidrs c cidrs with
  | error err =>
      rw [hc'] at h
      exact absurd h Script.not_ends_fail
  | ok c' =>
      simp only [hc', Script.ends_seq, Script.ends_command, exists_eq_left] at h
      have hkeep : Script.Spec (fun k : Job (Routed V) => k.cluster = c' ∧ k.site.file = some c')
          ((rest.withRoutes cidrs).script "cni/host-routes")
          (fun k => k.cluster = c' ∧ k.site.file = some c')
          (fun k => k.cluster = c' ∧ k.site.file = some c') :=
        Rest.spec_script fun _ _ h => h
      obtain ⟨hcluster, hfile⟩ := hkeep.ends ⟨rfl, rfl⟩ h
      refine ⟨c', rfl, hcluster, hfile, fun hc => (steady_routesScript hc).ends ?_ h⟩
      exact ⟨rfl, rfl, hj.text, hj.started⟩

/-- **The host-routes phase records what Kubernetes reports**, found done or run. -/
lemma ends_hostRoutes {r : Runner (Job (Routed V))} {full : String} (hskip : r.skip = [])
    (hdry : r.dryRun = false) (hsay : ∀ full j, r.say full j = j)
    (hrecord : ∀ full, r.record full = Script.skip) (hj : Steady c routes j)
    (h : (r.visit (full, hostRoutesPhase (rest.withRoutes cidrs))).Ends j u) :
    ∃ c', (c' = c ↔ NothingNew c cidrs) ∧ c'.spec.unrecorded = c.spec.unrecorded ∧
      u.cluster = c' ∧ u.site.file = some c' ∧
      (operatorRoutes c' = .ok routes → Steady c' routes u) := by
  rcases Runner.ends_visit hskip hdry h with ⟨hdone, rfl⟩ | ⟨-, k, hrun, -, hu⟩
  · have hrec : cidrsRecorded c cidrs = true := by
      have hboth : (cidrsRecorded u.cluster cidrs && routesCurrent u.cluster u.site.other) = true :=
        hdone
      rw [hj.cluster, Bool.and_eq_true] at hboth
      exact hboth.1
    exact ⟨c, iff_of_true rfl (nothingNew_of_recorded hrec), rfl, hj.cluster, hj.file,
      fun _ => hj⟩
  · rw [hrecord, Script.ends_skip] at hu
    rw [hsay] at hrun
    obtain ⟨c', hc', hcluster, hfile, hsteady⟩ := ends_hostRoutesRun hj hrun
    have hsame : (Recording.podCidrs cidrs).apply c = .ok c' := hc'
    exact ⟨c', withPodCidrs_self_iff hc', (Recording.apply_unrecorded hsame).2, hu ▸ hcluster,
      hu ▸ hfile, hu ▸ hsteady⟩

/-! ### The record -/

/-- A node that is not joined yet is recorded as joined. -/
lemma ends_mark {r : Runner (Job (Routed V))} {full : String} (hskip : r.skip = [])
    (hdry : r.dryRun = false) (hsay : ∀ full j, r.say full j = j)
    (hrecord : ∀ full, r.record full = Script.skip)
    (hfind : (findNode j.cluster name).map (·.join) = some false)
    (h : (r.visit (full, markPhase name)).Ends j u) : u = j.save (markedJoined j.cluster name) := by
  obtain ⟨n, hn, hjoin⟩ := Option.map_eq_some_iff.mp hfind
  rcases Runner.ends_visit hskip hdry h with ⟨hdone, -⟩ | ⟨-, k, hrun, -, hu⟩
  · have hany : (findNode j.cluster name).any (·.join) = true := hdone
    rw [hn, Option.any_some, hjoin] at hany
    exact absurd hany Bool.false_ne_true
  · rw [hrecord, Script.ends_skip] at hu
    rw [hsay, markPhase, Script.ends_ask] at hrun
    simp only [hn, Script.ends_command] at hrun
    exact hu.trans hrun

/-- The new node is found by its name, and is not joined. -/
lemma findNode_withNode {req : NodeRequest} {n : Node} (h : planAdd c req = .ok n) :
    (findNode (withNode c n) n.name.text).map (·.join) = some false := by
  obtain ⟨-, -, hname, -, -⟩ := planAdd_eq_ok h
  have hnew : c.spec.nodes.find? (·.name.text = n.name.text) = none := by
    refine List.find?_eq_none.mpr fun n' hn' heq => nextName_notMem c req.role ?_
    rw [decide_eq_true_eq] at heq
    exact List.mem_map.mpr ⟨n', hn', (Matching.ext heq).trans hname⟩
  have hjoin : n.join = false := by
    simp only [planAdd, Checked.bind_eq_ok, Checked.pure_eq_ok] at h
    obtain ⟨-, -, -, -, -, -, -, -, rfl⟩ := h
    rfl
  rw [findNode, withNode, Cluster.withNodes_nodes, List.find?_append, hnew, Option.none_or]
  simp [hjoin]

lemma findNode_join_congr (h : c'.spec.unrecorded = c.spec.unrecorded) :
    (findNode c' name).map (·.join) = (findNode c name).map (·.join) := by
  have hplain : ∀ c : Cluster, (findNode c name).map (·.join) =
      (c.spec.unrecorded.nodes.find? (·.name.text = name)).map (·.join) := by
    intro c
    rw [Spec.unrecorded, List.find?_map, Option.map_map]
    rfl
  rw [hplain c', hplain c, h]

/-- Marking a node as joined hides no pod CIDR. -/
lemma node_eq_of_joinedIf {n n' : Node} (hunrecorded : n'.unrecorded = n.unrecorded)
    (h : n'.joinedIf name = n.joinedIf name) : n' = n := by
  have hcidr : ∀ n : Node, (n.joinedIf name).podCidr = n.podCidr := by
    intro n
    rcases Node.joinedIf_eq name n with heq | heq <;> rw [heq]
  calc n' = { n'.unrecorded with podCidr := n'.podCidr } := rfl
    _ = { n.unrecorded with podCidr := n.podCidr } := by
        rw [hunrecorded, ← hcidr n', h, hcidr n]
    _ = n := rfl

lemma nodes_eq_of_joinedIf {l l' : List Node}
    (hunrecorded : l'.map Node.unrecorded = l.map Node.unrecorded)
    (h : l'.map (Node.joinedIf name) = l.map (Node.joinedIf name)) : l' = l := by
  induction l' generalizing l with
  | nil => exact (List.map_eq_nil_iff.mp h.symm).symm
  | cons n' l' ih =>
      cases l with
      | nil => exact absurd h (by simp)
      | cons n l =>
          rw [List.map_cons, List.map_cons, List.cons.injEq] at hunrecorded h
          rw [node_eq_of_joinedIf hunrecorded.1 h.1, ih hunrecorded.2 h.2]

lemma eq_of_markedJoined (hunrecorded : c'.spec.unrecorded = c.spec.unrecorded)
    (h : markedJoined c' name = markedJoined c name) : c' = c := by
  have hnodes : c'.spec.nodes = c.spec.nodes :=
    nodes_eq_of_joinedIf (congrArg (fun s : Spec => s.nodes) hunrecorded)
      (congrArg (fun c : Cluster => c.spec.nodes) h)
  have hback : ∀ c : Cluster, (markedJoined c name).withNodes c.spec.nodes = c := fun _ => rfl
  rw [← hback c', h, hnodes, hback c]

/-! ### The two ways -/

/-- **`add node` runs its phases with the new node in `cluster.yaml` and the routes as they were.** -/
lemma ends_addNode {req : NodeRequest} {n : Node} {join : Bool} (hrunning : Running j)
    (hplan : planAdd j.cluster req = .ok n)
    (h : (addNode e (rest.withRoutes cidrs) req join).Ends j d) :
    ∃ routes k, operatorRoutes (withNode j.cluster n) = .ok routes ∧
      Steady (withNode j.cluster n) routes k ∧
      (Runner.visits { phases := addPhases e (rest.withRoutes cidrs) n.name.text join }
        (leavesOf "" (addPhases e (rest.withRoutes cidrs) n.name.text join))).Ends k d := by
  obtain ⟨routes, hroutes, hj⟩ := hrunning
  rw [addNode, Script.ends_ask, hplan] at h
  simp only [Script.ends_seq, Script.ends_command, exists_eq_left] at h
  obtain ⟨m, hm, hrun⟩ := h
  have hm' : Steady j.cluster routes m :=
    (steady_script (by decide) (by decide)).ends hj hm
  obtain ⟨hcidr, first, hfirst⟩ : n.podCidr = none ∧
      ∃ first, j.cluster.firstControlPlane = some first := by
    simp only [planAdd, Checked.bind_eq_ok, Checked.ofOption_eq_ok, Checked.pure_eq_ok] at hplan
    obtain ⟨-, -, first, hfirst, -, -, -, -, rfl⟩ := hplan
    exact ⟨rfl, first, hfirst⟩
  have hne : j.cluster.spec.nodes ≠ [] := by
    intro hnil
    rw [Cluster.firstControlPlane, hnil] at hfirst
    exact absurd hfirst (by simp)
  refine ⟨routes, _, (operatorRoutes_withNode hcidr hne).trans hroutes, ?_, hrun⟩
  rw [hm'.cluster]
  exact ⟨rfl, rfl, hm'.text, hm'.started⟩

/-- `add node --no-join` leaves the routes as they were. -/
lemma steady_added {req : NodeRequest} {n : Node} (hrunning : Running j)
    (hplan : planAdd j.cluster req = .ok n)
    (h : (addNode e (rest.withRoutes cidrs) req false).Ends j m) :
    ∃ routes, operatorRoutes (withNode j.cluster n) = .ok routes ∧
      Steady (withNode j.cluster n) routes m := by
  obtain ⟨routes, k, hroutes, hk, hrun⟩ := ends_addNode hrunning hplan h
  have hsplit : leavesOf "" (addPhases e (rest.withRoutes cidrs) n.name.text false) ++
      leavesOf "add/" [.leaf "kubeadm" ((rest.withRoutes cidrs).leaf "kubeadm"),
        .leaf "ready" ((rest.withRoutes cidrs).leaf "ready")] =
      leavesOf "add/" (sharedPhases e (rest.withRoutes cidrs) n.name.text) := rfl
  have hkeep : ∀ l ∈ leavesOf "add/" (sharedPhases e (rest.withRoutes cidrs) n.name.text),
      Script.Spec (Steady (withNode j.cluster n) routes) l.2.run
        (Steady (withNode j.cluster n) routes) (Steady (withNode j.cluster n) routes) :=
    steady_leaves hroutes
  rw [← hsplit] at hkeep
  exact ⟨routes, hroutes, (steady_visits (fun _ _ => rfl) (fun _ => rfl)
    fun l hl => hkeep l (List.mem_append_left _ hl)).ends hk hrun⟩

/-- **`join node` records the node as joined and leaves the routes as they were.** -/
lemma ends_joinNode (hc : operatorRoutes c = .ok routes)
    (hfind : (findNode c name).map (·.join) = some false) (hm : Steady c routes m)
    (h : (joinNode e (rest.withRoutes cidrs) name).Ends m f) :
    Steady (markedJoined c name) routes f := by
  have hrun : (Runner.visits { phases := joinPhases e (rest.withRoutes cidrs) name }
      (leavesOf "join/" (sharedPhases e (rest.withRoutes cidrs) name) ++
        [("join/record", markPhase name)])).Ends m f := h
  rw [Runner.visits, Script.ends_each_append] at hrun
  obtain ⟨k, hk, hmark⟩ := hrun
  have hk' : Steady c routes k :=
    (steady_visits (fun _ _ => rfl) (fun _ => rfl) (steady_leaves hc)).ends hm hk
  rw [Script.each_cons, Script.each_nil, Script.ends_seq] at hmark
  obtain ⟨_, hmark, hend⟩ := hmark
  rw [Script.ends_skip] at hend
  have hsave := ends_mark rfl rfl (fun _ _ => rfl) (fun _ => rfl) (hk'.cluster ▸ hfind) hmark
  rw [hend, hsave, hk'.cluster]
  exact ⟨rfl, rfl, hk'.text, hk'.started⟩

/-- **`add node` records what Kubernetes reports, then the node as joined.** -/
lemma ends_addJoined {req : NodeRequest} {n : Node} (hrunning : Running j)
    (hplan : planAdd j.cluster req = .ok n)
    (h : (addNode e (rest.withRoutes cidrs) req true).Ends j d) :
    ∃ routes c', operatorRoutes (withNode j.cluster n) = .ok routes ∧
      (c' = withNode j.cluster n ↔ NothingNew (withNode j.cluster n) cidrs) ∧
      c'.spec.unrecorded = (withNode j.cluster n).spec.unrecorded ∧
      d.site.file = some (markedJoined c' n.name.text) ∧
      (c' = withNode j.cluster n → Steady (markedJoined c' n.name.text) routes d) := by
  obtain ⟨routes, k, hroutes, hk, hrun⟩ := ends_addNode hrunning hplan h
  have hsplit : leavesOf "" (addPhases e (rest.withRoutes cidrs) n.name.text true) =
      leavesOf "add/" (sharedPhases e (rest.withRoutes cidrs) n.name.text) ++
        [("add/host-routes", hostRoutesPhase (rest.withRoutes cidrs)),
          ("add/record", markPhase n.name.text)] := rfl
  rw [hsplit, Runner.visits, Script.ends_each_append] at hrun
  obtain ⟨m, hm, hlast⟩ := hrun
  simp only [Script.each_cons, Script.each_nil, Script.ends_seq, Script.ends_skip] at hlast
  obtain ⟨u, hu, t, ht, rfl⟩ := hlast
  have hm' : Steady (withNode j.cluster n) routes m :=
    (steady_visits (fun _ _ => rfl) (fun _ => rfl) (steady_leaves hroutes)).ends hk hm
  obtain ⟨c', hiff, hunrecorded, hcluster, hfile, hsteady⟩ :=
    ends_hostRoutes rfl rfl (fun _ _ => rfl) (fun _ => rfl) hm' hu
  have hfind : (findNode u.cluster n.name.text).map (·.join) = some false := by
    rw [hcluster, findNode_join_congr hunrecorded]
    exact findNode_withNode hplan
  have hsave := ends_mark rfl rfl (fun _ _ => rfl) (fun _ => rfl) hfind ht
  rw [hcluster] at hsave
  rw [hsave]
  refine ⟨routes, c', hroutes, hiff, hunrecorded, rfl, fun hsame => ?_⟩
  have hu' := hsteady (hsame ▸ hroutes)
  exact ⟨rfl, rfl, hu'.text, hu'.started⟩

/-- **`add node --no-join` and `join node` end like `add node` exactly when Kubernetes reports no
pod CIDR but those recorded.** -/
theorem deferred_eq_direct_iff {rest₁ rest₂ rest₃ : Rest V}
    {cidrs₁ cidrs₂ cidrs₃ : String → Option String} {req : NodeRequest} {n : Node}
    (hrunning : Running j) (hplan : planAdd j.cluster req = .ok n)
    (hdirect : (addNode e (rest₁.withRoutes cidrs₁) req true).Ends j d)
    (hadd : (addNode e (rest₂.withRoutes cidrs₂) req false).Ends j m)
    (hjoin : (joinNode e (rest₃.withRoutes cidrs₃) n.name.text).Ends m f) :
    EndAlike d f ↔ NothingNew (withNode j.cluster n) cidrs₁ := by
  obtain ⟨routes, c', hroutes, hiff, hunrecorded, hfile, hsteady⟩ :=
    ends_addJoined hrunning hplan hdirect
  obtain ⟨routes', hroutes', hm⟩ := steady_added hrunning hplan hadd
  obtain rfl : routes = routes' := Except.ok.inj (hroutes.symm.trans hroutes')
  have hf := ends_joinNode hroutes (findNode_withNode hplan) hm hjoin
  rw [← hiff]
  constructor
  · intro h
    have hsame := hfile.symm.trans (h.file.trans hf.file)
    exact eq_of_markedJoined hunrecorded (Option.some_inj.mp hsame)
  · intro h
    have hd := hsteady h
    rw [h] at hfile
    exact ⟨hfile.trans hf.file.symm, hd.text.trans hf.text.symm, hd.started.trans hf.started.symm⟩

end Steady

/-! ### A worker that joins later -/

/-- A running cluster of one node. -/
def runningLone : Job (Routed Unit) where
  cluster := loneCluster
  site :=
    let routes := (operatorRoutes loneCluster).toOption.join
    ⟨some loneCluster, fun _ => {}, ⟨⟨routes, routes, routes⟩, ()⟩⟩

/-- A worker added at once, and one added first and joined then, where Kubernetes hands out these
pod CIDRs. -/
def bothWays (cidrs : String → Option String) :
    Except Raised (Node × Job (Routed Unit) × Job (Routed Unit) × Job (Routed Unit)) := do
  let rest := willing.withRoutes cidrs
  let n ← planAdd loneCluster { role := .worker }
  let d ← Checked.ofOption .assertionError
    ((addNode someEnv rest { role := .worker } true).result runningLone)
  let m ← Checked.ofOption .assertionError
    ((addNode someEnv rest { role := .worker } false).result runningLone)
  let f ← Checked.ofOption .assertionError ((joinNode someEnv rest n.name.text).result m)
  return (n, d, m, f)

lemma bothWays_eq_ok {cidrs : String → Option String} {n : Node} {d m f : Job (Routed Unit)}
    (h : bothWays cidrs = .ok (n, d, m, f)) :
    planAdd loneCluster { role := .worker } = .ok n ∧
      (addNode someEnv (willing.withRoutes cidrs) { role := .worker } true).Ends runningLone d ∧
      (addNode someEnv (willing.withRoutes cidrs) { role := .worker } false).Ends runningLone m ∧
      (joinNode someEnv (willing.withRoutes cidrs) n.name.text).Ends m f := by
  simp only [bothWays, Checked.bind_eq_ok, Checked.ofOption_eq_ok, Script.result_eq_some,
    Checked.pure_eq_ok, Prod.mk.injEq] at h
  obtain ⟨n, hn, d, hd, m, hm, f, hf, rfl, rfl, rfl, rfl⟩ := h
  exact ⟨hn, hd, hm, hf⟩

lemma running_lone : Running runningLone := by
  have hok : (operatorRoutes loneCluster).isOk = true := by decide
  obtain ⟨routes, hroutes⟩ := Checked.exists_eq_ok hok
  have hrouted : runningLone.site.other.routes = ⟨routes, routes, routes⟩ := by
    rw [runningLone, hroutes]
    rfl
  exact ⟨routes, hroutes, rfl, rfl, by rw [hrouted], by rw [hrouted]⟩

/-- Where Kubernetes has no pod CIDR for the worker yet, the two ways end alike. -/
theorem deferred_eq_direct_unassigned :
    ∃ (n : Node) (d m f : Job (Routed Unit)), planAdd loneCluster { role := .worker } = .ok n ∧
      (addNode someEnv (willing.withRoutes fun _ => some "") { role := .worker } true).Ends
        runningLone d ∧
      (addNode someEnv (willing.withRoutes fun _ => some "") { role := .worker } false).Ends
        runningLone m ∧
      (joinNode someEnv (willing.withRoutes fun _ => some "") n.name.text).Ends m f ∧
        EndAlike d f := by
  have hok : (bothWays fun _ => some "").isOk = true := by decide +kernel
  obtain ⟨⟨n, d, m, f⟩, hrun⟩ := Checked.exists_eq_ok hok
  obtain ⟨hn, hd, hm, hf⟩ := bothWays_eq_ok hrun
  refine ⟨n, d, m, f, hn, hd, hm, hf, (deferred_eq_direct_iff running_lone hn hd hm hf).mpr ?_⟩
  intro _ _ text htext hne
  exact absurd (Option.some_inj.mp htext).symm hne

/-- What Kubernetes hands out: the worker gets the second /24 of the pods. -/
def handedOut (name : String) : Option String :=
  if name = "dev-worker-1" then some "10.244.1.0/24" else none

/-- The worker joined later has no pod CIDR in `cluster.yaml` and no route. -/
theorem not_deferred_eq_direct :
    ∃ (n : Node) (d m f : Job (Routed Unit)), Running runningLone ∧
      planAdd loneCluster { role := .worker } = .ok n ∧
      (addNode someEnv (willing.withRoutes handedOut) { role := .worker } true).Ends
        runningLone d ∧
      (addNode someEnv (willing.withRoutes handedOut) { role := .worker } false).Ends
        runningLone m ∧
      (joinNode someEnv (willing.withRoutes handedOut) n.name.text).Ends m f ∧ ¬ EndAlike d f := by
  have hrun : (do
      let (_, d, _, f) ← bothWays handedOut
      return decide (d.site.file ≠ f.site.file) : Except Raised Bool) = .ok true := by
    decide +kernel
  simp only [Checked.bind_eq_ok, Checked.pure_eq_ok, decide_eq_true_eq] at hrun
  obtain ⟨⟨n, d, m, f⟩, hways, hne⟩ := hrun
  obtain ⟨hn, hd, hm, hf⟩ := bothWays_eq_ok hways
  exact ⟨n, d, m, f, running_lone, hn, hd, hm, hf, fun h => hne h.file⟩

end Tk8s
