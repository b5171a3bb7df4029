import Tk8s.Lib.Run
import Tk8s.Node.Add

/-!
`node/delete.py`: `delete node`, whose phases are done when that part is already gone.

* `Held`: what there is of the node beside its unit file, and what the routers list.
* `Answers`: what the apiserver and the routers answer.
* `deleteNode`: the six phases; `DeleteStep`: one run, stopped at any command or finished.
* `Deleted`: everything is gone, the rest is rendered without the node, and systemd was told.
* `resumes_of_reads`: **in every run of deletes the node's object goes first and its entry last, and
  whoever finishes leaves everything deleted**, as long as no run finds the units phase done before
  systemd has read the units.
-/

namespace Tk8s

variable {V : Type}

/-! ### What there is of a node -/

/-- The parts of one node, and everything else. -/
structure Held (V : Type) where
  /-- The Node object of the apiserver. -/
  object : Bool
  /-- `<node>.service` is active. -/
  active : Bool
  container : Bool
  volumes : List String
  /-- The node's directory under the state directory. -/
  dir : Bool
  /-- The operator's route to the pods of the node. -/
  route : Bool
  /-- The control planes a router lists. -/
  members : String → List String
  other : V

/-- What the apiserver and the routers answer, and how the rest goes on with each command. -/
structure Answers (V : Type) where
  /-- kubectl gets an answer from the apiserver. -/
  reachable : V → Bool
  /-- The routers let go of the node and answer. -/
  settles : V → Bool
  /-- `kubectl delete node` succeeds. -/
  deletes : V → Bool
  running : String → V → Bool
  /-- What a router lists once it has loaded its configuration. -/
  loads : String → V → List String
  act : V → V

/-- A job of `delete node`. -/
abbrev NodeJob (V : Type) := Job (Routed (Held V))

def NodeJob.held (j : NodeJob V) : Held V := j.site.other.other

def NodeJob.withHeld (j : NodeJob V) (w : Held V) : NodeJob V :=
  { j with site := { j.site with other := { j.site.other with other := w } } }

/-- A script on the parts of the node. -/
def onHeld (p : Script (Held V)) : Script (NodeJob V) :=
  Script.within NodeJob.held (fun w j => j.withHeld w) p

/-- The rest of the world with the parts of the node in it. -/
def Rest.withHeld (rest : Rest V) : Rest (Held V) where
  done full c w := rest.done full c w.other
  act full c := Script.within (fun w => w.other) (fun v w => { w with other := v }) (rest.act full c)
  datapath w := rest.datapath w.other
  cilium := rest.cilium
  cidrs w := rest.cidrs w.other
  now w := rest.now w.other

/-- create's units phase among all this. -/
def unitsOf (e : Env) (rest : Rest V) : Leaf (NodeJob V) :=
  unitsPhase e (rest.withHeld.withRoutes fun _ => none)

/-- `host_for`: the host of the node, or the operator. -/
def hostFor (c : Cluster) (name : String) : MachineId :=
  ((findNode c name).bind fun n => machineOf c n.host).getD none

/-- `trimmed`: the cluster as it will be once the node is gone. -/
def trimmed (c : Cluster) (name : String) : Except Raised Cluster :=
  if (findNode c name).isSome then withoutNode c name else .ok c

/-! ### The routers -/

/-- `synced`: the router lists exactly the control planes of the cluster. -/
def synced (c : Cluster) (w : Held V) (r : Router) : Bool :=
  (w.members r.name).all (· ∈ c.controlPlanes.map (·.name.text)) &&
    c.controlPlanes.all (·.name.text ∈ w.members r.name)

/-- `running_routers`. -/
def runningRouters (o : Answers V) (c : Cluster) (w : Held V) : List Router :=
  match c.routers with
  | .error _ => []
  | .ok routers => routers.filter fun r => o.running r.name w.other

/-- `all_synced`: every running router; false when none runs. -/
def allSynced (o : Answers V) (c : Cluster) (w : Held V) : Bool :=
  !(runningRouters o c w).isEmpty && (runningRouters o c w).all (synced c w)

/-- `reload`: the router loads its configuration, then it has to list the control planes. -/
def reloadRouter (o : Answers V) (c : Cluster) (r : Router) : Script (Held V) :=
  Script.seq
    (Script.command fun w =>
      { w with members := Function.update w.members r.name (o.loads r.name w.other)
               other := o.act w.other })
    (Script.cond (fun w => synced c w r) Script.skip Script.fail)

/-- `reload_all`: no router running at all is a failure. -/
def reloadAll (o : Answers V) (c : Cluster) : Script (Held V) :=
  Script.ask fun w =>
    if (runningRouters o c w).isEmpty then Script.fail
    else Script.each (runningRouters o c w) (reloadRouter o c)

/-! ### The phases -/

section Phases

variable (e : Env) (rest : Rest V) (o : Answers V) (name : String)

/-- A command that changes none of the parts. -/
def Held.pass (w : Held V) : Held V := { w with other := o.act w.other }

/-- `drain_done`: only a NotFound answer means that the node is gone. -/
def drainDone (j : NodeJob V) : Bool := o.reachable j.held.other && !j.held.object

/-- `DRAIN`: drain, which may fail, kubeadm reset, the wait for the routers, and the Node object. -/
def drainPhase : Leaf (NodeJob V) where
  done := some (drainDone o)
  run := onHeld <|
    Script.cond (fun w => o.reachable w.other)
      (Script.seq (Script.command (Held.pass o)) <|
        Script.seq (Script.command (Held.pass o)) <|
        Script.seq (Script.cond (fun w => o.settles w.other) Script.skip Script.fail) <|
        Script.cond (fun w => o.deletes w.other)
          (Script.command fun w => { w.pass o with object := false }) Script.fail)
      Script.fail

def stopPhase : Leaf (NodeJob V) where
  done := some fun j => !j.held.active
  run := onHeld (Script.command fun w => { w.pass o with active := false })

def containerPhase : Leaf (NodeJob V) where
  done := some fun j => !j.held.container
  run := onHeld <| Script.onlyIf (fun w => w.container) <|
    Script.command fun w => { w.pass o with container := false }

def volumesPhase : Leaf (NodeJob V) where
  done := some fun j => (nodeVolumes name).all (· ∉ j.held.volumes)
  run := onHeld <| Script.each (nodeVolumes name) fun v => Script.onlyIf (fun w => v ∈ w.volumes) <|
    Script.command fun w => { w.pass o with volumes := w.volumes.filter (· ≠ v) }

/-- A phase for another cluster than the one of the context. -/
def forCluster (c : Cluster) (p : Script (NodeJob V)) : Script (NodeJob V) :=
  Script.within (fun j => { j with cluster := c }) (fun u j => { u with cluster := j.cluster }) p

/-- `units_done`. -/
def unitsGone (j : NodeJob V) : Bool :=
  match trimmed j.cluster name with
  | .error _ => false
  | .ok c =>
      decide ((j.site.machine (hostFor j.cluster name)).units name = none) && !j.held.dir &&
        (unitsOf e rest).isDone { j with cluster := c } && allSynced o c j.held

/-- `units_run`: the rest is rendered without the node first, then its unit goes, then systemd on its
host and the routers learn about it. -/
def dropUnits : Script (NodeJob V) :=
  Script.ask fun j =>
    match trimmed j.cluster name with
    | .error _ => Script.fail
    | .ok c =>
        Script.seq (if ((findNode j.cluster name).bind (·.podCidr)).isSome then
          onHeld (Script.command fun w => { w.pass o with route := false }) else Script.skip) <|
        Script.seq (forCluster c (unitsOf e rest).run) <|
        Script.seq (Script.command fun j' =>
          j'.onMachine (hostFor j.cluster name) fun m => m.removeUnit name) <|
        Script.seq (onHeld (Script.command fun w => { w.pass o with dir := false })) <|
        Script.seq (Script.command (Job.reloadOn (hostFor j.cluster name))) <|
        Script.seq (onHeld (Script.command (Held.pass o))) <|
        onHeld (reloadAll o c)

def dropPhase : Leaf (NodeJob V) where
  done := some (unitsGone e rest o name)
  run := dropUnits e rest o name

/-- `ENTRY`: the node leaves `cluster.yaml`. -/
def entryPhase : Leaf (NodeJob V) where
  done := some fun j => (findNode j.cluster name).isNone
  run := Script.ask fun j =>
    match withoutNode j.cluster name with
    | .error _ => Script.fail
    | .ok c => Script.command fun j => j.save c

/-- `PHASE`. -/
def deletePhases : List (Phase (NodeJob V)) :=
  [.group "delete"
    [.leaf "drain" (drainPhase o), .leaf "stop" (stopPhase o),
     .leaf "container" (containerPhase o), .leaf "volumes" (volumesPhase o name),
     .leaf "units" (dropPhase e rest o name), .leaf "entry" (entryPhase name)]]

/-- `delete node`, once it is not refused. -/
def deleteNode : Script (NodeJob V) := Runner.run { phases := deletePhases e rest o name }

/-- What runs between drain and units. -/
def beforeUnits : List (String × Leaf (NodeJob V)) :=
  [("delete/stop", stopPhase o), ("delete/container", containerPhase o),
   ("delete/volumes", volumesPhase o name)]

/-- What runs after drain. -/
def afterDrain : List (String × Leaf (NodeJob V)) :=
  beforeUnits o name ++
    [("delete/units", dropPhase e rest o name), ("delete/entry", entryPhase name)]

end Phases

/-! ### The claim and its condition -/

/-- systemd has read the units of a machine since they changed last. -/
structure Machine.Read (m : Machine) : Prop where
  units : m.loaded = m.units
  wants : m.loadedWants = m.wants

/-- The same of every unit on a machine, the routes unit of the operator among them. -/
structure ReadOn (s : Site (Routed (Held V))) (id : MachineId) : Prop where
  machine : (s.machine id).Read
  routes : id = none → s.other.routes.loaded = s.other.routes.text

/-- One `delete node`: refused when the node is not listed or is the first control plane, else
stopped at any command or finished. -/
def DeleteStep (e : Env) (name : String)
    (t : Trace.Transition (Site (Routed (Held V))) (Rest V × Answers V)) : Prop :=
  ∃ c ∈ t.source.file, (deletable c name).isOk = true ∧ ∃ j,
    (deleteNode e t.label.1 t.label.2 name).Reaches ⟨c, t.source, []⟩ j ∧ t.target = j.site

/-- A well-formed running cluster with the node in it. -/
structure Installed (e : Env) (c : Cluster) (name : String) (s : Site (Routed (Held V))) : Prop where
  file : s.file = some c
  units : unitsCurrent e ⟨c, s, []⟩ = true
  routes : routesCurrent c s.other = true
  unit : (s.machine (hostFor c name)).units name ≠ none
  read : ∀ id, ReadOn s id
  route : s.other.other.route = true → ((findNode c name).bind (·.podCidr)).isSome = true

/-- Everything of the node is gone, the rest is rendered without it, systemd has read the units and
the routers list the other control planes. -/
structure Deleted (e : Env) (rest : Rest V) (o : Answers V) (c c' : Cluster) (name : String)
    (s : Site (Routed (Held V))) : Prop where
  file : s.file = some c'
  object : s.other.other.object = false
  active : s.other.other.active = false
  container : s.other.other.container = false
  volumes : ∀ v ∈ nodeVolumes name, v ∉ s.other.other.volumes
  dir : s.other.other.dir = false
  route : s.other.other.route = false
  unit : (s.machine (hostFor c name)).units name = none
  rendered : (unitsOf e rest).isDone ⟨c', s, []⟩ = true
  routers : allSynced o c' s.other.other = true
  read : ∀ id, ReadOn s id

/-- The container or a volume was removed. -/
def Lost (s t : Site (Routed (Held V))) : Prop :=
  s.other.other.container = true ∧ t.other.other.container = false ∨
    ∃ v ∈ s.other.other.volumes, v ∉ t.other.other.volumes

/-- A run of the verb keeps the claim: when it succeeds the entry is gone, when the entry is gone
everything is, and what was removed was removed after the apiserver answered NotFound. -/
structure Resumes (e : Env) (c c' : Cluster) (name : String)
    (t : Trace.Transition (Site (Routed (Held V))) (Rest V × Answers V)) : Prop where
  finished : ∀ j, (deleteNode e t.label.1 t.label.2 name).Ends ⟨c, t.source, []⟩ j →
    j.site.file = some c'
  gone : (∀ c₁ ∈ t.target.file, findNode c₁ name = none) →
    Deleted e t.label.1 t.label.2 c c' name t.target
  ordered : Lost t.source t.target → ∃ m j,
    (Runner.visit { phases := deletePhases e t.label.1 t.label.2 name }
      ("delete/drain", drainPhase t.label.2)).Ends ⟨c, t.source, []⟩ m ∧
    drainDone t.label.2 m = true ∧
    (Runner.visits { phases := deletePhases e t.label.1 t.label.2 name }
      (afterDrain e t.label.1 t.label.2 name)).Reaches m j ∧ t.target = j.site

/-- The units phase is not found done before systemd on the node's host has read the units. -/
def FindsRead (e : Env) (c : Cluster) (name : String)
    (t : Trace.Transition (Site (Routed (Held V))) (Rest V × Answers V)) : Prop :=
  ∀ k, (Runner.visits { phases := deletePhases e t.label.1 t.label.2 name }
      (("delete/drain", drainPhase t.label.2) :: beforeUnits t.label.2 name)).Ends
        ⟨c, t.source, []⟩ k →
    unitsGone e t.label.1 t.label.2 name k = true → ReadOn k.site (hostFor c name)

/-- Every host but the node's gets the same units with the node and without it. -/
structure RenderAlike (e : Env) (c c' : Cluster) (id : MachineId) : Prop where
  units : ∀ h ∈ perHost c, h.2 ≠ id → hostFiles e c' h.1 = hostFiles e c h.1
  routes : id ≠ none → operatorRoutes c' = operatorRoutes c

/-! ### What goes does not come back -/

/-- What is gone in `a` is gone in `w`. -/
structure Held.Fewer (a w : Held V) : Prop where
  object : a.object = false → w.object = false
  active : a.active = false → w.active = false
  container : a.container = false → w.container = false
  volumes : ∀ v, v ∉ a.volumes → v ∉ w.volumes
  dir : a.dir = false → w.dir = false
  route : a.route = false → w.route = false

namespace Held.Fewer

variable {a b w : Held V}

lemma refl (a : Held V) : a.Fewer a := ⟨id, id, id, fun _ => id, id, id⟩

lemma trans (h : a.Fewer b) (h' : b.Fewer w) : a.Fewer w :=
  ⟨h'.object ∘ h.object, h'.active ∘ h.active, h'.container ∘ h.container,
    fun v => h'.volumes v ∘ h.volumes v, h'.dir ∘ h.dir, h'.route ∘ h.route⟩

end Held.Fewer

variable {e : Env} {rest : Rest V} {o : Answers V} {name : String} {c c' : Cluster}
  {s₀ : Site (Routed (Held V))} {a : Held V} {j₀ j k m t : NodeJob V}

/-- A command that only takes away. -/
lemma fewer_command {f : Held V → Held V}
    (h : ∀ w : Held V, w.Fewer (f w)) :
    Script.Spec a.Fewer (Script.command f) a.Fewer a.Fewer :=
  Script.Spec.command fun w hw => ⟨hw, hw.trans (h w), hw.trans (h w)⟩

lemma fewer_skip : Script.Spec a.Fewer Script.skip a.Fewer a.Fewer :=
  Script.Spec.skip fun _ hw => ⟨hw, hw⟩

lemma fewer_pass : Script.Spec a.Fewer (Script.command (Held.pass o)) a.Fewer a.Fewer :=
  fewer_command fun _ => ⟨id, id, id, fun _ => id, id, id⟩

/-- A question that has to be answered with yes. -/
lemma fewer_require {b : Held V → Bool} {p : Script (Held V)}
    (hp : Script.Spec a.Fewer p a.Fewer a.Fewer) :
    Script.Spec a.Fewer (Script.cond b p Script.fail) a.Fewer a.Fewer :=
  Script.Spec.cond (hp.weaken (fun _ h => h.1) (fun _ h => h) fun _ h => h)
    (Script.Spec.fail fun _ h => h.1)

lemma fewer_onlyIf {b : Held V → Bool} {p : Script (Held V)}
    (hp : Script.Spec a.Fewer p a.Fewer a.Fewer) :
    Script.Spec a.Fewer (Script.onlyIf b p) a.Fewer a.Fewer :=
  Script.Spec.onlyIf (hp.weaken (fun _ h => h.1) (fun _ h => h) fun _ h => h)
    fun _ h _ => ⟨h, h⟩

lemma fewer_reloadAll : Script.Spec a.Fewer (reloadAll o c) a.Fewer a.Fewer := by
  refine Script.Spec.ask fun w hw => ?_
  by_cases hup : (runningRouters o c w).isEmpty = true
  · rw [if_pos hup]
    exact Script.Spec.fail fun _ h => h ▸ hw
  · rw [if_neg hup]
    have hloop : Script.Spec a.Fewer (Script.each (runningRouters o c w) (reloadRouter o c))
        a.Fewer a.Fewer := by
      refine Script.Spec.each_keeps fun r _ => ?_
      refine Script.Spec.seq (fewer_command fun _ => ?_) (fewer_require fewer_skip)
      exact ⟨id, id, id, fun _ => id, id, id⟩
    exact hloop.weaken (fun _ h => h ▸ hw) (fun _ h => h) fun _ h => h

/-! ### The phases before units -/

/-- Nothing changed but parts of the node that went. -/
structure OnlyParts (j₀ j : NodeJob V) : Prop where
  cluster : j.cluster = j₀.cluster
  file : j.site.file = j₀.site.file
  machine : j.site.machine = j₀.site.machine
  routes : j.site.other.routes = j₀.site.other.routes
  fewer : j₀.held.Fewer j.held

lemma OnlyParts.refl (j : NodeJob V) : OnlyParts j j := ⟨rfl, rfl, rfl, rfl, Held.Fewer.refl _⟩

lemma OnlyParts.trans (h : OnlyParts j₀ j) (h' : OnlyParts j k) : OnlyParts j₀ k :=
  ⟨h'.cluster.trans h.cluster, h'.file.trans h.file, h'.machine.trans h.machine,
    h'.routes.trans h.routes, h.fewer.trans h'.fewer⟩

/-- A script on the parts keeps what it keeps of the parts. -/
lemma spec_onHeld {p : Script (Held V)} {P : Held V → Prop} (h : Script.Spec P p P P)
    {inv : NodeJob V → Prop} (hP : ∀ j, inv j → P j.held)
    (hinv : ∀ j w, inv j → P w → inv (j.withHeld w)) : Script.Spec inv (onHeld p) inv inv := by
  refine Script.Spec.inside (fun _ => rfl) fun j hj => h.weaken ?_ (hinv j · hj) (hinv j · hj)
  rintro _ rfl
  exact hP j hj

lemma onlyParts_onHeld {p : Script (Held V)} (h : ∀ a : Held V, Script.Spec a.Fewer p a.Fewer a.Fewer) :
    Script.Spec (OnlyParts j₀) (onHeld p) (OnlyParts j₀) (OnlyParts j₀) :=
  spec_onHeld (h j₀.held) (fun _ hj => hj.fewer)
    fun _ _ hj hw => ⟨hj.cluster, hj.file, hj.machine, hj.routes, hw⟩

lemma onlyParts_drain :
    Script.Spec (OnlyParts j₀) (drainPhase o).run (OnlyParts j₀) (OnlyParts j₀) := by
  refine onlyParts_onHeld fun a => fewer_require (fewer_pass.seq (fewer_pass.seq ?_))
  refine (fewer_require fewer_skip).seq (fewer_require (fewer_command fun _ => ?_))
  exact ⟨fun _ => rfl, id, id, fun _ => id, id, id⟩

lemma onlyParts_stop :
    Script.Spec (OnlyParts j₀) (stopPhase o).run (OnlyParts j₀) (OnlyParts j₀) :=
  onlyParts_onHeld fun _ => fewer_command fun _ => ⟨id, fun _ => rfl, id, fun _ => id, id, id⟩

lemma onlyParts_container :
    Script.Spec (OnlyParts j₀) (containerPhase o).run (OnlyParts j₀) (OnlyParts j₀) :=
  onlyParts_onHeld fun _ => fewer_onlyIf <|
    fewer_command fun _ => ⟨id, id, fun _ => rfl, fun _ => id, id, id⟩

lemma onlyParts_volumes :
    Script.Spec (OnlyParts j₀) (volumesPhase o name).run (OnlyParts j₀) (OnlyParts j₀) := by
  refine onlyParts_onHeld fun _ => Script.Spec.each_keeps fun v _ => fewer_onlyIf <|
    fewer_command fun w => ⟨id, id, id, fun u hu hmem => ?_, id, id⟩
  exact hu (List.mem_of_mem_filter hmem)

/-- The visits of this verb keep what their phases keep. -/
lemma spec_deleteVisits {inv : NodeJob V → Prop} {phases : List (Phase (NodeJob V))}
    {ls : List (String × Leaf (NodeJob V))}
    (h : ∀ l ∈ ls, Script.Spec inv l.2.run inv inv) :
    Script.Spec inv (Runner.visits { phases := phases } ls) inv inv :=
  Runner.spec_visits (fun _ _ hj => hj) h fun _ => Script.Spec.skip fun _ hj => ⟨hj, hj⟩

lemma onlyParts_beforeUnits :
    ∀ l ∈ ("delete/drain", drainPhase o) :: beforeUnits o name,
      Script.Spec (OnlyParts (V := V) j₀) l.2.run (OnlyParts j₀) (OnlyParts j₀) := by
  simp only [beforeUnits, List.forall_mem_cons, List.not_mem_nil, false_imp_iff, implies_true,
    and_true]
  exact ⟨onlyParts_drain, onlyParts_stop, onlyParts_container, onlyParts_volumes⟩

/-- Drain touches neither the container nor the volumes. -/
lemma spec_drain_keeps {b : Bool} {v : List String} :
    Script.Spec (fun j : NodeJob V => j.held.container = b ∧ j.held.volumes = v)
      (drainPhase o).run (fun j => j.held.container = b ∧ j.held.volumes = v)
      (fun j => j.held.container = b ∧ j.held.volumes = v) := by
  have hcommand : ∀ f : Held V → Held V, (∀ w, (f w).container = w.container ∧
      (f w).volumes = w.volumes) → Script.Spec (fun w => w.container = b ∧ w.volumes = v)
        (Script.command f) (fun w => w.container = b ∧ w.volumes = v)
        (fun w => w.container = b ∧ w.volumes = v) := by
    intro f hf
    refine Script.Spec.command fun w hw => ?_
    rw [(hf w).1, (hf w).2]
    exact ⟨hw, hw, hw⟩
  have hrequire : ∀ (q : Held V → Bool) (p : Script (Held V)),
      Script.Spec (fun w => w.container = b ∧ w.volumes = v) p
        (fun w => w.container = b ∧ w.volumes = v) (fun w => w.container = b ∧ w.volumes = v) →
      Script.Spec (fun w => w.container = b ∧ w.volumes = v) (Script.cond q p Script.fail)
        (fun w => w.container = b ∧ w.volumes = v) (fun w => w.container = b ∧ w.volumes = v) :=
    fun q p hp => Script.Spec.cond (hp.weaken (fun _ h => h.1) (fun _ h => h) fun _ h => h)
      (Script.Spec.fail fun _ h => h.1)
  refine spec_onHeld (P := fun w => w.container = b ∧ w.volumes = v) (hrequire _ _ ?_)
    (fun _ h => h) fun _ _ _ h => h
  have hpass := hcommand (Held.pass o) fun _ => ⟨rfl, rfl⟩
  refine hpass.seq (hpass.seq (Script.Spec.seq (hrequire _ _ (Script.Spec.skip fun _ h => ⟨h, h⟩))
    (hrequire _ _ (hcommand _ fun _ => ?_))))
  exact ⟨rfl, rfl⟩

/-! ### While the entry is there -/

/-- The entry is in `cluster.yaml`, the other hosts are as they were, and the route of the node goes
before its unit. -/
structure Pending (c : Cluster) (name : String) (s₀ : Site (Routed (Held V))) (j : NodeJob V) :
    Prop where
  cluster : j.cluster = c
  file : j.site.file = some c
  others : ∀ id, id ≠ hostFor c name → j.site.machine id = s₀.machine id
  routes : hostFor c name ≠ none → j.site.other.routes = s₀.other.routes
  recorded : j.held.route = true → ((findNode c name).bind (·.podCidr)).isSome = true
  unit : j.held.route = true → (j.site.machine (hostFor c name)).units name ≠ none

lemma Pending.onlyParts (h : Pending c name s₀ j) (hk : OnlyParts j k) : Pending c name s₀ k := by
  have hroute : k.held.route = true → j.held.route = true := by
    intro hk'
    by_contra hj
    rw [Bool.not_eq_true] at hj
    rw [hk.fewer.route hj] at hk'
    exact Bool.false_ne_true hk'
  refine ⟨hk.cluster.trans h.cluster, hk.file.trans h.file, ?_, ?_, fun hr => h.recorded (hroute hr),
    ?_⟩
  · rw [hk.machine]
    exact h.others
  · rw [hk.routes]
    exact h.routes
  · rw [hk.machine]
    exact fun hr => h.unit (hroute hr)

lemma Pending.withHeld {w : Held V} (h : Pending c name s₀ j)
    (hw : w.route = true → j.held.route = true) : Pending c name s₀ (j.withHeld w) :=
  ⟨h.cluster, h.file, h.others, h.routes, fun hr => h.recorded (hw hr), fun hr => h.unit (hw hr)⟩

/-- While the units are dropped: the route is gone, and nothing comes back. -/
structure Dropping (c : Cluster) (name : String) (s₀ : Site (Routed (Held V))) (a : Held V)
    (j : NodeJob V) : Prop extends Pending c name s₀ j where
  gone : j.held.route = false
  fewer : a.Fewer j.held

lemma Dropping.withHeld {w : Held V} (h : Dropping c name s₀ a j) (hw : a.Fewer w)
    (hroute : w.route = false) : Dropping c name s₀ a (j.withHeld w) :=
  { h.toPending.withHeld fun hr => absurd hr (by simp [hroute]) with gone := hroute, fewer := hw }

/-- The same of what is left beside the machines. -/
structure PartsDropping (c : Cluster) (name : String) (s₀ : Site (Routed (Held V))) (a : Held V)
    (w : Routed (Held V)) : Prop where
  routes : hostFor c name ≠ none → w.routes = s₀.other.routes
  gone : w.other.route = false
  fewer : a.Fewer w.other

lemma Dropping.parts (h : Dropping c name s₀ a j) : PartsDropping c name s₀ a j.site.other :=
  ⟨h.routes, h.gone, h.fewer⟩

lemma Dropping.withParts {w : Routed (Held V)} (h : Dropping c name s₀ a j)
    (hw : PartsDropping c name s₀ a w) :
    Dropping c name s₀ a { j with site := { j.site with other := w } } where
  cluster := h.cluster
  file := h.file
  others := h.others
  routes := hw.routes
  recorded hr := absurd (hw.gone.symm.trans hr) Bool.false_ne_true
  unit hr := absurd (hw.gone.symm.trans hr) Bool.false_ne_true
  gone := hw.gone
  fewer := hw.fewer

/-- A command on the node's host leaves the others as they were. -/
lemma Dropping.onMachine {f : Machine → Machine} (h : Dropping c name s₀ a j) :
    Dropping c name s₀ a (j.onMachine (hostFor c name) f) where
  cluster := h.cluster
  file := h.file
  others id hid := (onMachine_of_ne hid).trans (h.others id hid)
  routes := h.routes
  recorded := h.recorded
  unit hr := absurd (h.gone.symm.trans hr) Bool.false_ne_true
  gone := h.gone
  fewer := h.fewer

/-- Written as it was, a machine stays as it was. -/
lemma onMachine_eq_self {id : MachineId} {f : Machine → Machine}
    (h : f (j.site.machine id) = j.site.machine id) : j.onMachine id f = j := by
  rw [Job.onMachine, Site.onMachine, h, Function.update_eq_self]

lemma writeUnit_eq_self {M : Machine} {stem text : String} (h : M.units stem = some text) :
    M.writeUnit stem text = M := by
  rw [Machine.writeUnit, ← h, Function.update_eq_self]

/-! ### The units phase -/

/-- A host's files are those of one of the hosts. -/
lemma mem_unitFiles {l : List HostFiles} (h : unitFiles e c = .ok l) {hf : HostFiles} :
    hf ∈ l ↔ ∃ p ∈ perHost c, hostFiles e c p.1 = .ok hf.units ∧ hf.machine = p.2 := by
  rw [unitFiles, Checked.mapM_eq_ok] at h
  generalize perHost c = hosts at h ⊢
  induction h with
  | nil => simp
  | @cons p hf' _ _ hp _ ih =>
      simp only [Checked.bind_eq_ok, Checked.pure_eq_ok] at hp
      obtain ⟨units, hunits, rfl⟩ := hp
      rw [List.mem_cons, ih, List.exists_mem_cons_iff, hunits, Except.ok.injEq]
      refine or_congr_left ⟨fun h => h ▸ ⟨rfl, rfl⟩, ?_⟩
      rintro ⟨h₁, h₂⟩
      cases hf
      simp_all

section Drop

variable (hinst : Installed e c name s₀) (hc' : withoutNode c name = .ok c')
  (halike : RenderAlike e c c' (hostFor c name))

include hinst hc' halike

/-- **What units writes on another host is there already.** -/
lemma written_eq_self {l : List HostFiles} (hl : unitFiles e c' = .ok l) {hf : HostFiles}
    (hhf : hf ∈ l) (hid : hf.machine ≠ hostFor c name) :
    (∀ u ∈ hf.units, (s₀.machine hf.machine).writeUnit u.1 u.2 = s₀.machine hf.machine) ∧
      (s₀.machine hf.machine).writeTarget (hf.units.map (·.1)) = s₀.machine hf.machine := by
  obtain ⟨p, hp, hunits, hmachine⟩ := (mem_unitFiles hl).mp hhf
  have hhosts : perHost c' = perHost c := by
    rw [(withoutNode_eq_ok hc').1]
    rfl
  rw [hhosts] at hp
  rw [halike.units p hp (hmachine ▸ hid)] at hunits
  have hcurrent := hinst.units
  rw [unitsCurrent] at hcurrent
  cases hl₀ : unitFiles e c with
  | error err =>
      simp only [hl₀] at hcurrent
      exact absurd hcurrent Bool.false_ne_true
  | ok l₀ =>
      have hmem : hf ∈ l₀ := (mem_unitFiles hl₀).mpr ⟨p, hp, hunits, hmachine⟩
      simp only [hl₀, List.all_eq_true, Bool.and_eq_true, decide_eq_true_eq] at hcurrent
      obtain ⟨hwants, hall⟩ := hcurrent hf hmem
      refine ⟨fun u hu => writeUnit_eq_self (hall u hu), ?_⟩
      rw [Machine.writeTarget, ← hwants]

lemma keepsWrite_dropping : KeepsWrite e fun u : NodeJob V =>
    u.cluster = c' ∧ Dropping c name s₀ a { u with cluster := c } := by
  rintro u l hl hf hhf ⟨rfl, hu⟩
  by_cases hid : hf.machine = hostFor c name
  · rw [hid]
    have hon : ∀ f, Dropping c name s₀ a
        { u.onMachine (hostFor c name) f with cluster := c } := fun _ => hu.onMachine
    exact ⟨fun _ _ => ⟨rfl, hon _⟩, rfl, hon _⟩
  · obtain ⟨hunits, htarget⟩ := written_eq_self hinst hc' halike hl hhf hid
    have hmachine : u.site.machine hf.machine = s₀.machine hf.machine := hu.others _ hid
    rw [← hmachine] at hunits htarget
    refine ⟨fun f hf' => ?_, ?_⟩
    · rw [onMachine_eq_self (hunits f hf')]
      exact ⟨rfl, hu⟩
    · rw [onMachine_eq_self htarget]
      exact ⟨rfl, hu⟩

omit hc' in
/-- **The routes unit of the operator, rendered for another host's node, is there already.** -/
lemma spec_writeRoutes_dropping :
    Script.Spec (PartsDropping (V := V) c name s₀ a) (writeRoutes c') (PartsDropping c name s₀ a)
      (PartsDropping c name s₀ a) := by
  rw [writeRoutes]
  cases hroutes : operatorRoutes c' with
  | error err => exact Script.Spec.fail fun _ h => h
  | ok routes =>
      cases routes with
      | none => exact Script.Spec.skip fun _ h => ⟨h, h⟩
      | some text =>
          refine Script.Spec.command fun w hw => ?_
          have hwritten : hostFor c name ≠ none →
              ({ w.routes with text := some text } : RoutesUnit) = s₀.other.routes := by
            intro hid
            have hcurrent := hinst.routes
            rw [routesCurrent, ← halike.routes hid, hroutes] at hcurrent
            rw [hw.routes hid, ← of_decide_eq_true hcurrent]
          have hput : PartsDropping c name s₀ a { w with routes := { w.routes with text := text } } :=
            ⟨hwritten, hw.gone, hw.fewer⟩
          exact ⟨hw, hput, hput⟩

omit hc' in
/-- The rest of what units writes. -/
lemma spec_unitsScript_dropping : Script.Spec
    (fun u : NodeJob V => u.cluster = c' ∧ Dropping c name s₀ a { u with cluster := c })
    ((rest.withHeld.withRoutes fun _ => none).script "units")
    (fun u => u.cluster = c' ∧ Dropping c name s₀ a { u with cluster := c })
    (fun u => u.cluster = c' ∧ Dropping c name s₀ a { u with cluster := c }) := by
  refine Script.Spec.ask fun u hu => ?_
  have hact : (rest.withHeld.withRoutes fun _ => none).act "units" u.cluster =
      Script.seq (writeRoutes u.cluster) (elsewhere (rest.withHeld.act "units" u.cluster)) := rfl
  rw [hact, hu.1]
  have helse : Script.Spec (PartsDropping (V := V) c name s₀ a)
      (elsewhere (rest.withHeld.act "units" c')) (PartsDropping c name s₀ a)
      (PartsDropping c name s₀ a) := by
    have hother : rest.withHeld.act "units" c' = Script.within (fun w : Held V => w.other)
      (fun v w => { w with other := v }) (rest.act "units" c') := rfl
    rw [elsewhere, hother, Script.within_within]
    refine Script.Spec.within (fun _ => rfl) fun w v hw => ?_
    have hput : PartsDropping c name s₀ a { w with other := { w.other with other := v } } :=
      ⟨hw.routes, hw.gone, hw.fewer.object, hw.fewer.active, hw.fewer.container, hw.fewer.volumes,
        hw.fewer.dir, hw.fewer.route⟩
    exact ⟨hput, hput⟩
  refine Script.Spec.inside (fun _ => rfl) ?_
  rintro u rfl
  refine ((spec_writeRoutes_dropping hinst halike).seq helse).weaken ?_ (fun w hw => ?_)
    fun w hw => ?_
  · rintro _ rfl
    exact hu.2.parts
  · exact ⟨hu.1, hu.2.withParts hw⟩
  · exact ⟨hu.1, hu.2.withParts hw⟩

/-- **Rendering the rest without the node leaves the other hosts as they were.** -/
lemma spec_forCluster_units :
    Script.Spec (Dropping (V := V) c name s₀ a) (forCluster c' (unitsOf e rest).run)
      (Dropping c name s₀ a) (Dropping c name s₀ a) := by
  refine Script.Spec.inside (fun _ => rfl) fun j hj => ?_
  have hrun : Script.Spec
      (fun u : NodeJob V => u.cluster = c' ∧ Dropping c name s₀ a { u with cluster := c })
      (unitsOf e rest).run
      (fun u => u.cluster = c' ∧ Dropping c name s₀ a { u with cluster := c })
      (fun u => u.cluster = c' ∧ Dropping c name s₀ a { u with cluster := c }) :=
    spec_unitsRun (spec_unitsScript_dropping hinst halike) (keepsWrite_dropping hinst hc' halike)
  have hcluster := hj.cluster
  refine hrun.weaken ?_ (fun u hu => ?_) fun u hu => ?_
  · rintro _ rfl
    refine ⟨rfl, ?_⟩
    have hback : ({ j with cluster := c } : NodeJob V) = j := by rw [← hcluster]
    exact hback.symm ▸ hj
  · rw [hcluster]
    exact hu.2
  · rw [hcluster]
    exact hu.2

omit hinst halike in
/-- The node is listed, and not afterwards. -/
lemma findNode_of_withoutNode :
    (findNode c name).isSome = true ∧ findNode c' name = none := by
  have hread := hc'
  simp only [withoutNode, deletable, Checked.bind_eq_ok, Checked.ofOption_eq_ok,
    Checked.pure_eq_ok] at hread
  obtain ⟨n, ⟨first, -, _, -, hfind⟩, rfl⟩ := hread
  refine ⟨by rw [hfind]; rfl, List.find?_eq_none.mpr fun n' hn' heq => ?_⟩
  rw [Cluster.withNodes_nodes, List.mem_filter, decide_eq_true_eq] at hn'
  exact hn'.2 (of_decide_eq_true heq)

omit hinst halike in
lemma trimmed_eq : trimmed c name = .ok c' := by
  rw [trimmed, if_pos (findNode_of_withoutNode hc').1, hc']

omit hinst hc' halike in
/-- systemd on the node's host reads what there is. -/
lemma readOn_reload (h : Dropping c name s₀ a j) :
    Dropping c name s₀ a (j.reloadOn (hostFor c name)) ∧
      ReadOn (j.reloadOn (hostFor c name)).site (hostFor c name) := by
  have hread : ((j.onMachine (hostFor c name) Machine.reload).site.machine (hostFor c name)).Read := by
    rw [onMachine_self]
    exact ⟨rfl, rfl⟩
  have hon : Dropping c name s₀ a (j.onMachine (hostFor c name) Machine.reload) := h.onMachine
  rw [Job.reloadOn]
  by_cases hid : hostFor c name = none
  · rw [if_pos hid]
    refine ⟨hon.withParts ⟨fun hne => absurd hid hne, hon.gone, hon.fewer⟩, hread, fun _ => rfl⟩
  · rw [if_neg hid]
    exact ⟨hon, hread, fun hnone => absurd hnone hid⟩

/-- **The units phase, stopped anywhere, leaves the entry pending; at its end the route is gone and
systemd on the node's host has read its units.** -/
lemma spec_dropUnits : Script.Spec (fun j : NodeJob V => Pending c name s₀ j ∧ a.Fewer j.held)
    (dropUnits e rest o name) (fun j => Pending c name s₀ j ∧ a.Fewer j.held)
    (fun j => Dropping c name s₀ a j ∧ ReadOn j.site (hostFor c name)) := by
  refine Script.Spec.ask fun j hj => ?_
  have hcluster := hj.1.cluster
  rw [hcluster, trimmed_eq hc']
  have hstop : ∀ j : NodeJob V, Dropping c name s₀ a j → Pending c name s₀ j ∧ a.Fewer j.held :=
    fun j hj => ⟨hj.toPending, hj.fewer⟩
  have hroute : Script.Spec (fun k : NodeJob V => k = j)
      (if ((findNode c name).bind (·.podCidr)).isSome then
        onHeld (Script.command fun w => { w.pass o with route := false }) else Script.skip)
      (fun j => Pending c name s₀ j ∧ a.Fewer j.held) (Dropping c name s₀ a) := by
    by_cases hcidr : ((findNode c name).bind (·.podCidr)).isSome = true
    · rw [if_pos hcidr]
      refine Script.Spec.inside (fun _ => rfl) ?_
      rintro j rfl
      refine Script.Spec.command ?_
      rintro _ rfl
      have hfewer : a.Fewer { j.held.pass o with route := false } :=
        ⟨hj.2.object, hj.2.active, hj.2.container, hj.2.volumes, hj.2.dir, fun _ => rfl⟩
      have hdrop : Dropping c name s₀ a (j.withHeld { j.held.pass o with route := false }) :=
        { hj.1.withHeld fun hr => absurd hr Bool.false_ne_true with gone := rfl, fewer := hfewer }
      exact ⟨hj, hstop _ hdrop, hdrop⟩
    · rw [if_neg hcidr]
      refine Script.Spec.skip ?_
      rintro j rfl
      have hgone : j.held.route = false := by
        by_contra hne
        exact hcidr (hj.1.recorded (by simpa using hne))
      exact ⟨hj, { hj.1 with gone := hgone, fewer := hj.2 }⟩
  have hrender : Script.Spec (Dropping (V := V) c name s₀ a) (forCluster c' (unitsOf e rest).run)
      (fun j => Pending c name s₀ j ∧ a.Fewer j.held) (Dropping c name s₀ a) :=
    (spec_forCluster_units hinst hc' halike).weaken (fun _ h => h) hstop fun _ h => h
  have hunit : Script.Spec (Dropping (V := V) c name s₀ a)
      (Script.command fun j => j.onMachine (hostFor c name) fun m => m.removeUnit name)
      (fun j => Pending c name s₀ j ∧ a.Fewer j.held) (Dropping c name s₀ a) :=
    Script.Spec.command fun j hj => ⟨hstop _ hj, hstop _ hj.onMachine, hj.onMachine⟩
  have hdir : Script.Spec (Dropping (V := V) c name s₀ a)
      (onHeld (Script.command fun w => { w.pass o with dir := false }))
      (Dropping c name s₀ a) (Dropping c name s₀ a) := by
    refine spec_onHeld (P := fun w => a.Fewer w ∧ w.route = false)
      (Script.Spec.command fun w hw => ?_) (fun j hj => ⟨hj.fewer, hj.gone⟩)
      fun j w hj hw => hj.withHeld hw.1 hw.2
    have hw' : a.Fewer { w.pass o with dir := false } :=
      ⟨hw.1.object, hw.1.active, hw.1.container, hw.1.volumes, fun _ => rfl, hw.1.route⟩
    exact ⟨hw, ⟨hw', hw.2⟩, hw', hw.2⟩
  have hreload : Script.Spec (Dropping (V := V) c name s₀ a)
      (Script.command (Job.reloadOn (hostFor c name)))
      (fun j => Pending c name s₀ j ∧ a.Fewer j.held)
      (fun j => Dropping c name s₀ a j ∧ ReadOn j.site (hostFor c name)) := by
    refine Script.Spec.command fun j hj => ?_
    exact ⟨hstop _ hj, hstop _ (readOn_reload hj).1, readOn_reload hj⟩
  have hafter : ∀ p : Script (Held V), (∀ a : Held V, Script.Spec a.Fewer p a.Fewer a.Fewer) →
      Script.Spec (fun j : NodeJob V => Dropping c name s₀ a j ∧ ReadOn j.site (hostFor c name))
        (onHeld p) (fun j => Pending c name s₀ j ∧ a.Fewer j.held)
        (fun j => Dropping c name s₀ a j ∧ ReadOn j.site (hostFor c name)) := by
    intro p hp
    refine Script.Spec.inside (fun _ => rfl) fun j hj => ?_
    have hback : ∀ w, j.held.Fewer w →
        Dropping c name s₀ a (j.withHeld w) ∧ ReadOn (j.withHeld w).site (hostFor c name) :=
      fun w hw => ⟨hj.1.withHeld (hj.1.fewer.trans hw) (hw.route hj.1.gone), hj.2.machine, hj.2.routes⟩
    refine (hp j.held).weaken ?_ (fun w hw => hstop _ (hback w hw).1) hback
    rintro _ rfl
    exact Held.Fewer.refl _
  exact hroute.seq (hrender.seq (hunit.seq
    ((hdir.weaken (fun _ h => h) hstop fun _ h => h).seq
      (hreload.seq ((hafter _ fun _ => fewer_pass).seq (hafter _ fun _ => fewer_reloadAll))))))

end Drop

/-! ### One run -/

section OneRun

variable (hinst : Installed e c name s₀) (hc' : withoutNode c name = .ok c')
  (halike : RenderAlike e c c' (hostFor c name))

/-- The phases, in order. -/
lemma deleteNode_eq : deleteNode e rest o name =
    Runner.visits { phases := deletePhases e rest o name }
      ((("delete/drain", drainPhase o) :: beforeUnits o name) ++
        [("delete/units", dropPhase e rest o name), ("delete/entry", entryPhase name)]) := rfl

/-- What the phases before units leave behind. -/
structure Emptied (name : String) (j₀ k : NodeJob V) : Prop extends OnlyParts j₀ k where
  object : k.held.object = false
  active : k.held.active = false
  container : k.held.container = false
  volumes : ∀ v ∈ nodeVolumes name, v ∉ k.held.volumes

/-- **The phases before units remove the parts of the node.** -/
lemma emptied_of_ends {phases : List (Phase (NodeJob V))}
    (h : (Runner.visits { phases := phases }
      (("delete/drain", drainPhase o) :: beforeUnits o name)).Ends j₀ k) : Emptied name j₀ k := by
  simp only [beforeUnits, Runner.visits, Script.each_cons, Script.each_nil, Script.ends_seq,
    Script.ends_skip] at h
  obtain ⟨m₁, h₁, m₂, h₂, m₃, h₃, m₄, h₄, rfl⟩ := h
  have hdone : ∀ {full : String} {l : Leaf (NodeJob V)} {s t : NodeJob V},
      (Runner.visit { phases := phases } (full, l)).Ends s t → ∀ done ∈ l.done, done t = true :=
    Runner.done_of_ends rfl rfl fun _ => rfl
  have hkeep : ∀ {l : String × Leaf (NodeJob V)} {s t : NodeJob V},
      Script.Spec (OnlyParts s) l.2.run (OnlyParts s) (OnlyParts s) →
        (Runner.visit { phases := phases } l).Ends s t → OnlyParts s t :=
    fun hl ht => (Runner.spec_visit (fun _ h => h) hl
      (Script.Spec.skip fun _ h => ⟨h, h⟩)).ends (OnlyParts.refl _) ht
  have k₁ := hkeep onlyParts_drain h₁
  have k₂ := hkeep onlyParts_stop h₂
  have k₃ := hkeep onlyParts_container h₃
  have k₄ := hkeep onlyParts_volumes h₄
  have hobject : m₁.held.object = false := by
    have h := hdone h₁ _ rfl
    rw [drainDone, Bool.and_eq_true, Bool.not_eq_true'] at h
    exact h.2
  have hactive : m₂.held.active = false := by simpa using hdone h₂ _ rfl
  have hcontainer : m₃.held.container = false := by simpa using hdone h₃ _ rfl
  have hvolumes : ∀ v ∈ nodeVolumes name, v ∉ k.held.volumes := by
    have h := hdone h₄ _ rfl
    rw [List.all_eq_true] at h
    exact fun v hv => of_decide_eq_true (h v hv)
  exact { k₁.trans (k₂.trans (k₃.trans k₄)) with
    object := k₄.fewer.object (k₃.fewer.object (k₂.fewer.object hobject))
    active := k₄.fewer.active (k₃.fewer.active hactive)
    container := k₄.fewer.container hcontainer
    volumes := hvolumes }

include hinst hc' halike

/-- **A run that gets past units leaves nothing of the node but its entry.** -/
lemma deleted_of_units {phases : List (Phase (NodeJob V))} (hk : Pending c name s₀ k)
    (hempty : Emptied name j₀ k)
    (hread : unitsGone e rest o name k = true → ReadOn k.site (hostFor c name))
    (h : (Runner.visit { phases := phases } ("delete/units", dropPhase e rest o name)).Ends k m) :
    Pending c name s₀ m ∧ Deleted e rest o c c' name { m.site with file := some c' } := by
  have hgone : unitsGone e rest o name m = true :=
    Runner.done_of_ends (r := { phases := phases }) (l := ("delete/units", dropPhase e rest o name))
      rfl rfl (fun _ => rfl) h _ rfl
  have hpost : Pending c name s₀ m ∧ k.held.Fewer m.held ∧ ReadOn m.site (hostFor c name) := by
    rcases Runner.ends_visit (r := { phases := phases })
      (l := ("delete/units", dropPhase e rest o name)) rfl rfl h with ⟨-, rfl⟩ | ⟨-, u, hu, -, hm⟩
    · exact ⟨hk, Held.Fewer.refl _, hread hgone⟩
    · obtain rfl := Script.ends_skip.mp hm
      have hdrop := (spec_dropUnits hinst hc' halike).ends ⟨hk, Held.Fewer.refl _⟩ hu
      exact ⟨hdrop.1.toPending, hdrop.1.fewer, hdrop.2⟩
  obtain ⟨hm, hfewer, hon⟩ := hpost
  refine ⟨hm, ?_⟩
  rw [unitsGone, hm.cluster, trimmed_eq hc'] at hgone
  simp only [Bool.and_eq_true, decide_eq_true_eq, Bool.not_eq_true'] at hgone
  obtain ⟨⟨⟨hunit, hdir⟩, hrendered⟩, hrouters⟩ := hgone
  have hroute : m.held.route = false := by
    by_contra hne
    exact hm.unit (by simpa using hne) hunit
  refine { file := rfl, object := hfewer.object hempty.object, active := hfewer.active hempty.active
           container := hfewer.container hempty.container
           volumes := fun v hv => hfewer.volumes v (hempty.volumes v hv)
           dir := hdir, route := hroute, unit := hunit, rendered := hrendered, routers := hrouters
           read := fun id => ?_ }
  by_cases hid : id = hostFor c name
  · rw [hid]
    exact ⟨hon.machine, hon.routes⟩
  · have hstart := hinst.read id
    refine ⟨?_, fun hnone => ?_⟩
    · rw [show ({ m.site with file := some c' } : Site _).machine id = s₀.machine id from
        hm.others id hid]
      exact hstart.machine
    · have hroutes : m.site.other.routes = s₀.other.routes :=
        hm.routes fun hhost => hid (hnone.trans hhost.symm)
      change m.site.other.routes.loaded = m.site.other.routes.text
      rw [hroutes]
      exact hstart.routes hnone

/-- The units phase, found done or run, stopped or not, leaves the entry pending. -/
lemma spec_unitsVisit {phases : List (Phase (NodeJob V))} :
    Script.Spec (Pending (V := V) c name s₀)
      (Runner.visit { phases := phases } ("delete/units", dropPhase e rest o name))
      (Pending c name s₀) (Pending c name s₀) := by
  refine Runner.spec_visit (r := { phases := phases })
    (l := ("delete/units", dropPhase e rest o name)) (fun _ h => h) ?_
    (Script.Spec.skip fun _ h => ⟨h, h⟩)
  constructor
  · intro j t hj ht
    exact ((spec_dropUnits (a := j.held) hinst hc' halike).stops ⟨hj, Held.Fewer.refl _⟩ ht).1
  · intro j t hj ht
    exact ((spec_dropUnits (a := j.held) hinst hc' halike).ends ⟨hj, Held.Fewer.refl _⟩ ht).1.toPending

omit hinst halike in
lemma entry_pending (hm : Pending c name s₀ m) :
    (entryPhase (V := V) name).isDone m = false := by
  have hlisted := (findNode_of_withoutNode hc').1
  rw [← hm.cluster] at hlisted
  have hdone : (entryPhase name).isDone m = (findNode m.cluster name).isNone := rfl
  rw [hdone, ← Option.not_isSome, hlisted, Bool.not_true]

omit hinst halike in
lemma spec_entryRun (hm : Pending c name s₀ m) : Script.Spec (fun j => j = m)
    (entryPhase (V := V) name).run (fun t => t = m ∨ t = m.save c') (fun t => t = m.save c') := by
  simp only [entryPhase]
  refine Script.Spec.ask ?_
  rintro m rfl
  rw [hm.cluster, hc']
  refine Script.Spec.command ?_
  rintro m rfl
  exact ⟨Or.inl rfl, Or.inr rfl, rfl⟩

omit hinst halike in
/-- The end of the verb: the node leaves `cluster.yaml`. -/
lemma spec_entry {phases : List (Phase (NodeJob V))} (hm : Pending c name s₀ m) :
    Script.Spec (fun j => j = m) (Runner.visits { phases := phases }
      [("delete/entry", entryPhase name)]) (fun t => t = m ∨ t = m.save c')
      (fun t => t = m.save c') := by
  have hstop : ∀ t : NodeJob V, t = m.save c' → t = m ∨ t = m.save c' := fun _ => Or.inr
  refine Script.Spec.seq ?_ (Script.Spec.skip fun t ht => ⟨hstop t ht, ht⟩)
  refine Runner.spec_visit_pending (by simp [Runner.skipped]) ?_ (fun t ht => ?_)
    (spec_entryRun hc' hm) hstop (Script.Spec.skip fun t ht => ⟨hstop t ht, ht⟩)
  · rintro m rfl
    exact entry_pending hc' hm
  · exact ⟨Or.inl ht, Or.inl ht, ht⟩

/-- **Stopped anywhere, a run leaves the entry there, or everything deleted.** -/
lemma reaches_deleteNode (hs : Pending c name s₀ j₀)
    (hread : ∀ k, (Runner.visits { phases := deletePhases e rest o name }
      (("delete/drain", drainPhase o) :: beforeUnits o name)).Ends j₀ k →
        unitsGone e rest o name k = true → ReadOn k.site (hostFor c name))
    (h : (deleteNode e rest o name).Reaches j₀ t) :
    Pending c name s₀ t ∨ Deleted e rest o c c' name t.site := by
  rw [deleteNode_eq, Runner.visits, Script.each_append, Script.reaches_seq] at h
  rcases h with h | ⟨k, hk, h⟩
  · have hkeep := (spec_deleteVisits onlyParts_beforeUnits).stops (OnlyParts.refl j₀) h
    exact Or.inl (hs.onlyParts hkeep)
  have hempty := emptied_of_ends hk
  have hpend : Pending c name s₀ k := hs.onlyParts hempty.toOnlyParts
  rw [Script.each_cons, Script.reaches_seq] at h
  rcases h with h | ⟨m, hm, h⟩
  · exact Or.inl ((spec_unitsVisit hinst hc' halike).stops hpend h)
  · obtain ⟨hm', hdeleted⟩ := deleted_of_units hinst hc' halike hpend hempty (hread k hk) hm
    rcases (spec_entry hc' hm').stops rfl h with rfl | rfl
    · exact Or.inl hm'
    · exact Or.inr hdeleted

/-- A run that ends has removed the entry. -/
lemma ends_deleteNode (hs : Pending c name s₀ j₀) (h : (deleteNode e rest o name).Ends j₀ t) :
    t.site.file = some c' := by
  rw [deleteNode_eq, Runner.visits, Script.ends_each_append] at h
  obtain ⟨k, hk, h⟩ := h
  have hpend : Pending c name s₀ k := hs.onlyParts (emptied_of_ends hk).toOnlyParts
  rw [Script.each_cons, Script.ends_seq] at h
  obtain ⟨m, hm, h⟩ := h
  have hm' : Pending c name s₀ m := (spec_unitsVisit hinst hc' halike).ends hpend hm
  rw [(spec_entry hc' hm').ends rfl h]
  rfl

omit hinst hc' halike in
/-- **The container and the volumes go after the apiserver answered NotFound.** -/
lemma answered_of_lost (h : (deleteNode e rest o name).Reaches j₀ t) (hlost : Lost j₀.site t.site) :
    ∃ m, (Runner.visit { phases := deletePhases e rest o name }
      ("delete/drain", drainPhase o)).Ends j₀ m ∧ drainDone o m = true ∧
        (Runner.visits { phases := deletePhases e rest o name }
          (afterDrain e rest o name)).Reaches m t := by
  have hall : deleteNode e rest o name = Runner.visits { phases := deletePhases e rest o name }
      (("delete/drain", drainPhase o) :: afterDrain e rest o name) := rfl
  rw [hall, Runner.visits, Script.each_cons, Script.reaches_seq] at h
  rcases h with h | ⟨m, hm, h⟩
  · have hkeep := Runner.spec_visit (r := { phases := deletePhases e rest o name })
      (l := ("delete/drain", drainPhase o)) (fun _ h => h)
      (spec_drain_keeps (b := j₀.held.container) (v := j₀.held.volumes))
      (Script.Spec.skip fun _ h => ⟨h, h⟩)
    obtain ⟨hcontainer, hvolumes⟩ := hkeep.stops ⟨rfl, rfl⟩ h
    rcases hlost with ⟨hthere, hgone⟩ | ⟨v, hthere, hgone⟩
    · exact absurd (hthere.symm.trans (hcontainer.symm.trans hgone)) (by simp)
    · exact absurd (hvolumes ▸ hthere) hgone
  · refine ⟨m, hm, ?_, h⟩
    exact Runner.done_of_ends (r := { phases := deletePhases e rest o name })
      (l := ("delete/drain", drainPhase o)) rfl rfl (fun _ => rfl) hm _ rfl

end OneRun

/-! ### Every run of deletes -/

/-- Between two runs: everything is pending still, or the entry is gone. -/
def Between (c c' : Cluster) (name : String) (s₀ s : Site (Routed (Held V))) : Prop :=
  Pending c name s₀ ⟨c, s, []⟩ ∨ s.file = some c'

variable {tr : Trace.Transition (Site (Routed (Held V))) (Rest V × Answers V)}

/-- A run that is not refused finds everything pending. -/
lemma pending_of_step (hc' : withoutNode c name = .ok c') (ht : DeleteStep e name tr)
    (hs : Between c c' name s₀ tr.source) :
    Pending c name s₀ ⟨c, tr.source, []⟩ ∧ ∃ j,
      (deleteNode e tr.label.1 tr.label.2 name).Reaches ⟨c, tr.source, []⟩ j ∧
        tr.target = j.site := by
  obtain ⟨c₁, hc₁, hdel, j, hj, htarget⟩ := ht
  rw [Option.mem_def] at hc₁
  rcases hs with hs | hs
  · have hfile : tr.source.file = some c := hs.file
    obtain rfl := Option.some_inj.mp (hfile.symm.trans hc₁)
    exact ⟨hs, j, hj, htarget⟩
  · obtain rfl := Option.some_inj.mp (hs.symm.trans hc₁)
    obtain ⟨n, hn⟩ := Checked.exists_eq_ok hdel
    simp only [deletable, Checked.bind_eq_ok, Checked.ofOption_eq_ok] at hn
    obtain ⟨-, -, -, -, hfind⟩ := hn
    rw [(findNode_of_withoutNode hc').2] at hfind
    exact absurd hfind (by simp)

section Runs

variable (hinst : Installed e c name s₀) (hc' : withoutNode c name = .ok c')
  (halike : RenderAlike e c c' (hostFor c name))

include hinst hc' halike

lemma between_of_step (ht : DeleteStep e name tr) (hread : FindsRead e c name tr)
    (hs : Between c c' name s₀ tr.source) : Between c c' name s₀ tr.target := by
  obtain ⟨hpend, j, hj, htarget⟩ := pending_of_step hc' ht hs
  rw [htarget]
  rcases reaches_deleteNode hinst hc' halike hpend hread hj with h | h
  · exact Or.inl ⟨rfl, h.file, h.others, h.routes, h.recorded, h.unit⟩
  · exact Or.inr h.file

lemma resumes_of_step (ht : DeleteStep e name tr) (hread : FindsRead e c name tr)
    (hs : Between c c' name s₀ tr.source) : Resumes e c c' name tr := by
  obtain ⟨hpend, j, hj, htarget⟩ := pending_of_step hc' ht hs
  refine ⟨fun k hk => ends_deleteNode hinst hc' halike hpend hk, fun hgone => ?_, fun hlost => ?_⟩
  · rw [htarget] at hgone ⊢
    rcases reaches_deleteNode hinst hc' halike hpend hread hj with h | h
    · have hlisted := (findNode_of_withoutNode hc').1
      rw [hgone c (Option.mem_def.mpr h.file)] at hlisted
      exact absurd hlisted (by simp)
    · exact h
  · rw [htarget] at hlost
    obtain ⟨m, hm, hdone, hafter⟩ := answered_of_lost hj hlost
    exact ⟨m, j, hm, hdone, hafter, htarget⟩

end Runs

/-- **In every run of deletes, each stopped at any command or finished, the node's object goes
first, its entry last, and whoever finishes leaves everything deleted**, where every other host gets
the same units with the node and without it, and no delete finds the units phase done before systemd
has read the units. -/
theorem resumes_of_reads {ts : List (Trace.Transition (Site (Routed (Held V))) (Rest V × Answers V))}
    {s : Site (Routed (Held V))} (hinst : Installed e c name s₀)
    (hc' : withoutNode c name = .ok c') (halike : RenderAlike e c c' (hostFor c name))
    (run : Trace.Run (DeleteStep e name) s₀ ts s) (hread : ∀ t ∈ ts, FindsRead e c name t) :
    ∀ t ∈ ts, Resumes e c c' name t := by
  have hstart : Between c c' name s₀ s₀ :=
    Or.inl ⟨rfl, hinst.file, fun _ _ => rfl, fun _ => rfl, hinst.route, fun _ => hinst.unit⟩
  have hall := (run.invariant hstart (fun _ ht h => between_of_step hinst hc' halike ht h) hread).2
  exact fun t ht => resumes_of_step hinst hc' halike (run.steps t ht) (hread t ht) (hall t ht).1

/-! ### On one host -/

/-- On a single host there is no other host. -/
lemma renderAlike_single (hhosts : c.spec.hosts = none) : RenderAlike e c c' (hostFor c name) := by
  have hfor : hostFor c name = none := by
    have hmachine : ∀ h, machineOf c h = some none := by
      intro h
      simp only [machineOf, hhosts]
    cases hfind : findNode c name with
    | none => rw [hostFor, hfind]; rfl
    | some n => rw [hostFor, hfind, Option.bind_some, hmachine]; rfl
  refine ⟨fun h hh hne => ?_, fun hne => absurd hfor hne⟩
  rw [perHost, hhosts, List.mem_singleton] at hh
  rw [hh, hfor] at hne
  exact absurd rfl hne

/-- Where systemd has read the units before, the units phase is not found done too early. -/
lemma findsRead_of_readOn (h : ReadOn tr.source (hostFor c name)) : FindsRead e c name tr := by
  intro k hk _
  have hkeep := (emptied_of_ends hk).toOnlyParts
  have hmachine : k.site.machine = tr.source.machine := hkeep.machine
  have hroutes : k.site.other.routes = tr.source.other.routes := hkeep.routes
  exact ⟨by rw [hmachine]; exact h.machine, by rw [hroutes]; exact h.routes⟩

lemma second_lt : 0xAC160002 < 2 ^ 32 := by decide

/-- A control plane and a worker. -/
def pairCluster : Cluster :=
  loneCluster.withNodes (loneCluster.spec.nodes ++
    [{ role := .worker, name := ⟨"dev-worker-1", by decide⟩, ip := ⟨0xAC160002, second_lt⟩, cpu := 2
       memory := ⟨"4g", memory_4g⟩, join := true
       podCidr := some ⟨⟨0x0AF40100, by decide⟩, 24, prefixlen_24, by decide⟩ }])

/-- The hosts of the pair, as create left them. -/
def installedPair : Site (Routed (Held Unit)) :=
  let files := (hostFiles someEnv pairCluster none).toOption.getD []
  let routes := (operatorRoutes pairCluster).toOption.join
  let m : Machine :=
    { units := fun stem => files.lookup stem, wants := files.map (·.1)
      loaded := fun stem => files.lookup stem, loadedWants := files.map (·.1) }
  { file := some pairCluster, machine := fun _ => m
    other :=
      { routes := ⟨routes, routes, routes⟩
        other :=
          { object := true, active := true, container := true, volumes := nodeVolumes "dev-worker-1"
            dir := true, route := true, members := fun _ => ["dev-control-plane-1"], other := () } } }

/-- An apiserver and a router that do what they are told. -/
def obedient : Answers Unit where
  reachable _ := true
  settles _ := true
  deletes _ := true
  running _ _ := true
  loads _ _ := ["dev-control-plane-1"]
  act := id

/-- A file that is listed once is found. -/
lemma lookup_of_nodup {l : List (String × String)} (hnodup : (l.map (·.1)).Nodup)
    {u : String × String} (hu : u ∈ l) : l.lookup u.1 = some u.2 := by
  induction l with
  | nil => simp at hu
  | cons f l ih =>
      rw [List.map_cons, List.nodup_cons] at hnodup
      rcases List.mem_cons.mp hu with rfl | hu
      · exact List.lookup_cons_self
      · have hne : u.1 ≠ f.1 := fun heq => hnodup.1 (heq ▸ List.mem_map_of_mem hu)
        rw [List.lookup_cons, beq_false_of_ne hne]
        exact ih hnodup.2 hu

lemma installed_pair : Installed someEnv pairCluster "dev-worker-1" installedPair := by
  have hfiles : (do
      let files ← hostFiles someEnv pairCluster none
      return decide (files.map (·.1)).Nodup && ((files.lookup "dev-worker-1").isSome) :
        Except Raised Bool) = .ok true := by
    decide +kernel
  have hroutes : (operatorRoutes pairCluster).isOk = true := by decide
  simp only [Checked.bind_eq_ok, Checked.pure_eq_ok, Bool.and_eq_true, decide_eq_true_eq] at hfiles
  obtain ⟨files, hok, hnodup, hworker⟩ := hfiles
  obtain ⟨routes, hroutes⟩ := Checked.exists_eq_ok hroutes
  have hmachine : installedPair.machine none =
      { units := fun stem => files.lookup stem, wants := files.map (·.1)
        loaded := fun stem => files.lookup stem, loadedWants := files.map (·.1) } := by
    simp only [installedPair, hok]
    rfl
  have hother : installedPair.other.routes = ⟨routes, routes, routes⟩ := by
    simp only [installedPair, hroutes]
    rfl
  have hhosts : perHost pairCluster = [(none, none)] := rfl
  have hfor : hostFor pairCluster "dev-worker-1" = none := by decide
  refine ⟨rfl, ?_, ?_, ?_, fun id => ⟨⟨rfl, rfl⟩, fun _ => rfl⟩, fun _ => by decide⟩
  · have hunits : unitFiles someEnv pairCluster = .ok [⟨none, files⟩] := by
      rw [unitFiles, hhosts, List.mapM_cons, List.mapM_nil, hok]
      rfl
    simp only [unitsCurrent, hunits, List.all_cons, List.all_nil, Bool.and_true, hmachine]
    simp only [decide_true, Bool.true_and, List.all_eq_true, decide_eq_true_eq]
    exact fun u hu => lookup_of_nodup hnodup hu
  · rw [routesCurrent, hroutes, hother]
    cases routes <;> simp
  · rw [hfor, hmachine]
    exact Option.isSome_iff_ne_none.mp hworker

/-- `delete node` on the hosts of the pair. -/
def deletePair : Script (NodeJob Unit) := deleteNode someEnv willing obedient "dev-worker-1"

lemma deletePair_step {s : Site (Routed (Held Unit))} {j : NodeJob Unit}
    (hfile : s.file = some pairCluster) (hdel : (deletable pairCluster "dev-worker-1").isOk = true)
    (hj : deletePair.Reaches ⟨pairCluster, s, []⟩ j) :
    DeleteStep someEnv "dev-worker-1" ⟨s, (willing, obedient), j.site⟩ :=
  ⟨pairCluster, hfile, hdel, j, hj, rfl⟩

/-- A delete without a stop leaves everything deleted. -/
theorem resumes_uninterrupted :
    ∃ (ts : List (Trace.Transition (Site (Routed (Held Unit))) (Rest Unit × Answers Unit)))
      (s : Site (Routed (Held Unit))) (c' : Cluster),
      withoutNode pairCluster "dev-worker-1" = .ok c' ∧
      Trace.Run (DeleteStep someEnv "dev-worker-1") installedPair ts s ∧ s.file = some c' ∧
        ∀ t ∈ ts, Resumes someEnv pairCluster c' "dev-worker-1" t := by
  have hrun : (do
      let c' ← withoutNode pairCluster "dev-worker-1"
      let j ← Checked.ofOption .assertionError (deletePair.result ⟨pairCluster, installedPair, []⟩)
      return (deletable pairCluster "dev-worker-1").isOk && decide (j.site.file = some c') :
        Except Raised Bool) = .ok true := by
    decide +kernel
  simp only [Checked.bind_eq_ok, Checked.ofOption_eq_ok, Script.result_eq_some, Checked.pure_eq_ok,
    Bool.and_eq_true, decide_eq_true_eq] at hrun
  obtain ⟨c', hc', j, hj, hdel, hfile⟩ := hrun
  have run := Trace.Run.nil.snoc (deletePair_step rfl hdel hj.reaches)
  refine ⟨_, _, c', hc', run, hfile, resumes_of_reads installed_pair hc' (renderAlike_single rfl) run ?_⟩
  intro t ht
  rw [List.nil_append, List.mem_singleton] at ht
  rw [ht]
  exact findsRead_of_readOn (installed_pair.read _)

/-- A delete that is stopped after the node's directory went and before systemd reads the units, and
its rerun: the entry is gone and systemd still has the node's unit. -/
theorem not_resumes_stopped :
    ∃ (ts : List (Trace.Transition (Site (Routed (Held Unit))) (Rest Unit × Answers Unit)))
      (s : Site (Routed (Held Unit))) (c' : Cluster),
      Installed someEnv pairCluster "dev-worker-1" installedPair ∧
      withoutNode pairCluster "dev-worker-1" = .ok c' ∧
      Trace.Run (DeleteStep someEnv "dev-worker-1") installedPair ts s ∧
        ¬ ∀ t ∈ ts, Resumes someEnv pairCluster c' "dev-worker-1" t := by
  have hrun : (do
      let c' ← withoutNode pairCluster "dev-worker-1"
      let j ← Checked.ofOption .assertionError
        ((deletePair ⟨pairCluster, installedPair, []⟩).passed.find? fun j => !j.held.dir)
      let k ← Checked.ofOption .assertionError (deletePair.result ⟨pairCluster, j.site, []⟩)
      let c ← Checked.ofOption .assertionError j.site.file
      let c₁ ← Checked.ofOption .assertionError k.site.file
      return (deletable pairCluster "dev-worker-1").isOk && decide (c = pairCluster) &&
        (findNode c₁ "dev-worker-1").isNone &&
        (((k.site.machine none).units "dev-worker-1").isNone &&
          ((k.site.machine none).loaded "dev-worker-1").isSome) : Except Raised Bool) = .ok true := by
    decide +kernel
  simp only [Checked.bind_eq_ok, Checked.ofOption_eq_ok, Script.result_eq_some, Checked.pure_eq_ok,
    Bool.and_eq_true, decide_eq_true_eq, Option.isNone_iff_eq_none] at hrun
  obtain ⟨c', hc', j, hj, k, hk, c, hc, c₁, hc₁, ⟨⟨hdel, rfl⟩, hgone⟩, hunit, hloaded⟩ := hrun
  have hstopped := deletePair_step rfl hdel (Or.inr (List.mem_of_find?_eq_some hj))
  have hrerun := deletePair_step hc hdel hk.reaches
  refine ⟨_, _, c', installed_pair, hc', (Trace.Run.nil.snoc hstopped).snoc hrerun, fun h => ?_⟩
  have hdeleted := (h _ (List.mem_append_right _ (List.mem_singleton_self _))).gone fun c₂ hc₂ => by
    obtain rfl := Option.some_inj.mp (hc₁.symm.trans hc₂)
    exact hgone
  rw [(hdeleted.read none).machine.units, hunit] at hloaded
  exact absurd hloaded (by simp)

end Tk8s
