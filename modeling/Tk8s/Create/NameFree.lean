import Tk8s.Create.Phases
import Tk8s.Delete.Phases
import Tk8s.Lib.Run

/-!
`check_name_free` and the files it looks at: the clusters of one name, on all machines, from every
machine tkctl runs on.

* `World`: the `cluster.yaml` and the unit directory of every machine, each with the create it comes
  from. No command reads where a file comes from.
* `saveCluster`: `Context.save_cluster`, the operator's file and a copy on every other host.
* `checkNameFree`, `checkNames`: what preflight asks of every host.
* `createPhases`, `start`, `create`: a create; `deleteCluster`: a delete.
* `History`: **every create, every delete and every lost file**, each stopped anywhere.
-/

namespace Tk8s.Namesakes

open Delete (remoteHosts targetHosts)

variable {M W : Type} [DecidableEq M]

/-! ### The machines -/

/-- A `cluster.yaml`: what it reads as, none when it does not read, and the create it is from. -/
structure StateFile where
  origin : ℕ
  reads : Option Cluster

/-- `status.operator`. -/
def operatorOf (c : Cluster) : Option String := c.status.bind (·.operator)

/-- A create that started with no `cluster.yaml`: the machine it ran on, and how its hosts are
reached. -/
structure Creation (M : Type) where
  operator : M
  ssh : Option (List MachineId)

/-- What the machines hold of the clusters of one name. A unit directory goes with the create that
wrote to it last; a create is known by its place in the list. -/
structure World (M : Type) where
  file : M → Option StateFile := fun _ => none
  units : M → Option ℕ := fun _ => none
  creates : List (Creation M) := []

/-- The machines of a network, as they reach each other. -/
structure Lan (M : Type) where
  hostname : M → String
  ssh : M → String → M

/-- The operator itself, or the machine behind an ssh target. -/
def Lan.machine (lan : Lan M) (o : M) : MachineId → M
  | none => o
  | some target => lan.ssh o target

namespace World

def putFile (w : World M) (m : M) (f : Option StateFile) : World M :=
  { w with file := Function.update w.file m f }

def putUnits (w : World M) (m : M) (g : Option ℕ) : World M :=
  { w with units := Function.update w.units m g }

end World

/-! ### save_cluster -/

variable (lan : Lan M) (o : M)

/-- What the write of a copy leaves on a machine when it is cut off halfway: nothing of the kind,
or a file that reads as this. The operator's own file is replaced at once. -/
abbrev Cuts (M : Type) := M → Option (Option Cluster)

/-- A copy, over ssh. -/
def writeCopy (cuts : Cuts M) (g : ℕ) (c : Cluster) (m : M) : Script (World M) :=
  Script.seq
    (match cuts m with
      | none => Script.skip
      | some cut => Script.command fun w => w.putFile m (some ⟨g, cut⟩))
    (Script.command fun w => w.putFile m (some ⟨g, some c⟩))

/-- `save_cluster`. -/
def saveCluster (cuts : Cuts M) (g : ℕ) (c : Cluster) : Script (World M) :=
  Script.seq (Script.command fun w => w.putFile o (some ⟨g, some c⟩)) <|
    Script.each (remoteHosts c) fun id => writeCopy cuts g c (lan.machine o id)

/-! ### preflight -/

/-- `check_name_free`: the units directory or the state file exist only when the `cluster.yaml`
there is our own copy. -/
def checkNameFree (c : Cluster) (w : World M) (name : String) (m : M) : Except Raised Unit :=
  match w.file m with
  | none =>
      Checked.refuseIf ((w.units m).isSome = true) (.phaseFailed (refusal c name))
  | some f =>
      let there := f.reads.bind (·.status)
      Checked.refuseIf (∀ st ∈ there, st.operator ≠ operatorOf c) (.phaseFailed (refusal c name))
where
  refusal (c : Cluster) (name : String) : String :=
    s!"preflight: host {name}: a cluster named {c.name} already exists there "
      ++ "(not managed from this operator); pick another name or delete it there"

/-- The context of a create: the cluster, the machines, all else, and the create this is. -/
structure Job (M W : Type) where
  cluster : Cluster
  world : World M
  other : W
  origin : ℕ

/-- The hosts of a multi-host cluster, each by its name. -/
def hostsOf (c : Cluster) : List Host := c.spec.hosts.getD []

/-- `run_multi`'s look at every host. -/
def checkNames : Script (Job M W) :=
  Script.ask fun j => Script.each (hostsOf j.cluster) fun h =>
    Script.cond
      (fun j => (checkNameFree j.cluster j.world h.name.text (lan.machine o h.ssh)).isOk)
      Script.skip Script.fail

/-! ### The phases of a create -/

/-- What is done to the machines. -/
def onWorld (p : Script (World M)) : Script (Job M W) :=
  Script.within (·.world) (fun w j => { j with world := w }) p

/-- The commands of a phase on the rest of the hosts. -/
def onOther (rest : Rest W) (full : String) : Script (Job M W) :=
  Script.ask fun j => Script.within (·.other) (fun v j => { j with other := v })
    (rest.act full j.cluster)

/-- The context's `save_cluster`. -/
def save (cuts : Cuts M) (f : Job M W → Cluster) : Script (Job M W) :=
  Script.ask fun j =>
    Script.seq (Script.command fun j' => { j' with cluster := f j })
      (onWorld (saveCluster lan o cuts j.origin (f j)))

/-- A phase that works on the rest of the hosts only. -/
def restLeaf (rest : Rest W) (full : String) : Leaf (Job M W) where
  done := some fun j => rest.done full j.cluster j.other
  run := onOther rest full

def preflightPhase (rest : Rest W) : Leaf (Job M W) where
  done := none
  run := Script.seq (checkNames lan o) (onOther rest "preflight")

/-- The operator's file holds this very spec. -/
def planDone (j : Job M W) : Bool :=
  (j.world.file o).any fun f => f.reads.any fun c => c.spec = j.cluster.spec

def planPhase (cuts : Cuts M) : Leaf (Job M W) where
  done := some (planDone o)
  run := save lan o cuts (·.cluster)

/-- Every host gets its unit directory. -/
def unitsPhase (rest : Rest W) : Leaf (Job M W) where
  done := some fun j => rest.done "units" j.cluster j.other
  run := Script.seq
    (Script.ask fun j => onWorld (Script.each (perHost j.cluster) fun h =>
      Script.command fun w => w.putUnits (lan.machine o h.2) (some j.origin)))
    (onOther rest "units")

def installPhase (cuts : Cuts M) (rest : Rest W) : Leaf (Job M W) where
  done := some fun j => rest.done "cni/install" j.cluster j.other
  run := Script.seq (onOther rest "cni/install") <|
    save lan o cuts fun j => recordCni j.cluster (rest.datapath j.other) rest.cilium

def hostRoutesPhase (cuts : Cuts M) (rest : Rest W) : Leaf (Job M W) where
  done := some fun j => rest.done "cni/host-routes" j.cluster j.other
  run := Script.ask fun j =>
    if cidrMissing j.cluster (rest.cidrs j.other) then Script.fail
    else match withPodCidrs j.cluster (rest.cidrs j.other) with
    | .error _ => Script.fail
    | .ok c => Script.seq (save lan o cuts fun _ => c) (onOther rest "cni/host-routes")

/-- `PHASES`. -/
def createPhases (cuts : Cuts M) (rest : Rest W) : List (Phase (Job M W)) :=
  [.leaf "preflight" (preflightPhase lan o rest),
   .leaf "plan" (planPhase lan o cuts),
   .leaf "images" (restLeaf rest "images"),
   .leaf "units" (unitsPhase lan o rest),
   .group "nodes"
    [.leaf "cni-plugins" (restLeaf rest "nodes/cni-plugins"), .leaf "up" (restLeaf rest "nodes/up")],
   .group "kubeadm"
    [.leaf "render" (restLeaf rest "kubeadm/render"), .leaf "frr" (restLeaf rest "kubeadm/frr"),
     .leaf "init" (restLeaf rest "kubeadm/init"),
     .leaf "kubeconfig" (restLeaf rest "kubeadm/kubeconfig"),
     .leaf "join" (restLeaf rest "kubeadm/join")],
   .group "cni"
    [.leaf "install" (installPhase lan o cuts rest),
     .leaf "nodes-ready" (restLeaf rest "cni/nodes-ready"),
     .leaf "host-routes" (hostRoutesPhase lan o cuts rest)],
   .group "addons"
    [.leaf "runtimeclass" (restLeaf rest "addons/runtimeclass"),
     .leaf "gvisor" (restLeaf rest "addons/gvisor"),
     .leaf "metrics-server" (restLeaf rest "addons/metrics-server"),
     .leaf "local-path" (restLeaf rest "addons/local-path")]]

/-- `_record`, once plan has written the file. -/
def recordPhase (cuts : Cuts M) (rest : Rest W) (full : String) : Script (Job M W) :=
  Script.onlyIf (fun j => j.cluster.status.isSome && (j.world.file o).isSome) <|
    save lan o cuts fun j => recordCompleted j.cluster full (rest.now j.other)

/-! ### A create -/

/-- A create on some machine: the command line, what the rest of the hosts is like, and which copies
are cut off on the way. -/
structure Order (M W : Type) where
  call : Invocation W
  other : W
  cuts : Cuts M

namespace Order

variable (i : Order M W)

def runner : Runner (Job M W) where
  phases := createPhases lan o i.cuts i.call.rest
  only := i.call.only
  skip := i.call.skip
  record := recordPhase lan o i.cuts i.call.rest

/-- A cluster that ran every phase is marked Ready. -/
def finish : Script (Job M W) :=
  if i.call.only ≠ none ∨ i.call.skip ≠ [] then Script.skip
  else Script.ask fun j =>
    match j.cluster.status with
    | some st =>
        if st.phase ≠ .ready then
          save lan o i.cuts fun j => j.cluster.withStatus { st with phase := .ready }
        else Script.skip
    | none => Script.skip

/-- The phases, then the end; a dry run writes nothing. -/
def script : Script (Job M W) :=
  if i.call.dryRun then Script.skip else Script.seq (i.runner lan o).run (i.finish lan o)

/-- `load_existing`. -/
def existing (w : World M) : Except Raised (Option Cluster) :=
  match w.file o with
  | none => .ok none
  | some f =>
      match f.reads with
      | none => .error (.clusterFileError "cluster.yaml")
      | some c => .ok (some c)

/-- The command line, with the operator's hostname for a cluster on several hosts. -/
def asked : Invocation W :=
  { i.call with
    facts :=
      { i.call.facts with
        operator := i.call.user.spec.hosts.map fun _ => lan.hostname o } }

/-- The cluster a create works on. -/
def plan (w : World M) : Except Raised Cluster := do
  let found ← existing o w
  let j ← (i.asked lan o).start ⟨found, fun _ => {}, i.other⟩
  return j.cluster

/-- What a create starts from. Without a `cluster.yaml` it is a create of its own. -/
def start (w : World M) : Except Raised (Job M W) := do
  let c ← i.plan lan o w
  match w.file o with
  | some f => return { cluster := c, world := w, other := i.other, origin := f.origin }
  | none =>
      let creation : Creation M := ⟨o, c.spec.hosts.map (·.map (·.ssh))⟩
      return { cluster := c, world := { w with creates := w.creates ++ [creation] }
               other := i.other, origin := w.creates.length }

end Order

/-! ### A delete -/

/-- `managed_from`, of a cluster on several hosts. -/
def managedElsewhere (c : Cluster) : Bool :=
  c.multiHost && (operatorOf c).any (· ≠ lan.hostname o)

/-- The unit directories, then the state directories, host by host. -/
def clear (ms : List M) : Script (World M) :=
  Script.seq (Script.each ms fun m => Script.command fun w => w.putUnits m none)
    (Script.each ms fun m => Script.command fun w => w.putFile m none)

/-- The rounds of `mesh_run`, as far as this cluster's own file goes. -/
def leaveMesh (cuts : Cuts M) (g : ℕ) : Cluster → List String → Script (World M)
  | _, [] => Script.skip
  | c, peer :: rest =>
      Script.seq (saveCluster lan o cuts g (Delete.withoutPeer c peer))
        (leaveMesh cuts g (Delete.withoutPeer c peer) rest)

/-- `delete cluster`: without a `cluster.yaml` this machine alone is cleaned. -/
def deleteCluster (cuts : Cuts M) : Script (World M) :=
  Script.ask fun w =>
    match w.file o with
    | none => clear [o]
    | some f =>
        match f.reads with
        | none => Script.fail
        | some c =>
            if managedElsewhere lan o c then Script.fail
            else Script.seq (leaveMesh lan o cuts f.origin c (meshOf c))
              (clear ((targetHosts c).map (lan.machine o)))

/-! ### Histories -/

/-- What can happen to the clusters of a name. -/
inductive Event (M W : Type) where
  | create (o : M) (order : Order M W)
  | delete (o : M) (cuts : Cuts M)
  /-- A machine's `cluster.yaml` is lost. -/
  | lose (o : M)

/-- An event, stopped anywhere. -/
def History (t : Trace.Transition (World M) (Event M W)) : Prop :=
  match t.label with
  | .create o order =>
      t.target = t.source ∨ ∃ j j', order.start lan o t.source = .ok j ∧
        (order.script lan o).Reaches j j' ∧ t.target = j'.world
  | .delete o cuts => (deleteCluster lan o cuts).Reaches t.source t.target
  | .lose o => t.target = t.source.putFile o none

end Tk8s.Namesakes
