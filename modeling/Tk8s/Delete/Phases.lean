import Tk8s.Create.PerHost
import Tk8s.Delete.Hosts

/-!
`delete.py`: `delete cluster`, whose phases are done when that thing is already gone.

* `Context`: the cluster of a run, or its name alone when there is no `cluster.yaml`; `targets`: the
  hosts the host-side phases visit, the operator last.
* `perHost`: a host-side phase on every target; `HostPhase`, `hostPhase`: the seven of them.
* `meshVisit`: the cluster leaves the Cluster Mesh, peer by peer.
* `deleteCluster`: `cmd_delete_cluster`, from loading `cluster.yaml` to `~/.kube/config`.
* `questions`, `hostPhase_done`: what each host-side phase asks of which host.
-/

namespace Tk8s.Delete

open Net

/-! ### The cluster of a run -/

/-- `phases.Context` as far as a delete goes: the cluster, when there is a `cluster.yaml` that
reads. -/
structure Context where
  name : String
  cluster : Option Cluster

/-- `remote_hosts`. -/
def remoteHosts (c : Cluster) : List MachineId :=
  ((c.spec.hosts.getD []).filter (·.ssh.isSome)).map (·.ssh)

/-- `target_hosts`: the operator comes last, also when it runs no node. -/
def targetHosts (c : Cluster) : List MachineId :=
  match c.spec.hosts with
  | none => [none]
  | some hosts =>
      let mine := (hosts.filter (·.ssh.isNone)).map (·.ssh)
      remoteHosts c ++ if mine.isEmpty then [none] else mine

/-- `host_of`: a node first, then a router. -/
def hostOf (c : Cluster) (container : String) : Option String :=
  match c.spec.nodes.find? (·.name.text = container) with
  | some n => n.host
  | none =>
      match c.routers with
      | .ok routers => (routers.find? (·.name = container)).bind (·.host)
      | .error _ => none

/-- The unit file of a container. -/
def containerStem (file : String) : Option String :=
  let suffix := ".container".toList
  if suffix.isSuffixOf file.toList then
    some (String.ofList (file.toList.take (file.toList.length - suffix.length)))
  else none

namespace Context

variable (x : Context)

/-- `targets`. -/
def targets : List MachineId :=
  match x.cluster with
  | none => [none]
  | some c => targetHosts c

/-- `host_for`: the operator for a name the cluster does not have. -/
def hostFor (container : String) : MachineId :=
  match x.cluster with
  | none => none
  | some c => ((hostOf c container).bind fun h => machineOf c (some h)).getD none

/-- `_container_units`, each by its container. -/
def containerUnits (w : World) : List String := (w.listdir x.name).filterMap containerStem

/-- `_router_units`, each by its container. -/
def routerUnits : List String := ["-router", "-router-1", "-router-2"].map (x.name ++ ·)

/-- `node_names`. -/
def nodeNames (w : World) : List String :=
  match x.cluster with
  | some c => c.spec.nodes.map (·.name.text)
  | none => (x.containerUnits w).filter (· ∉ x.routerUnits)

/-- `router_names`. -/
def routerNames (w : World) : Except Raised (List String) :=
  match x.cluster with
  | some c => do
      let routers ← c.routers
      return routers.map (·.name)
  | none => .ok ((x.containerUnits w).filter (· ∈ x.routerUnits))

/-- `containers`. -/
def containers (w : World) : Except Raised (List String) := do
  let routers ← x.routerNames w
  return x.nodeNames w ++ routers

/-- `subnets`: the first control plane's prefix has no route of its own. -/
def subnets : List IPv4Network :=
  match x.cluster with
  | none => []
  | some c =>
      [c.spec.network.pods, c.spec.network.services] ++ c.spec.nodes.filterMap fun n =>
        if c.firstControlPlane.any (·.name = n.name) then none else n.podCidr

/-- `_server`. -/
def server : Option String := x.cluster.map fun c => s!"https://{c.endpointIp.text}:6443"

end Context

/-! ### Phases -/

/-- A phase whose `done` asks the hosts. -/
structure AskedPhase where
  done : World → Asking Bool
  run : Script World

/-- What the runner does with a phase: one that ran and is not done is an error. -/
def AskedPhase.visit (p : AskedPhase) : Script World :=
  asked p.done fun done =>
    if done then Script.skip
    else Script.seq p.run <| asked p.done fun done => if done then Script.skip else Script.fail

/-- None of these is there. -/
def gone (r : Replies) (qs : List (MachineId × Item)) (w : World) : Asking Bool :=
  Inquiry.noneOf (audience r w) qs

section Phases

variable (r : Replies) (x : Context)

/-- `per_host`: done when done everywhere, run where it is not. With one host the runner has just
asked. -/
def perHost (part : List Item) (run : MachineId → Script World) : AskedPhase where
  done w := x.targets.allM fun id => gone r (part.map fun i => (id, i)) w
  run := Script.each x.targets fun id =>
    if 1 < x.targets.length then
      asked (gone r (part.map fun i => (id, i))) fun done => if done then Script.skip else run id
    else run id

/-- A command that takes items away. -/
def drop (id : MachineId) (check : Bool) (p : Item → Bool) : Script World :=
  tell r id check fun w => w.remove id p

/-- A command that does nothing to what there is. -/
def pass (id : MachineId) (check : Bool) : Script World := tell r id check fun w => w

/-! ### mesh -/

/-- `save_cluster`, with a copy on every other host of the cluster. -/
def saveCluster (c : Cluster) : Script World :=
  Script.seq (Script.command fun w => { w with fleet := w.fleet.save c }) <|
    Script.each (remoteHosts c) fun id => tell r id true fun w => w.putState id c.name

/-- The cluster as `record_peers` saves it. -/
def withPeers (c : Cluster) (peers : List String) : Cluster :=
  match c.status with
  | none => c
  | some st => c.withStatus { st with mesh := sorted peers }

/-- The cluster without this peer. -/
def withoutPeer (c : Cluster) (peer : String) : Cluster :=
  withPeers c ((meshOf c).filter (· ≠ peer))

/-- `forget_peer`: the secret is read and patched, then the record. -/
def forgetPeer (c : Cluster) (peer : String) : Script World :=
  Script.seq (pass r none false) <| Script.seq (pass r none true) (saveCluster r (withoutPeer c peer))

/-- `disconnect`: cilium's own disconnect, both records, and a look at what is left. -/
def disconnect (c pc : Cluster) (peer : String) : Script World :=
  Script.seq (pass r none true) <|
    Script.seq (saveCluster r (withoutPeer c peer)) <|
      Script.seq (saveCluster r (withoutPeer pc c.name)) (pass r none false)

/-- The operator, as it finds the hosts from some moment on. -/
def asking (op : Operator) (w : World) : Operator :=
  { op with
    targetUp := fun cluster host => do
      let c ← w.fleet.cluster cluster
      let id ← machineOf c (some host)
      if r.lineTo (w.clock + c.hostNames.idxOf host) id = .up then
        some (w.has id (.active (cluster ++ ".target")))
      else none }

variable (op : Operator)

/-- One round of `mesh_run`. -/
def leavePeer (running : Bool) (c : Cluster) (peer : String) : Script World :=
  Script.ask fun w =>
    match peerOf (op.loadCluster w.fleet peer) with
    | .error _ => Script.fail
    | .ok found =>
        Script.seq (Script.command (World.tick (found.elim 0 (·.nodeHosts.length)))) <|
          match found.filter fun pc => (asking r op w).stateOf pc = .running with
          | none => forgetPeer r c peer
          | some pc =>
              if running then disconnect r c pc peer
              else Script.seq (forgetPeer r pc c.name) (forgetPeer r c peer)

/-- The rounds of `mesh_run`, with the cluster as it is after each; then the runner looks again. -/
def leavePeers (running : Bool) : Cluster → List String → Script World
  | c, [] => if meshOf c = [] then Script.skip else Script.fail
  | c, peer :: rest =>
      Script.seq (leavePeer r op running c peer) (leavePeers running (withoutPeer c peer) rest)

/-- `MESH`, with the cluster of the run. -/
def meshVisit : Script World :=
  match x.cluster with
  | none => Script.skip
  | some c =>
      if meshOf c = [] then Script.skip
      else Script.ask fun w =>
        Script.seq (Script.command (World.tick c.nodeHosts.length)) <|
          leavePeers r op ((asking r op w).stateOf c = .running) c (meshOf c)

/-! ### The host-side phases -/

def stopPhase : AskedPhase :=
  let target := x.name ++ ".target"
  let network := x.name ++ "-network.service"
  perHost r x [.active target, .active network] fun id =>
    Script.seq (drop r id false (· = .active target)) (drop r id false (· = .active network))

/-- `CONTAINERS`: each container on the host that runs it. -/
def containersPhase : AskedPhase where
  done w :=
    match x.containers w with
    | .error e => throw (.raised e)
    | .ok names => gone r (names.map fun n => (x.hostFor n, .container n)) w
  run := Script.ask fun w =>
    match x.containers w with
    | .error _ => Script.fail
    | .ok names => Script.each names fun n =>
        asked (gone r [(x.hostFor n, .container n)]) fun done =>
          if done then Script.skip else drop r (x.hostFor n) true (· = .container n)

/-- `VOLUMES`. -/
def volumesPhase : AskedPhase where
  done w := (x.nodeNames w).allM fun n =>
    gone r ((nodeVolumes n).map fun v => (x.hostFor n, .volume v)) w
  run := Script.ask fun w => Script.each (x.nodeNames w) fun n => Script.each (nodeVolumes n) fun v =>
    asked (gone r [(x.hostFor n, .volume v)]) fun done =>
      if done then Script.skip else drop r (x.hostFor n) true (· = .volume v)

/-- `unit_paths`. -/
def unitPaths : List Item :=
  [.unitDir x.name, .systemd (x.name ++ ".target"), .systemd (x.name ++ "-routes.service")]

def unitsPhase : AskedPhase :=
  perHost r x (unitPaths x) fun id =>
    Script.seq (drop r id true (· ∈ unitPaths x)) <| Script.seq (pass r id true) (pass r id false)

def networkPhase : AskedPhase :=
  perHost r x [.network x.name] fun id => drop r id true (· = .network x.name)

/-- `ROUTES`, and the shim of a multi-host cluster. -/
def routesPhase : AskedPhase :=
  perHost r x (x.subnets.map .route) fun id =>
    Script.seq
      (Script.each x.subnets fun s => asked (gone r [(id, .route s)]) fun done =>
        if done then Script.skip else drop r id true (· = .route s))
      (match x.cluster with
        | none => Script.skip
        | some c =>
            if c.multiHost then drop r id false (· = .link (shimName c.name)) else Script.skip)

def statePhase : AskedPhase :=
  perHost r x [.stateDir x.name] fun id => drop r id true (· = .stateDir x.name)

/-- The phases that visit hosts. -/
inductive HostPhase where
  | stop
  | containers
  | volumes
  | units
  | network
  | routes
  | state
deriving DecidableEq

def hostPhase : HostPhase → AskedPhase
  | .stop => stopPhase r x
  | .containers => containersPhase r x
  | .volumes => volumesPhase r x
  | .units => unitsPhase r x
  | .network => networkPhase r x
  | .routes => routesPhase r x
  | .state => statePhase r x

/-! ### kubeconfig -/

/-- `KUBECONFIG`: nothing to do without a file, without a `cluster.yaml`, or when the file is not a
kubeconfig. -/
def kubeconfigPhase : AskedPhase where
  done w := pure (x.server.all fun server => !w.kube.has x.name server)
  run := Script.ask fun w =>
    match x.server with
    | none => Script.skip
    | some server =>
        if w.kube.has x.name server then
          Script.seq (Script.command fun w => { w with kubeBak := w.kube }) <|
            Script.command fun w => { w with kube := w.kube.drop x.name server }
        else Script.skip

/-! ### The verb -/

/-- `found`. -/
def found (w : World) : Asking Bool := do
  let none ← gone r (x.targets.flatMap fun id =>
    [(id, .stateDir x.name), (id, .unitDir x.name), (id, .systemd (x.name ++ ".target")),
      (id, .network x.name)]) w
  return !none

/-- The phases after `mesh`, in order. -/
def phasesAfterMesh : List AskedPhase :=
  [HostPhase.stop, .containers, .volumes, .units, .network, .routes, .state].map (hostPhase r x) ++
    [kubeconfigPhase x]

/-- What the phases do, on the cluster that was loaded. -/
def runPhases : Script World :=
  Script.seq (meshVisit r x op) (Script.each (phasesAfterMesh r x) AskedPhase.visit)

/-- What is loaded for a delete: a cluster that is not found goes on without. -/
def loadForDelete (f : Fleet) (name : String) : Except Raised (Option Cluster) := do
  Operator.validateName name
  peerOf (op.loadCluster f name)

/-- `cmd_delete_cluster`, confirmed. -/
def deleteCluster (name : String) : Script World :=
  Script.ask fun w =>
    match loadForDelete op w.fleet name with
    | .error _ => Script.fail
    | .ok c =>
        let x : Context := ⟨name, c⟩
        asked (found r x) fun there => if there then runPhases r x op else Script.fail

end Phases

end Tk8s.Delete
