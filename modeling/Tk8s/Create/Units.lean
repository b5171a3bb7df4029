import Tk8s.Plan.Resolve

/-!
`create/units.py`: the container units of a cluster, and what its units are called.

* `Env`: the directories and versions the templates name.
* `NodeValues.fill`, `RouterValues.fill`: the two container templates, without their comment lines;
  `nodeUnit`, `routerUnit`: the values they get.
* `containerUnits`: the container units of one host, or of a single-host cluster, in write order.
* `UnitPath`, `unitPaths`, `serviceNames`, `containerNames`, `volumeNames`: what systemd and podman
  see.
* `routers_names`: the router names depend on nothing but the cluster name and the number of
  routers.
-/

namespace Tk8s

open Net

/-! ### Paths and versions -/

/-- `Paths` and the versions the units name. -/
structure Env where
  dataDir : String
  wulinDir : String
  vyos : String

namespace Env

def imagesDir (e : Env) : String := e.dataDir ++ "/images"

def cniDir (e : Env) : String := e.dataDir ++ "/cni"

def stateDir (e : Env) (cluster : String) : String := e.dataDir ++ "/clusters/" ++ cluster

/-- `nodefs.node_dir`. -/
def nodeDir (e : Env) (cluster node : String) : String := e.stateDir cluster ++ "/nodes/" ++ node

end Env

def someEnv : Env := ⟨"/srv/tk8s", "/srv/wulin", "2026.1"⟩

/-- Where a unit is written: `/etc/containers/systemd/<cluster>/` or `/etc/systemd/system/`. -/
inductive UnitPath where
  | quadlet (cluster file : String)
  | systemd (file : String)
deriving DecidableEq, Repr

/-- The container unit of a node or router. -/
def containerPath (cluster stem : String) : UnitPath := .quadlet cluster (stem ++ ".container")

/-! ### Names -/

/-- The router containers' names. -/
def Cluster.routerNames (c : Cluster) : List String :=
  match c.spec.network.routers with
  | .one => [c.name ++ "-router"]
  | .two => [c.name ++ "-router-1", c.name ++ "-router-2"]

lemma routers_names {c : Cluster} {routers : List Router} (h : c.routers = .ok routers) :
    routers.map (·.name) = c.routerNames := by
  unfold Cluster.routers at h
  cases hr : c.spec.network.routers with
  | one =>
      simp only [hr, Checked.bind_eq_ok, Checked.pure_eq_ok] at h
      obtain ⟨host, -, rfl⟩ := h
      rw [Cluster.routerNames, hr]
      rfl
  | two =>
      simp only [hr, Checked.bind_eq_ok, Checked.pure_eq_ok] at h
      obtain ⟨ips, -, h1, -, h2, -, rfl⟩ := h
      rw [Cluster.routerNames, hr]
      rfl

/-- The names of the containers: nodes and routers. -/
def containerNames (c : Cluster) : List String :=
  c.spec.nodes.map (·.name.text) ++ c.routerNames

/-- The stems of the units that are no containers: the network and the routes. -/
def plainStems (cluster : String) : List String := [cluster ++ "-network", cluster ++ "-routes"]

/-- The stems of all units of the cluster. -/
def unitStems (c : Cluster) : List String := containerNames c ++ plainStems c.name

/-- The files `render` writes for systemd, over all hosts. -/
def unitPaths (c : Cluster) : List UnitPath :=
  (containerNames c).map (containerPath c.name) ++
    [.quadlet c.name (c.name ++ ".network"), .systemd (c.name ++ ".target"),
      .systemd (c.name ++ "-routes.service")]

/-- The services systemd ends up with: Quadlet makes `x.service` of `x.container` and
`x-network.service` of `x.network`. -/
def serviceNames (c : Cluster) : List String := (unitStems c).map (· ++ ".service")

/-- A node's named volumes. -/
def nodeVolumes (node : String) : List String :=
  [node ++ "-var", node ++ "-etc", node ++ "-usr-local-bin"]

def volumeNames (c : Cluster) : List String :=
  (c.spec.nodes.map (·.name.text)).flatMap nodeVolumes

/-! ### The container templates -/

def hexDigit (n : ℕ) : Char := "0123456789abcdef".toList.getD n '0'

/-- `f"{b:02x}"` of a byte. -/
def hexByte (b : ℕ) : String := String.ofList [hexDigit (b / 16), hexDigit (b % 16)]

/-- A fixed, locally administered MAC for a container address. -/
def mac (ip : IPv4Address) : String :=
  "02:54:4b:" ++ ":".intercalate ([ip.octet 2, ip.octet 1, ip.octet 0].map hexByte)

/-- The resolvers of a macvlan container. -/
def macvlanDns : String := "\nDNS=1.1.1.1\nDNS=1.0.0.1\nDNS=8.8.8.8\nDNS=8.8.4.4"

/-- `sized`: created by a tkctl that sizes nodes. -/
def sized (c : Cluster) : Bool := c.status.any (·.nodeCapacity)

/-- The `Volume=` lines of the files under a node's directory. -/
def mountLines (d : String) : String :=
  s!"\nVolume={d}/meminfo:/proc/meminfo:ro" ++
  s!"\nVolume={d}/sys-node:/sys/devices/system/node:ro" ++
  s!"\nVolume={d}/kubelet-reserved.conf:/etc/kubernetes/kubelet.conf.d/10-tk8s-reserved.conf:ro" ++
  s!"\nVolume={d}/kubelet-config-dir.conf:/etc/systemd/system/kubelet.service.d/" ++
  "20-tk8s-config-dir.conf:ro"

/-- The values `node.container` is filled in with. -/
structure NodeValues where
  cluster : String
  role : String
  name : String
  ip : String
  after : String
  k8s : String
  api : String
  cni : String
  images : String
  state : String
  wulin : String
  cpu : ℕ
  memory : String
  mounts : String
  macArg : String
  dns : String

/-- `node.container`. -/
@[irreducible] def NodeValues.fill (v : NodeValues) : String :=
  let ⟨cluster, role, name, ip, after, k8s, api, cni, images, state, wulin, cpu, memory, mounts,
    macArg, dns⟩ := v
  s!"# Generated by tkctl for cluster {cluster} ({role}). " ++
  "Edit cluster.yaml and re-run tkctl instead.\n" ++
  s!"[Unit]\nDescription=tk8s node {name} ({role}) of cluster {cluster}\n" ++
  s!"PartOf={cluster}.target{after}\n\n" ++
  s!"[Container]\nContainerName={name}\n" ++
  s!"Image=ghcr.io/tarokolabs/tk8s/node:v{k8s}\nHostName={name}\n" ++
  s!"Network={cluster}.network\nIP={ip}{dns}\nEnvironment=TZ=Asia/Taipei\n" ++
  s!"AddHost=api.{cluster}.k8s:{api}\n" ++
  s!"Volume={cni}:/opt/cni/bin\nVolume=/lib/modules:/lib/modules:ro\n" ++
  s!"Volume={name}-var:/var:suid,exec,dev,rbind\nVolume={name}-etc:/etc\n" ++
  s!"Volume={name}-usr-local-bin:/usr/local/bin\n" ++
  s!"Volume={images}/{k8s}:/var/lib/containers/shared:ro\nVolume={state}:/opt/taroko\n" ++
  s!"Volume={wulin}:/opt/taroko/wulin{mounts}\nStopTimeout=60\n" ++
  s!"PodmanArgs=--privileged --cgroupns=private --cpus {cpu} --memory {memory}{macArg}\n\n" ++
  "[Service]\nSuccessExitStatus=130 143\nRestart=on-failure\nTimeoutStartSec=300\n\n" ++
  "[Install]\nWantedBy=multi-user.target\n"

/-- The unit of a node. `after` is empty for the first control plane and on a host without it. -/
def nodeUnit (e : Env) (c : Cluster) (after : String) (n : Node) : String :=
  NodeValues.fill
    { cluster := c.name, role := n.role.text, name := n.name.text, ip := n.ip.text, after := after
      k8s := c.spec.kubernetes, api := c.endpointIp.text, cni := e.cniDir, images := e.imagesDir
      state := e.stateDir c.name, wulin := e.wulinDir, cpu := n.cpu, memory := n.memory.text
      mounts := if sized c then mountLines (e.nodeDir c.name n.name.text) else ""
      macArg := if c.multiHost then " --mac-address " ++ mac n.ip else ""
      dns := if c.multiHost then macvlanDns else "" }

/-- The values `router.container` is filled in with. -/
structure RouterValues where
  cluster : String
  name : String
  dir : String
  ip : String
  vyos : String
  state : String
  macArg : String
  dns : String

/-- `router.container`. -/
@[irreducible] def RouterValues.fill (v : RouterValues) : String :=
  let ⟨cluster, name, dir, ip, vyos, state, macArg, dns⟩ := v
  s!"# Generated by tkctl for cluster {cluster}. Edit cluster.yaml and re-run tkctl instead.\n" ++
  s!"[Unit]\nDescription=tk8s cluster {cluster} router (VyOS at {ip}: the nodes' gateway and the " ++
  s!"apiserver load balancer)\nPartOf={cluster}.target\n\n" ++
  s!"[Container]\nContainerName={name}\n" ++
  s!"Image=ghcr.io/tarokolabs/tk8s/router:{vyos}\nHostName={name}\n" ++
  s!"Network={cluster}.network\nIP={ip}{dns}\n" ++
  s!"Volume={state}/{dir}:/opt/vyatta/etc/config\n" ++
  s!"PodmanArgs=--privileged --systemd=always{macArg}\n" ++
  "StopSignal=SIGRTMIN+3\nStopTimeout=30\n\n" ++
  "[Service]\nSuccessExitStatus=130\nRestart=always\n\n" ++
  s!"[Install]\nWantedBy={cluster}.target\n"

/-- The unit of a router. -/
def routerUnit (e : Env) (c : Cluster) (r : Router) : String :=
  RouterValues.fill
    { cluster := c.name, name := r.name, dir := r.dir, ip := r.ip.text, vyos := e.vyos
      state := e.stateDir c.name
      macArg := if c.multiHost then " --mac-address " ++ mac r.ip else ""
      dns := if c.multiHost then macvlanDns else "" }

/-- The nodes placed on a host, all of them on a single-host cluster, each with whether it is the
first control plane. -/
def mineNodes (c : Cluster) (hostName : Option String) : List (Node × Bool) :=
  (c.spec.nodes.zipIdx.map fun p => (p.1, decide (p.2 = 0))).filter fun p =>
    !c.multiHost || p.1.host = hostName

/-- The routers placed on a host, all of them on a single-host cluster. -/
def mineRouters (c : Cluster) (hostName : Option String) : Except Raised (List Router) := do
  let routers ← c.routers
  return routers.filter fun r => !c.multiHost || r.host = hostName

/-- `\nAfter=<first control plane>.service` for the other nodes of its host. -/
def afterLine (first : Node) (mine : List Node) (isFirst : Bool) : String :=
  if isFirst || !mine.contains first then "" else "\nAfter=" ++ first.name.text ++ ".service"

/-- The container units of a host, stem and text, in write order: a later one with the same stem
overwrites the file. -/
def containerUnits (e : Env) (c : Cluster) (hostName : Option String) :
    Except Raised (List (String × String)) := do
  Checked.refuseIf (c.multiHost = true ∧ hostName = none)
    (.valueError "a multi-host cluster renders per host (per_host)")
  let first ← Checked.ofOption .indexError c.firstControlPlane
  let routers ← mineRouters c hostName
  let mine := mineNodes c hostName
  let after := afterLine first (mine.map (·.1))
  return routers.map (fun r => (r.name, routerUnit e c r)) ++
    mine.map fun p => (p.1.name.text, nodeUnit e c (after p.2) p.1)

end Tk8s
