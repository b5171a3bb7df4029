import Tk8s.Create.Record
import Tk8s.Create.Units
import Tk8s.Phases

/-!
What a create works on: the hosts, and the context it carries from phase to phase.

* `Machine`, `Site`: the container units, the target and the containers of every machine, and the
  operator's `cluster.yaml`. All else a host holds is one value of any type.
* `Job`: the context of one tkctl run, with the cluster it works on.
* `perHost`, `unitFiles`: which machine gets which container units.
* `Placed`: the stems of the nodes and routers a cluster places on a machine.
-/

namespace Tk8s

/-! ### The hosts -/

/-- The operator, or the machine behind an ssh target. -/
abbrev MachineId := Option String

/-- One machine, as far as one cluster goes. A container is started from the unit systemd loaded at
the last `daemon-reload`. -/
structure Machine where
  /-- The text of `<stem>.container`. -/
  units : String → Option String := fun _ => none
  /-- What `<cluster>.target` wants. -/
  wants : List String := []
  loaded : String → Option String := fun _ => none
  loadedWants : List String := []
  /-- The target is active. -/
  active : Bool := false
  /-- The unit text a running container was started from. -/
  started : String → Option String := fun _ => none

namespace Machine

def writeUnit (m : Machine) (stem text : String) : Machine :=
  { m with units := Function.update m.units stem (some text) }

def removeUnit (m : Machine) (stem : String) : Machine :=
  { m with units := Function.update m.units stem none }

def writeTarget (m : Machine) (stems : List String) : Machine := { m with wants := stems }

/-- `systemctl daemon-reload`. -/
def reload (m : Machine) : Machine := { m with loaded := m.units, loadedWants := m.wants }

/-- `systemctl enable --now` of the target: what it wants and is not running is started. -/
def startTarget (m : Machine) : Machine :=
  { m with
    active := true
    started := fun stem =>
      match m.started stem with
      | some text => some text
      | none => if stem ∈ m.loadedWants then m.loaded stem else none }

end Machine

/-- The hosts of a cluster: the operator's `cluster.yaml`, the machines, and everything else. -/
structure Site (W : Type) where
  file : Option Cluster
  machine : MachineId → Machine
  other : W

variable {W : Type}

def Site.onMachine (s : Site W) (id : MachineId) (f : Machine → Machine) : Site W :=
  { s with machine := Function.update s.machine id (f (s.machine id)) }

/-- `phases.Context`: the cluster of this run, the hosts, and the phases that were run. -/
structure Job (W : Type) where
  cluster : Cluster
  site : Site W
  ran : List String := []

namespace Job

def onMachine (j : Job W) (id : MachineId) (f : Machine → Machine) : Job W :=
  { j with site := j.site.onMachine id f }

/-- `save_cluster`, on the operator. -/
def save (j : Job W) (c : Cluster) : Job W :=
  { j with cluster := c, site := { j.site with file := some c } }

end Job

section OnMachine

variable {j : Job W} {id : MachineId} {f : Machine → Machine}

@[simp] lemma onMachine_self : (j.onMachine id f).site.machine id = f (j.site.machine id) :=
  Function.update_self ..

lemma onMachine_of_ne {id' : MachineId} (h : id' ≠ id) :
    (j.onMachine id f).site.machine id' = j.site.machine id' := Function.update_of_ne h ..

/-- What a change of one machine keeps of every machine it keeps of all. -/
lemma onMachine_induction {P : MachineId → Machine → Prop} (h : ∀ id', P id' (j.site.machine id'))
    (hf : P id (j.site.machine id) → P id (f (j.site.machine id))) (id' : MachineId) :
    P id' ((j.onMachine id f).site.machine id') := by
  by_cases hid : id' = id
  · rw [hid, onMachine_self]
    exact hf (h id)
  · rw [onMachine_of_ne hid]
    exact h id'

end OnMachine

/-! ### Who gets which unit -/

/-- The hosts that get files, by name: one without a name on a single host, else every host of the
cluster, and the operator when it is none of them. -/
def perHost (c : Cluster) : List (Option String × MachineId) :=
  match c.spec.hosts with
  | none => [(none, none)]
  | some hosts =>
      hosts.map (fun h => (some h.name.text, h.ssh)) ++
        if hosts.all (·.ssh.isSome) then [(some "operator", none)] else []

/-- `files[path] = content`: a path that is written again keeps its place. -/
def putFile (stem text : String) : List (String × String) → List (String × String)
  | [] => [(stem, text)]
  | f :: rest => if f.1 = stem then (stem, text) :: rest else f :: putFile stem text rest

/-- The container units of a host as the dict `render` returns. -/
def hostFiles (e : Env) (c : Cluster) (hostName : Option String) :
    Except Raised (List (String × String)) := do
  let units ← containerUnits e c hostName
  return units.foldl (fun files u => putFile u.1 u.2 files) []

/-- What one host gets: its container units, and the target that wants them. -/
structure HostFiles where
  machine : MachineId
  units : List (String × String)

/-- `per_host`. -/
def unitFiles (e : Env) (c : Cluster) : Except Raised (List HostFiles) :=
  (perHost c).mapM fun h => do
    let units ← hostFiles e c h.1
    return ⟨h.2, units⟩

/-- A cluster renders this text for this container unit of a machine. -/
def Renders (e : Env) (c : Cluster) (id : MachineId) (stem text : String) : Prop :=
  ∃ l, unitFiles e c = .ok l ∧ ∃ hf ∈ l, hf.machine = id ∧ (stem, text) ∈ hf.units

/-! ### Where a cluster places a container -/

/-- The machine of a host name. -/
def machineOf (c : Cluster) (hostName : Option String) : Option MachineId :=
  match c.spec.hosts, hostName with
  | none, _ => some none
  | some hosts, some n => (hosts.find? (·.name.text = n)).map (·.ssh)
  | some _, none => none

/-- A node or router of this name is listed, and placed on this machine. -/
def Placed (c : Cluster) (id : MachineId) (stem : String) : Prop :=
  (∃ n ∈ c.spec.nodes, n.name.text = stem ∧ machineOf c n.host = some id) ∨
    ∃ l, c.routers = .ok l ∧ ∃ r ∈ l, r.name = stem ∧ machineOf c r.host = some id

/-! ### The same plan -/

/-- Two clusters with one plan: they differ by what create records alone. -/
structure SamePlan (c c' : Cluster) : Prop where
  metadata : c'.metadata = c.metadata
  spec : c'.spec.unrecorded = c.spec.unrecorded
  capacity : c'.status.map (·.nodeCapacity) = c.status.map (·.nodeCapacity)

namespace SamePlan

lemma refl (c : Cluster) : SamePlan c c := ⟨rfl, rfl, rfl⟩

lemma trans {c c' c'' : Cluster} (h : SamePlan c c') (h' : SamePlan c' c'') : SamePlan c c'' :=
  ⟨h'.metadata.trans h.metadata, h'.spec.trans h.spec, h'.capacity.trans h.capacity⟩

lemma symm {c c' : Cluster} (h : SamePlan c c') : SamePlan c' c :=
  ⟨h.metadata.symm, h.spec.symm, h.capacity.symm⟩

end SamePlan

/-- What a phase may write: the same plan, and the cluster no further than before. -/
structure OnlyRecorded (c c' : Cluster) : Prop extends SamePlan c c' where
  phase : c'.status.map (·.phase) = c.status.map (·.phase)

lemma OnlyRecorded.refl (c : Cluster) : OnlyRecorded c c := ⟨SamePlan.refl c, rfl⟩

lemma Recording.apply_onlyRecorded {c c' : Cluster} {r : Recording} (h : r.apply c = .ok c') :
    OnlyRecorded c c' := by
  obtain ⟨hmeta, hspec⟩ := Recording.apply_unrecorded h
  cases r with
  | cni datapath cilium =>
      rw [← Except.ok.inj h] at hmeta hspec ⊢
      cases hst : c.status <;> exact ⟨⟨hmeta, hspec, by simp [recordCni, hst]⟩, by simp [recordCni, hst]⟩
  | completed phase time =>
      rw [← Except.ok.inj h] at hmeta hspec ⊢
      cases hst : c.status <;>
        exact ⟨⟨hmeta, hspec, by simp [recordCompleted, hst]⟩, by simp [recordCompleted, hst]⟩
  | podCidrs cidrs =>
      obtain ⟨nodes, -, rfl⟩ := withPodCidrs_eq_ok.mp h
      exact ⟨⟨hmeta, hspec, rfl⟩, rfl⟩

/-! ### The same plan, the same files -/

/-- The plan alone: a cluster before anything was recorded. -/
def Cluster.plain (c : Cluster) : Cluster where
  metadata := c.metadata
  spec := c.spec.unrecorded
  status := c.status.map fun st => { phase := .creating, tk8s := "", nodeCapacity := st.nodeCapacity }

lemma SamePlan.plain_eq {c c' : Cluster} (h : SamePlan c c') : c'.plain = c.plain := by
  have hstatus : ∀ c : Cluster, c.plain.status = (c.status.map (·.nodeCapacity)).map fun b =>
      { phase := .creating, tk8s := "", nodeCapacity := b } := by
    intro c
    simp [Cluster.plain, Function.comp_def]
  have hst : c'.plain.status = c.plain.status := by rw [hstatus, hstatus, h.capacity]
  simp only [Cluster.plain] at hst ⊢
  rw [h.metadata, h.spec, hst]

lemma sized_plain (c : Cluster) : sized c.plain = sized c := by
  cases hst : c.status <;> simp [sized, Cluster.plain, hst]

section Plain

variable (c : Cluster) (n : Node)

@[simp] lemma plain_name : c.plain.name = c.name := rfl

@[simp] lemma plain_network : c.plain.spec.network = c.spec.network := rfl

@[simp] lemma plain_hosts : c.plain.spec.hosts = c.spec.hosts := rfl

@[simp] lemma plain_nodes : c.plain.spec.nodes = c.spec.nodes.map Node.unrecorded := rfl

@[simp] lemma plain_kubernetes : c.plain.spec.kubernetes = c.spec.kubernetes := rfl

@[simp] lemma plain_multiHost : c.plain.multiHost = c.multiHost := rfl

@[simp] lemma plain_endpointIp : c.plain.endpointIp = c.endpointIp := rfl

@[simp] lemma plain_routers : c.plain.routers = c.routers := rfl

@[simp] lemma unrecorded_name : n.unrecorded.name = n.name := rfl

@[simp] lemma unrecorded_role : n.unrecorded.role = n.role := rfl

@[simp] lemma unrecorded_ip : n.unrecorded.ip = n.ip := rfl

@[simp] lemma unrecorded_cpu : n.unrecorded.cpu = n.cpu := rfl

@[simp] lemma unrecorded_memory : n.unrecorded.memory = n.memory := rfl

@[simp] lemma unrecorded_host : n.unrecorded.host = n.host := rfl

end Plain

lemma nodeUnit_plain (e : Env) (c : Cluster) (after : String) (n : Node) :
    nodeUnit e c.plain after n.unrecorded = nodeUnit e c after n := by
  rw [nodeUnit, sized_plain, nodeUnit]
  rfl

lemma routerUnit_plain (e : Env) (c : Cluster) (r : Router) :
    routerUnit e c.plain r = routerUnit e c r := rfl

lemma mineNodes_plain (c : Cluster) (h : Option String) :
    mineNodes c.plain h = (mineNodes c h).map fun p => (p.1.unrecorded, p.2) := by
  have hnodes : c.plain.spec.nodes = c.spec.nodes.map Node.unrecorded := rfl
  have hmulti : c.plain.multiHost = c.multiHost := rfl
  simp only [mineNodes, hnodes, hmulti, List.zipIdx_map, List.map_map, List.filter_map,
    Function.comp_def]
  rfl

/-- The nodes of a host, in order. -/
lemma map_fst_mineNodes (c : Cluster) (h : Option String) :
    (mineNodes c h).map (·.1) = c.spec.nodes.filter fun n => !c.multiHost || n.host = h := by
  have hon : (fun p : Node × Bool => !c.multiHost || decide (p.1.host = h)) =
      (fun n : Node => !c.multiHost || decide (n.host = h)) ∘ Prod.fst := rfl
  have hfst : (fun p : Node × Bool => p.1) ∘ (fun p : Node × ℕ => (p.1, decide (p.2 = 0)))
      = Prod.fst := rfl
  rw [mineNodes, hon, ← List.filter_map, List.map_map]
  exact congrArg _ (List.zipIdx_map_fst 0 c.spec.nodes)

/-- Whether the first control plane is on this host does not depend on what was recorded. -/
lemma contains_plain {c : Cluster} {first : Node} (h : Option String)
    (hfirst : first ∈ c.spec.nodes) :
    ((mineNodes c.plain h).map (·.1)).contains first.unrecorded =
      ((mineNodes c h).map (·.1)).contains first := by
  rw [Bool.eq_iff_iff, List.contains_iff_mem, List.contains_iff_mem, map_fst_mineNodes,
    map_fst_mineNodes, List.mem_filter, List.mem_filter]
  have hplain : first.unrecorded ∈ c.plain.spec.nodes := List.mem_map_of_mem hfirst
  simp only [hfirst, hplain, true_and]
  exact Iff.rfl

lemma afterLine_plain {c : Cluster} {first : Node} (h : Option String)
    (hfirst : first ∈ c.spec.nodes) :
    afterLine first.unrecorded ((mineNodes c.plain h).map (·.1)) =
      afterLine first ((mineNodes c h).map (·.1)) := by
  funext isFirst
  rw [afterLine, afterLine, contains_plain h hfirst, unrecorded_name]

lemma containerUnits_plain (e : Env) (c : Cluster) (h : Option String) :
    containerUnits e c.plain h = containerUnits e c h := by
  have hrouters : mineRouters c.plain h = mineRouters c h := rfl
  have hrender : routerUnit e c.plain = routerUnit e c := funext fun r => routerUnit_plain e c r
  cases hnodes : c.spec.nodes with
  | nil =>
      have hnone : c.firstControlPlane = none := by rw [Cluster.firstControlPlane, hnodes, List.head?_nil]
      have hnone' : c.plain.firstControlPlane = none := by
        rw [Cluster.firstControlPlane, plain_nodes, hnodes, List.map_nil, List.head?_nil]
      simp only [containerUnits, hnone, hnone', Checked.ofOption, Checked.error_bind,
        plain_multiHost]
      rfl
  | cons first rest =>
      have hsome : c.firstControlPlane = some first := by
        rw [Cluster.firstControlPlane, hnodes, List.head?_cons]
      have hsome' : c.plain.firstControlPlane = some first.unrecorded := by
        rw [Cluster.firstControlPlane, plain_nodes, hnodes, List.map_cons, List.head?_cons]
      have hafter := afterLine_plain h (show first ∈ c.spec.nodes by simp [hnodes])
      simp only [containerUnits, hsome, hsome', Checked.ofOption, Checked.ok_bind, plain_multiHost,
        hrouters, hrender, hafter]
      simp only [mineNodes_plain, List.map_map, Function.comp_def, unrecorded_name, nodeUnit_plain]
      rfl

/-- What a plan renders, whatever was recorded. -/
lemma unitFiles_congr {c c' : Cluster} (e : Env) (h : SamePlan c c') :
    unitFiles e c' = unitFiles e c := by
  have hplain : ∀ c : Cluster, unitFiles e c = unitFiles e c.plain := by
    intro c
    have hfiles : hostFiles e c.plain = hostFiles e c := by
      funext host
      rw [hostFiles, hostFiles, containerUnits_plain]
    have hhosts : perHost c.plain = perHost c := rfl
    rw [unitFiles, unitFiles, hfiles, hhosts]
  rw [hplain c', h.plain_eq, ← hplain c]

lemma renders_congr {e : Env} {c c' : Cluster} (h : SamePlan c c') {id : MachineId}
    {stem text : String} : Renders e c' id stem text ↔ Renders e c id stem text := by
  rw [Renders, Renders, unitFiles_congr e h]

/-- Where a plan places a container, whatever was recorded. -/
lemma placed_congr {c c' : Cluster} (h : SamePlan c c') {id : MachineId} {stem : String} :
    Placed c' id stem ↔ Placed c id stem := by
  have hplain : ∀ c : Cluster, Placed c id stem ↔ Placed c.plain id stem := by
    intro c
    have hmachine : machineOf c.plain = machineOf c := rfl
    rw [Placed, Placed, hmachine, plain_nodes, plain_routers]
    simp only [List.mem_map, exists_exists_and_eq_and, unrecorded_name, unrecorded_host]
  rw [hplain c', h.plain_eq, ← hplain c]

end Tk8s
