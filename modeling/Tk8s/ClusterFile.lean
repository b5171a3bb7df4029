import Tk8s.Lib.Yaml
import Tk8s.Model

/-!
`model.py`: `cluster.yaml` as a text, read and written.

* `Libraries`: what PyYAML and pydantic do with a document and with a single value.
* `Host.tree`, `Node.tree`, ..., `Cluster.tree`: the document a cluster is dumped as, its nulls left
  out; `Host.load`, ..., `Cluster.load`: the fields, defaults and validators it is read with.
* `dumps`, `loadText`: the two ends.
* `Cluster.load_tree`: **a valid cluster reads back** from its document, and `distinct_tree`: the
  document has no key twice; so `loadText_dumps`: it reads back from its text.
-/

namespace Tk8s

open Net Yaml

/-! ### The libraries -/

/-- PyYAML, pydantic and `repr`, as far as `model.py` uses them. A time is a number here, and
`isoformat` its text. -/
structure Libraries where
  /-- `yaml.dump`, told the ways to the texts that are written in double quotes. -/
  dump : Yaml → List (List String) → String
  /-- `yaml.load` with `_Loader`, which refuses a key twice; else what the `YAMLError` says. -/
  load : String → Except String Yaml
  repr : Yaml → String
  str : Decoder String
  int : Decoder ℤ
  bool : Decoder Bool
  address : Decoder IPv4Address
  network : Decoder IPv4Network
  datetime : Decoder ℕ
  isoformat : ℕ → String

/-- A single value that was dumped is read as what it was. -/
structure Libraries.Reads (lib : Libraries) : Prop where
  str : ∀ s, lib.str (.str s) = .ok s
  int : ∀ n, lib.int (.int n) = .ok n
  bool : ∀ b, lib.bool (.bool b) = .ok b
  address : ∀ a : IPv4Address, lib.address (.str a.text) = .ok a
  network : ∀ n : IPv4Network, lib.network (.str n.text) = .ok n
  datetime : ∀ t, lib.datetime (.str (lib.isoformat t)) = .ok t

variable (lib : Libraries)

/-! ### Single fields -/

/-- `Field(pattern=...)`, with the pattern as the message spells it. -/
def matching (pattern : String → Bool) (regex : String) : Decoder (Matching pattern) := fun t => do
  let s ← lib.str t
  match Matching.ofText? s with
  | some m => .ok m
  | none => mismatch s!"String should match pattern '{regex}'" t

/-- `Field(ge=1)`. -/
def positive : Decoder ℕ+ := fun t => do
  let n ← lib.int t
  if h : 0 < n.toNat then .ok ⟨n.toNat, h⟩
  else mismatch "Input should be greater than or equal to 1" t

/-- A number that is not negative; a `cluster_id` is none that tkctl did not write. -/
def natural : Decoder ℕ := fun t => do
  let n ← lib.int t
  if 0 ≤ n then .ok n.toNat else mismatch "Input should be greater than or equal to 0" t

/-- `Field(ge=0, le=255)`. -/
def subnetNumber : Decoder ℕ := fun t => do
  let n ← natural lib t
  if n ≤ 255 then .ok n else mismatch "Input should be less than or equal to 255" t

/-- A `Literal` of texts. -/
def oneOf {α : Type} (options : List (String × α)) (expected : String) : Decoder α
  | .str s =>
      match options.lookup s with
      | some a => .ok a
      | none => mismatch s!"Input should be {expected}" (.str s)
  | t => mismatch s!"Input should be {expected}" t

def clusterNameField : Decoder ClusterName :=
  matching lib clusterNamePattern "^[a-z][a-z0-9-]\x7b0,15\x7d$"

def nodeNameField : Decoder NodeName := matching lib nodeNamePattern "^[a-z][a-z0-9-]*$"

def hostNameField : Decoder HostName :=
  matching lib hostNamePattern "^[a-z][a-z0-9-]\x7b0,31\x7d$"

def memoryField : Decoder MemoryText := matching lib memoryPattern "^[0-9]+[gm]$"

/-- `Field(pattern=RANGE)` of a text that is kept as it is. -/
def rangeField : Decoder String := fun t => do
  let m ← matching lib rangePattern "^[0-9.]+(-[0-9.]+)?(, *[0-9.]+(-[0-9.]+)?)*$" t
  return m.text

def Ha.text : Ha → String
  | proxy => "proxy"
  | bgp => "bgp"

def Datapath.text : Datapath → String
  | auto => "auto"
  | netkit => "netkit"
  | veth => "veth"

def ResolvedDatapath.text : ResolvedDatapath → String
  | netkit => "netkit"
  | veth => "veth"

def ClusterPhase.text : ClusterPhase → String
  | creating => "Creating"
  | ready => "Ready"

def roleField : Decoder Role :=
  oneOf [("control-plane", .controlPlane), ("worker", .worker)] "'control-plane' or 'worker'"

def haField : Decoder Ha := oneOf [("proxy", .proxy), ("bgp", .bgp)] "'proxy' or 'bgp'"

def datapathField : Decoder Datapath :=
  oneOf [("auto", .auto), ("netkit", .netkit), ("veth", .veth)] "'auto', 'netkit' or 'veth'"

def resolvedField : Decoder ResolvedDatapath :=
  oneOf [("netkit", .netkit), ("veth", .veth)] "'netkit' or 'veth'"

def phaseField : Decoder ClusterPhase :=
  oneOf [("Creating", .creating), ("Ready", .ready)] "'Creating' or 'Ready'"

/-- `Literal[1, 2]`. -/
def routersField : Decoder RouterCount
  | .int 1 => .ok .one
  | .int 2 => .ok .two
  | t => mismatch "Input should be 1 or 2" t

/-- What a model validator raises. -/
def validated (check : Except Raised Unit) : Except Fault Unit :=
  match check with
  | .ok () => .ok ()
  | .error (.validationError m) => .error { loc := [], message := "Value error, " ++ m, given := none }
  | .error _ => .error { loc := [], message := "Assertion failed", given := none }

/-! ### Hosts and nodes -/

/-- `model_dump(mode="json", exclude_none=True)` of a host. -/
def Host.tree (h : Host) : Yaml :=
  record [("name", some (.str h.name.text)), ("ssh", h.ssh.map .str), ("iface", some (.str h.iface))]

def Host.load : Decoder Host := fun t => do
  let fields ← fieldsOf "Host" t
  let name ← required fields "name" (hostNameField lib)
  let ssh ← defaulted fields "ssh" none (nullable lib.str)
  let iface ← required fields "iface" lib.str
  onlyFields ["name", "ssh", "iface"] fields
  return { name := name, ssh := ssh, iface := iface }

def Node.tree (n : Node) : Yaml :=
  record [("role", some (.str n.role.text)), ("name", some (.str n.name.text)),
    ("ip", some (.str n.ip.text)), ("cpu", some (.int (n.cpu : ℕ))),
    ("memory", some (.str n.memory.text)), ("join", some (.bool n.join)), ("host", n.host.map .str),
    ("pod_cidr", n.podCidr.map fun p => .str p.text)]

def Node.load : Decoder Node := fun t => do
  let fields ← fieldsOf "Node" t
  let role ← required fields "role" roleField
  let name ← required fields "name" (nodeNameField lib)
  let ip ← required fields "ip" lib.address
  let cpu ← required fields "cpu" (positive lib)
  let memory ← required fields "memory" (memoryField lib)
  let join ← defaulted fields "join" true lib.bool
  let host ← defaulted fields "host" none (nullable lib.str)
  let podCidr ← defaulted fields "pod_cidr" none (nullable lib.network)
  onlyFields ["role", "name", "ip", "cpu", "memory", "join", "host", "pod_cidr"] fields
  return { role := role, name := name, ip := ip, cpu := cpu, memory := memory, join := join,
           host := host, podCidr := podCidr }

/-! ### The network -/

def Network.tree (net : Network) : Yaml :=
  record [("index", some (.int net.index)), ("nodes", some (.str net.nodes.text)),
    ("gateway", some (.str net.gateway.text)), ("router", some (.str net.router.text)),
    ("ha", some (.str net.ha.text)), ("routers", some (.int net.routers.toNat)),
    ("vip", net.vip.map fun a => .str a.text), ("lb_range", some (.str net.lbRange)),
    ("pods", some (.str net.pods.text)), ("services", some (.str net.services.text)),
    ("range", net.range.map .str),
    ("router_hosts", net.routerHosts.map fun l => .list (l.map .str)),
    ("shim", net.shim.map fun a => .str a.text), ("mesh", net.mesh.map fun a => .str a.text)]
def Network.load : Decoder Network := fun t => do
  let fields ← fieldsOf "Network" t
  let index ← required fields "index" (subnetNumber lib)
  let nodes ← required fields "nodes" lib.network
  let gateway ← required fields "gateway" lib.address
  let router ← required fields "router" lib.address
  let ha ← defaulted fields "ha" .proxy haField
  let routers ← defaulted fields "routers" .one routersField
  let vip ← defaulted fields "vip" none (nullable lib.address)
  let lbRange ← required fields "lb_range" lib.str
  let pods ← required fields "pods" lib.network
  let services ← required fields "services" lib.network
  let range ← defaulted fields "range" none (nullable (rangeField lib))
  let routerHosts ← defaulted fields "router_hosts" none (nullable (listOf lib.str))
  let shim ← defaulted fields "shim" none (nullable lib.address)
  let mesh ← defaulted fields "mesh" none (nullable lib.address)
  onlyFields ["index", "nodes", "gateway", "router", "ha", "routers", "vip", "lb_range", "pods",
    "services", "range", "router_hosts", "shim", "mesh"] fields
  let net : Network :=
    { index := index, nodes := nodes, gateway := gateway, router := router, ha := ha,
      routers := routers, vip := vip, lbRange := lbRange, pods := pods, services := services,
      range := range, routerHosts := routerHosts, shim := shim, mesh := mesh }
  validated net.check
  return net

/-! ### Spec, status and the whole -/

def Spec.tree (s : Spec) : Yaml :=
  record [("kubernetes", some (.str s.kubernetes)), ("cni", some (.str "cilium")),
    ("datapath", some (.str s.datapath.text)),
    ("datapath_resolved", s.datapathResolved.map fun d => .str d.text),
    ("gvisor", some (.bool s.gvisor)), ("network", some s.network.tree),
    ("nodes", some (.list (s.nodes.map Node.tree))),
    ("hosts", s.hosts.map fun l => .list (l.map Host.tree))]

def Spec.load : Decoder Spec := fun t => do
  let fields ← fieldsOf "Spec" t
  let kubernetes ← required fields "kubernetes" lib.str
  required fields "cni" (oneOf [("cilium", ())] "'cilium'")
  let datapath ← required fields "datapath" datapathField
  let datapathResolved ← defaulted fields "datapath_resolved" none (nullable resolvedField)
  let gvisor ← required fields "gvisor" lib.bool
  let network ← required fields "network" (Network.load lib)
  let nodes ← required fields "nodes" (nonEmptyOf (Node.load lib))
  let hosts ← defaulted fields "hosts" none (nullable (listOf (Host.load lib)))
  onlyFields ["kubernetes", "cni", "datapath", "datapath_resolved", "gvisor", "network", "nodes",
    "hosts"] fields
  let s : Spec :=
    { kubernetes := kubernetes, datapath := datapath, datapathResolved := datapathResolved,
      gvisor := gvisor, network := network, nodes := nodes, hosts := hosts }
  validated s.check
  return s

/-- `dumps` says nothing of the peers of a cluster that has none. -/
def Status.tree (st : Status) : Yaml :=
  record [("phase", some (.str st.phase.text)),
    ("completed", some (.map (st.completed.map fun e => (.str e.1, .str (lib.isoformat e.2))))),
    ("tk8s", some (.str st.tk8s)), ("node_capacity", some (.bool st.nodeCapacity)),
    ("operator", st.operator.map .str), ("cluster_id", st.clusterId.map fun n : ℕ => .int n),
    ("cilium", st.cilium.map .str),
    ("mesh", if st.mesh = [] then none else some (.list (st.mesh.map .str)))]

def Status.load : Decoder Status := fun t => do
  let fields ← fieldsOf "Status" t
  let phase ← required fields "phase" phaseField
  let completed ← defaulted fields "completed" [] (dictOf lib.str lib.datetime)
  let tk8s ← required fields "tk8s" lib.str
  let nodeCapacity ← defaulted fields "node_capacity" false lib.bool
  let operator ← defaulted fields "operator" none (nullable lib.str)
  let clusterId ← defaulted fields "cluster_id" none (nullable (natural lib))
  let cilium ← defaulted fields "cilium" none (nullable lib.str)
  let mesh ← defaulted fields "mesh" [] (listOf lib.str)
  onlyFields ["phase", "completed", "tk8s", "node_capacity", "operator", "cluster_id", "cilium",
    "mesh"] fields
  return { phase := phase, completed := completed, tk8s := tk8s, nodeCapacity := nodeCapacity,
           operator := operator, clusterId := clusterId, cilium := cilium, mesh := mesh }

def Metadata.tree (m : Metadata) : Yaml := record [("name", some (.str m.name.text))]

def Metadata.load : Decoder Metadata := fun t => do
  let fields ← fieldsOf "Metadata" t
  let name ← required fields "name" (clusterNameField lib)
  onlyFields ["name"] fields
  return ⟨name⟩

def Cluster.tree (c : Cluster) : Yaml :=
  record [("apiVersion", some (.str "taroko.io/v1alpha1")), ("kind", some (.str "Cluster")),
    ("metadata", some c.metadata.tree), ("spec", some c.spec.tree),
    ("status", c.status.map (Status.tree lib))]

def Cluster.load : Decoder Cluster := fun t => do
  let fields ← fieldsOf "Cluster" t
  defaulted fields "apiVersion" () (oneOf [("taroko.io/v1alpha1", ())] "'taroko.io/v1alpha1'")
  defaulted fields "kind" () (oneOf [("Cluster", ())] "'Cluster'")
  let metadata ← required fields "metadata" (Metadata.load lib)
  let spec ← required fields "spec" (Spec.load lib)
  let status ← defaulted fields "status" none (nullable (Status.load lib))
  onlyFields ["apiVersion", "kind", "metadata", "spec", "status"] fields
  return { metadata := metadata, spec := spec, status := status }

/-! ### The text -/

/-- `dumps`: the Kubernetes version must not read like a float. -/
def dumps (c : Cluster) : String := lib.dump (c.tree lib) [["spec", "kubernetes"]]

/-- `_first_error`: the field, and for a scalar the value that was given. -/
def firstError (name : String) (e : Fault) : String :=
  let loc := if e.loc = [] then "document" else ".".intercalate e.loc
  let got :=
    match e.given with
    | some (.str s) => " (got " ++ lib.repr (.str s) ++ ")"
    | some (.int n) => " (got " ++ lib.repr (.int n) ++ ")"
    | some (.float f) => " (got " ++ lib.repr (.float f) ++ ")"
    | some (.bool b) => " (got " ++ lib.repr (.bool b) ++ ")"
    | _ => ""
  s!"{name}: {loc}: {e.message}{got}"

/-- `load_text`. -/
def loadText (text name : String) : Except Raised Cluster :=
  match lib.load text with
  | .error e => .error (.clusterFileError s!"{name}: {e}")
  | .ok t =>
      match Cluster.load lib t with
      | .error e => .error (.clusterFileError (firstError lib name e))
      | .ok c => .ok c

/-! ### Single fields read back -/

section ReadsBack

variable {lib} (hlib : lib.Reads)

include hlib

lemma matching_text {pattern : String → Bool} {regex : String} (m : Matching pattern) :
    matching lib pattern regex (.str m.text) = .ok m := by
  rw [matching, hlib.str, Checked.ok_bind, Matching.ofText?_eq_some.mpr rfl]

lemma natural_int (n : ℕ) : natural lib (.int n) = .ok n := by
  rw [natural, hlib.int, Checked.ok_bind, if_pos (Int.natCast_nonneg n), Int.toNat_natCast]

lemma positive_int (n : ℕ+) : positive lib (.int (n : ℕ)) = .ok n := by
  have hpos : 0 < ((n : ℕ) : ℤ).toNat := by
    rw [Int.toNat_natCast]
    exact n.pos
  rw [positive, hlib.int, Checked.ok_bind, dif_pos hpos]
  exact congrArg Except.ok (PNat.eq (Int.toNat_natCast n))

lemma subnetNumber_int {n : ℕ} (h : n ≤ 255) : subnetNumber lib (.int n) = .ok n := by
  rw [subnetNumber, natural_int hlib, Checked.ok_bind, if_pos h]

lemma rangeField_text {r : String} (h : rangePattern r = true) : rangeField lib (.str r) = .ok r := by
  have hread : ∀ regex, matching lib rangePattern regex (.str r) = .ok (⟨r, h⟩ : RangeText) :=
    fun _ => matching_text hlib (⟨r, h⟩ : RangeText)
  rw [rangeField, hread]
  rfl

end ReadsBack

lemma roleField_text (r : Role) : roleField (.str r.text) = .ok r := by cases r <;> rfl

lemma haField_text (h : Ha) : haField (.str h.text) = .ok h := by cases h <;> rfl

lemma datapathField_text (d : Datapath) : datapathField (.str d.text) = .ok d := by
  cases d <;> rfl

lemma resolvedField_text (d : ResolvedDatapath) : resolvedField (.str d.text) = .ok d := by
  cases d <;> rfl

lemma phaseField_text (p : ClusterPhase) : phaseField (.str p.text) = .ok p := by cases p <;> rfl

lemma routersField_int (n : RouterCount) : routersField (.int n.toNat) = .ok n := by
  cases n <;> rfl

/-! ### Records read back -/

section Records

variable {lib} (hlib : lib.Reads)

include hlib

lemma Host.load_tree (h : Host) : Host.load lib h.tree = .ok h := by
  simp [Host.load, Host.tree, hostNameField, required, defaulted, matching_text hlib, hlib.str]

lemma Node.load_tree (n : Node) : Node.load lib n.tree = .ok n := by
  simp [Node.load, Node.tree, nodeNameField, memoryField, required, defaulted, matching_text hlib,
    positive_int hlib, roleField_text, hlib.str, hlib.bool, hlib.address, hlib.network]

lemma listOf_texts (l : List String) : listOf lib.str (.list (l.map .str)) = .ok l :=
  listOf_map fun s _ => hlib.str s

lemma Network.load_tree {net : Network} (hcheck : net.check = .ok ())
    (hrange : ∀ r ∈ net.range, rangePattern r = true) : Network.load lib net.tree = .ok net := by
  have hindex : net.index ≤ 255 := by
    simp only [Network.check, Checked.check_bind_eq_ok, Checked.refuseIf_eq_ok, Nat.not_lt] at hcheck
    exact hcheck.1
  have hread : (net.range.map ((fun v => within "range" (nullable (rangeField lib) v)) ∘ .str)).getD
      (.ok none) = .ok net.range :=
    getD_within_of_mem fun r hr => by simp [rangeField_text hlib (hrange r hr)]
  simp [Network.load, Network.tree, required, defaulted, hread, subnetNumber_int hlib hindex,
    haField_text, routersField_int, listOf_texts hlib, hlib.str, hlib.address, hlib.network, validated,
    hcheck]

lemma Spec.load_tree {s : Spec} (hcheck : s.check = .ok ()) (hnet : s.network.check = .ok ())
    (hrange : ∀ r ∈ s.network.range, rangePattern r = true) : Spec.load lib s.tree = .ok s := by
  have hnodes : nonEmptyOf (Node.load lib) (.list (s.nodes.map Node.tree)) = .ok s.nodes := by
    refine nonEmptyOf_map (fun hnone => ?_) fun n _ => Node.load_tree hlib n
    simp [Spec.check, hnone, Checked.refuseIf] at hcheck
  have hhosts : ∀ l : List Host, listOf (Host.load lib) (.list (l.map Host.tree)) = .ok l := fun l =>
    listOf_map fun h _ => Host.load_tree hlib h
  have hcni : oneOf [("cilium", ())] "'cilium'" (.str "cilium") = .ok () := rfl
  simp [Spec.load, Spec.tree, required, defaulted, hcni, datapathField_text, resolvedField_text,
    Network.load_tree hlib hnet hrange, hnodes, hhosts, hlib.str, hlib.bool, validated, hcheck]

lemma Status.load_tree (st : Status) : Status.load lib (st.tree lib) = .ok st := by
  have hcompleted : dictOf lib.str lib.datetime
      (.map (st.completed.map fun e => (.str e.1, .str (lib.isoformat e.2)))) = .ok st.completed :=
    dictOf_map (fun t => .str (lib.isoformat t)) hlib.str fun e _ => hlib.datetime e.2
  by_cases hmesh : st.mesh = []
  · simp [Status.load, Status.tree, required, defaulted, phaseField_text, hcompleted, natural_int hlib,
      hlib.str, hlib.bool, hmesh]
    rw [← hmesh]
  · simp [Status.load, Status.tree, required, defaulted, phaseField_text, hcompleted, natural_int hlib,
      listOf_texts hlib, hlib.str, hlib.bool, hmesh]

lemma Metadata.load_tree (m : Metadata) : Metadata.load lib m.tree = .ok m := by
  simp [Metadata.load, Metadata.tree, clusterNameField, required, matching_text hlib]

/-- What is checked of a cluster when it is read, beyond the types of its fields. `completed` is a
dict. -/
structure Valid (c : Cluster) : Prop where
  spec : c.spec.check = .ok ()
  network : c.spec.network.check = .ok ()
  range : ∀ r ∈ c.spec.network.range, rangePattern r = true
  completed : ∀ st ∈ c.status, (st.completed.map Prod.fst).Nodup

/-- **A valid cluster reads back** from its document. -/
theorem Cluster.load_tree {c : Cluster} (h : Valid c) : Cluster.load lib (c.tree lib) = .ok c := by
  have hversion : oneOf [("taroko.io/v1alpha1", ())] "'taroko.io/v1alpha1'"
      (.str "taroko.io/v1alpha1") = .ok () := rfl
  have hkind : oneOf [("Cluster", ())] "'Cluster'" (.str "Cluster") = .ok () := rfl
  have hstatus : ∀ st : Status, nullable (Status.load lib) (st.tree lib) = .ok (some st) := by
    intro st
    rw [nullable_of_ne (by simp [Status.tree, record]), Status.load_tree hlib]
    rfl
  simp [Cluster.load, Cluster.tree, required, defaulted, hversion, hkind, Metadata.load_tree hlib,
    Spec.load_tree hlib h.spec h.network h.range, hstatus]

end Records

/-! ### No key twice -/

section Distinct

variable {lib}

lemma distinct_texts (l : List String) : Distinct (.list (l.map .str)) := distinct_list Distinct.str

lemma Host.distinct_tree (h : Host) : Distinct h.tree :=
  distinct_record (by simp) (by simp [Distinct.str])

lemma Node.distinct_tree (n : Node) : Distinct n.tree :=
  distinct_record (by simp) (by simp [Distinct.str, Distinct.int, Distinct.bool])

lemma Network.distinct_tree (net : Network) : Distinct net.tree :=
  distinct_record (by simp) (by simp [Distinct.str, Distinct.int, distinct_texts])

lemma Spec.distinct_tree (s : Spec) : Distinct s.tree := by
  have hnodes : Distinct (.list (s.nodes.map Node.tree)) := distinct_list Node.distinct_tree
  have hhosts : ∀ l : List Host, Distinct (.list (l.map Host.tree)) := fun l =>
    distinct_list Host.distinct_tree
  exact distinct_record (by simp)
    (by simp [Distinct.str, Distinct.bool, Network.distinct_tree, hnodes, hhosts])

lemma Status.distinct_tree {st : Status} (h : (st.completed.map Prod.fst).Nodup) :
    Distinct (st.tree lib) := by
  have hcompleted : Distinct (.map (st.completed.map fun e => (.str e.1, .str (lib.isoformat e.2)))) :=
    distinct_dict (fun t => .str (lib.isoformat t)) h fun t => Distinct.str _
  exact distinct_record (by simp)
    (by simp [Distinct.str, Distinct.int, Distinct.bool, hcompleted, distinct_texts])

/-- **The document of a cluster has no key twice.** -/
theorem Cluster.distinct_tree {c : Cluster} (h : Valid c) : Distinct (c.tree lib) := by
  have hmeta : Distinct c.metadata.tree := distinct_record (by simp) (by simp [Distinct.str])
  have hstatus : ∀ st ∈ c.status, Distinct (st.tree lib) := fun st hst =>
    Status.distinct_tree (h.completed st hst)
  refine distinct_record (by simp) ?_
  simp only [List.forall_mem_cons, List.not_mem_nil, false_implies, implies_true, and_true,
    Option.mem_some_iff, forall_eq', Distinct.str, hmeta, Spec.distinct_tree, true_and]
  rintro t ht
  obtain ⟨st, hst, rfl⟩ := Option.map_eq_some_iff.mp ht
  exact hstatus st hst

/-- **A valid cluster reads back** from its text, when YAML gives its document back. -/
theorem loadText_dumps {c : Cluster} (hlib : lib.Reads) (h : Valid c)
    (hyaml : (c.tree lib).Distinct → lib.load (dumps lib c) = .ok (c.tree lib)) (name : String) :
    loadText lib (dumps lib c) name = .ok c := by
  rw [loadText, hyaml (Cluster.distinct_tree h)]
  simp only [Cluster.load_tree hlib h]

end Distinct

end Tk8s
