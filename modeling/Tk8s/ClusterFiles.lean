import Tk8s.ClusterFile
import Tk8s.Host.Printed
import Tk8s.RoundTrip

/-!
`model.py`, `create/plan.py`, `images.py` and `lifecycle.py`: the cluster files of a host, whatever
stands in them.

* `Parsers`: PyYAML with its errors, and `str` of a value.
* `peekText`, `peek`, `loadFile`: the readers, with what each of them catches.
* `usedIndices`, `usedIndicesOn`, `clustersUsing`, `listClusters`: who reads every file.
* `Isolated`: all four return, and report the files that parse. `isolated_iff`: **one file never
  blocks the others** exactly when every file is one that the readers get through (`Peekable`,
  `Loadable`).
-/

namespace Tk8s

open Yaml

/-! ### The readers -/

/-- How PyYAML refuses a text; a `ValueError` is what becomes of an impossible date. -/
inductive Refusal where
  | yamlError (message : String)
  | valueError (message : String)
deriving DecidableEq

/-- How `yaml.load` with `_Loader` ends: `key in seen` does not take a list or a mapping. -/
inductive LoaderError where
  | refused (r : Refusal)
  | unhashableKey (message : String)

structure Parsers where
  lib : Libraries
  safeLoad : String → Except Refusal Yaml
  /-- With `_Loader`. -/
  load : String → Except LoaderError Yaml
  /-- `str(value)`; none for a number of too many digits, which is a `ValueError`. -/
  str : Yaml → Option String

/-- What can come out of a reader. -/
inductive Escaped where
  | unicodeDecodeError
  | valueError (message : String)
  | typeError (message : String)
  | clusterFileError (message : String)
  | hostsError (target : BadTarget)

/-- Universal newlines. -/
def newlines : List Char → List Char
  | [] => []
  | '\r' :: '\n' :: rest => '\n' :: newlines rest
  | '\r' :: rest => '\n' :: newlines rest
  | c :: rest => c :: newlines rest

/-- `path.read_text()`. -/
def readText (bytes : ByteArray) : Except Escaped String :=
  match String.fromUTF8? bytes with
  | some text => .ok (String.ofList (newlines text.toList))
  | none => .error .unicodeDecodeError

section Readers

variable (p : Parsers)

/-- `isinstance(value, int)`, with the number; a truth value is one. -/
def asInt : Yaml → Option ℤ
  | .int n => some n
  | .bool b => some (if b then 1 else 0)
  | _ => none

/-- `raw.get("spec")`, where it is a mapping. -/
def specFields : Yaml → Option (List (Yaml × Yaml))
  | .map top =>
      match lookup "spec" top with
      | some (.map spec) => some spec
      | _ => none
  | _ => none

/-- `spec.network.index`. -/
def indexOf (spec : List (Yaml × Yaml)) : Option ℤ :=
  match lookup "network" spec with
  | some (.map net) => (lookup "index" net).bind asInt
  | _ => none

/-- `spec.kubernetes`, null taken for missing. -/
def kubernetesOf (spec : List (Yaml × Yaml)) : Option Yaml :=
  match lookup "kubernetes" spec with
  | some .null => none
  | k8s => k8s

/-- `peek_text`. -/
def peekText (text : String) : Except Escaped (Option ℤ × Option String) :=
  match p.safeLoad text with
  | .error (.yamlError _) => .ok (none, none)
  | .error (.valueError message) => .error (.valueError message)
  | .ok raw =>
      match specFields raw with
      | none => .ok (none, none)
      | some spec =>
          match kubernetesOf spec with
          | none => .ok (indexOf spec, none)
          | some k8s =>
              match p.str k8s with
              | some version => .ok (indexOf spec, some version)
              | none => .error (.valueError "Exceeds the limit for integer string conversion")

/-- `peek`. -/
def peek (bytes : ByteArray) : Except Escaped (Option ℤ × Option String) := do
  let text ← readText bytes
  peekText p text

/-- Whether `_first_error` can show the value that was given: a number of too many digits it
cannot. -/
def printable (e : Fault) : Bool :=
  match e.given with
  | some (.int n) => (p.str (.int n)).isSome
  | _ => true

/-- `load`. -/
def loadFile (bytes : ByteArray) (path : String) : Except Escaped Cluster := do
  let text ← readText bytes
  match p.load text with
  | .error (.refused (.yamlError e)) => .error (.clusterFileError s!"{path}: {e}")
  | .error (.refused (.valueError message)) => .error (.valueError message)
  | .error (.unhashableKey message) => .error (.typeError message)
  | .ok raw =>
      match Cluster.load p.lib raw with
      | .ok c => .ok c
      | .error e =>
          if printable p e then .error (.clusterFileError (firstError p.lib path e))
          else .error (.valueError "Exceeds the limit for integer string conversion")

end Readers

/-! ### Who reads every file -/

/-- A directory under `clusters/`, with its `cluster.yaml`. -/
structure Dir where
  name : String
  file : Option ByteArray

/-- What the list asks this machine and the hosts of a cluster. -/
structure Machines where
  hostname : String
  controlDir : String
  clustersDir : String
  /-- `is_active` here. -/
  active : String → Bool
  /-- `is_active` over ssh; none for a `HostError`. -/
  remoteActive : SshHost → String → Option Bool

section Lists

variable (p : Parsers) (m : Machines)

/-- `used_indices`. -/
def usedIndices (dirs : List Dir) : Except Escaped (List ℤ) := do
  let found ← (dirs.filterMap (·.file)).mapM (peek p)
  return found.filterMap Prod.fst

/-- `used_indices_on`: a host's directories and what `cat` gives for each. -/
def usedIndicesOn (dirs : List Dir) : Except Escaped (List ℤ) := do
  let found ← dirs.mapM fun d =>
    match d.file with
    | some bytes => peek p bytes
    | none => .ok (none, none)
  return found.filterMap Prod.fst

/-- `clusters_using`. -/
def clustersUsing (dirs : List Dir) (k8s : String) : Except Escaped (List String) := do
  let found ← dirs.mapM fun d =>
    match d.file with
    | some bytes =>
        (fun peeked => if peeked.2 = some k8s then some d.name else none) <$> peek p bytes
    | none => .ok none
  return found.reduceOption.mergeSort fun a b => decide (a ≤ b)

/-- `managed_from`. -/
def managedFrom (c : Cluster) : Option String :=
  match c.status.bind (·.operator) with
  | none => none
  | some op => if op = m.hostname then none else some op

/-- `target_up`. -/
def targetUp (unit : String) : BuiltHost → Option Bool
  | .operator => some (m.active unit)
  | .overSsh h => m.remoteActive h unit
  | .printing _ => some false

/-- `state_of`, given the hosts of the cluster. -/
def stateOf (c : Cluster) (hosts : List BuiltHost) : String :=
  let unit := c.name ++ ".target"
  if (c.status.map (·.phase)) ≠ some .ready then "Creating"
  else if c.multiHost = false then if m.active unit then "Running" else "Stopped"
  else
    let up := hosts.map fun h => (targetUp m unit h).getD false
    if up.all id then "Running" else if up.any id then "Degraded" else "Stopped"

/-- A row of the table. -/
structure Row where
  name : String
  nodes : String
  kubernetes : String
  datapath : String
  state : String
  hosts : String
  mesh : String
  subnet : String

/-- A row, or a line of its own. -/
inductive ListEntry where
  | row (r : Row)
  | line (text : String)

/-- `f"{text:<width}"`. -/
def ljust (width : ℕ) (text : String) : String :=
  text ++ String.ofList (List.replicate (width - text.length) ' ')

/-- The row of a cluster, given its state and what goes behind the subnet. -/
def Cluster.row (c : Cluster) (name state tail : String) : Row where
  name := name
  nodes := s!"{c.controlPlanes.length}+{c.workers.length}"
  kubernetes := c.spec.kubernetes
  datapath := match c.spec.datapathResolved with
    | some d => d.text
    | none => c.spec.datapath.text
  state := state
  hosts := if c.multiHost then toString c.hostNames.length else "-"
  mesh := match c.status with
    | some st => if st.mesh = [] then "-" else ", ".intercalate st.mesh
    | none => "-"
  subnet := c.spec.network.nodes.text ++ tail

/-- `hosts.build` of the cluster's hosts. -/
def buildHosts (c : Cluster) : Except Escaped (List BuiltHost) :=
  (c.spec.hosts.getD []).mapM fun h =>
    match buildHost m.controlDir false ⟨h.name, h.ssh⟩ with
    | .ok built => .ok built
    | .error bad => .error (.hostsError bad)

/-- The row of a cluster file that could be read. -/
def rowOf (name : String) (c : Cluster) : Except Escaped Row :=
  match if c.multiHost then managedFrom m c else none with
  | some op => .ok (c.row name "managed" (" from " ++ op))
  | none => (fun hosts => c.row name (stateOf m c hosts) "") <$>
      (if c.multiHost then buildHosts m c else .ok [])

/-- One round of `list_clusters`. -/
def entryOf (d : Dir) : Except Escaped ListEntry :=
  match d.file with
  | none =>
      let why := s!"no cluster.yaml (tkctl delete cluster {d.name})"
      .ok (.row ⟨d.name, "-", "-", "-", "Incomplete", "-", "-", why⟩)
  | some bytes =>
      match loadFile p bytes s!"{m.clustersDir}/{d.name}/cluster.yaml" with
      | .error (.clusterFileError message) => .ok (.line (ljust 12 d.name ++ " " ++ message))
      | .error e => .error e
      | .ok c => .row <$> rowOf m d.name c

/-- The row with its columns as wide as they are. -/
def Row.text (r : Row) (width : ℕ) : String :=
  ljust 12 r.name ++ " " ++ ljust 7 r.nodes ++ " " ++ ljust 8 r.kubernetes ++ " " ++
    ljust 9 r.datapath ++ " " ++ ljust 9 r.state ++ " " ++ ljust 6 r.hosts ++ " " ++
    ljust width r.mesh ++ " " ++ r.subnet

def ListEntry.text (width : ℕ) : ListEntry → String
  | .row r => r.text width
  | .line text => text

def ListEntry.meshWidth : ListEntry → ℕ
  | .row r => r.mesh.length
  | .line _ => 0

/-- `list_clusters`, for the directories in their order: what it says. -/
def listClusters (dirs : List Dir) : Except Escaped (List String) :=
  if dirs = [] then .ok ["no clusters"]
  else do
    let entries ← dirs.mapM (entryOf p m)
    let width := (entries.map ListEntry.meshWidth).foldl max 4
    let header : Row := ⟨"NAME", "NODES", "K8S", "DATAPATH", "STATE", "HOSTS", "MESH", "SUBNET"⟩
    return header.text width :: entries.map (ListEntry.text width)

end Lists

/-! ### What there is to report -/

section Specification

variable (p : Parsers) (m : Machines)

/-- The file is a YAML text, of this document. -/
def Parses (bytes : ByteArray) (doc : Yaml) : Prop :=
  ∃ text, readText bytes = .ok text ∧ p.safeLoad text = .ok doc

/-- The document has this subnet index. -/
def HasIndex (doc : Yaml) (i : ℤ) : Prop :=
  ∃ spec, specFields doc = some spec ∧ indexOf spec = some i

/-- The document has this Kubernetes version. -/
def HasVersion (doc : Yaml) (version : String) : Prop :=
  ∃ spec k8s, specFields doc = some spec ∧ kubernetesOf spec = some k8s ∧ p.str k8s = some version

/-- The indices are those of the files that parse. -/
def ReportsIndices (dirs : List Dir) (out : List ℤ) : Prop :=
  ∀ i, i ∈ out ↔ ∃ d ∈ dirs, ∃ bytes doc, d.file = some bytes ∧ Parses p bytes doc ∧ HasIndex doc i

/-- The names are those of the directories whose files parse and have this version. -/
def ReportsUsing (dirs : List Dir) (k8s : String) (out : List String) : Prop :=
  ∀ name, name ∈ out ↔ ∃ d ∈ dirs, d.name = name ∧ ∃ bytes doc,
    d.file = some bytes ∧ Parses p bytes doc ∧ HasVersion p doc k8s

/-- A line or a row for each directory, behind its name. -/
def ReportsAll (dirs : List Dir) (said : List String) : Prop :=
  if dirs = [] then said = ["no clusters"]
  else ∃ header rows, said = header :: rows ∧
    List.Forall₂ (fun d line => ∃ rest, line = ljust 12 d.name ++ " " ++ rest) dirs rows

/-- **One file never blocks the others**: the directories here and those of another host, and the
version of a store. -/
structure Isolated (dirs remote : List Dir) (k8s : String) : Prop where
  indices : ∃ out, usedIndices p dirs = .ok out ∧ ReportsIndices p dirs out
  indicesOn : ∃ out, usedIndicesOn p remote = .ok out ∧ ReportsIndices p remote out
  versions : ∃ out, clustersUsing p dirs k8s = .ok out ∧ ReportsUsing p dirs k8s out
  listed : ∃ said, listClusters p m dirs = .ok said ∧ ReportsAll dirs said

/-- The file is UTF-8, PyYAML gives a document or a `YAMLError`, and its version can be shown. -/
def Peekable (bytes : ByteArray) : Prop :=
  ∃ text, readText bytes = .ok text ∧
    match p.safeLoad text with
    | .error (.yamlError _) => True
    | .error (.valueError _) => False
    | .ok doc => ∀ k8s, (specFields doc).bind kubernetesOf = some k8s → (p.str k8s).isSome = true

/-- The hosts of a cluster that this machine manages can be spoken to. -/
def TargetsRead (c : Cluster) : Prop :=
  c.multiHost = true → managedFrom m c = none →
    ∀ h ∈ c.spec.hosts.getD [], ∀ ssh, h.ssh = some ssh → (parseSsh ssh).isSome = true

/-- The file is UTF-8, `_Loader` gives a document or a `YAMLError`, what does not fit can be shown,
and the ssh targets of what fits can be read. -/
def Loadable (bytes : ByteArray) : Prop :=
  ∃ text, readText bytes = .ok text ∧
    match p.load text with
    | .error (.refused (.yamlError _)) => True
    | .error _ => False
    | .ok raw =>
        match Cluster.load p.lib raw with
        | .error e => printable p e = true
        | .ok c => TargetsRead m c

end Specification

/-! ### The peeking readers -/

section Peek

variable {p : Parsers} {m : Machines} {bytes : ByteArray}

lemma peek_of_text {text : String} (h : readText bytes = .ok text) :
    peek p bytes = peekText p text := by
  rw [peek, h]
  rfl

/-- A file is peeked at without an error exactly when it is peekable. -/
lemma peek_eq_ok_iff : (∃ r, peek p bytes = .ok r) ↔ Peekable p bytes := by
  cases hread : readText bytes with
  | error e => simp [peek, Peekable, hread]
  | ok text =>
      rw [peek_of_text hread]
      simp only [Peekable, hread, Except.ok.injEq, exists_eq_left']
      unfold peekText
      cases hload : p.safeLoad text with
      | error r => cases r <;> simp
      | ok doc =>
          cases hspec : specFields doc with
          | none => simp [hspec]
          | some spec =>
              cases hk8s : kubernetesOf spec with
              | none => simp [hspec, hk8s]
              | some k8s => cases hstr : p.str k8s <;> simp [hspec, hk8s, hstr]

/-- What is peeked at is what the document has. -/
lemma peek_reports {r : Option ℤ × Option String} (h : peek p bytes = .ok r) :
    (∀ i, r.1 = some i ↔ ∃ doc, Parses p bytes doc ∧ HasIndex doc i) ∧
      ∀ v, r.2 = some v ↔ ∃ doc, Parses p bytes doc ∧ HasVersion p doc v := by
  cases hread : readText bytes with
  | error e => simp [peek, hread] at h
  | ok text =>
      have hparses : ∀ doc, Parses p bytes doc ↔ p.safeLoad text = .ok doc := by
        simp [Parses, hread]
      simp only [hparses]
      rw [peek_of_text hread] at h
      unfold peekText at h
      cases hload : p.safeLoad text with
      | error refusal =>
          cases refusal with
          | yamlError e =>
              simp only [hload, Except.ok.injEq] at h
              simp [← h]
          | valueError e => simp [hload] at h
      | ok doc =>
          simp only [hload] at h
          cases hspec : specFields doc with
          | none =>
              simp only [hspec, Except.ok.injEq] at h
              simp [← h, HasIndex, HasVersion, hspec]
          | some spec =>
              simp only [hspec] at h
              cases hk8s : kubernetesOf spec with
              | none =>
                  simp only [hk8s, Except.ok.injEq] at h
                  simp [← h, HasIndex, HasVersion, hspec, hk8s]
              | some k8s =>
                  cases hstr : p.str k8s with
                  | none => simp [hk8s, hstr] at h
                  | some version =>
                      simp only [hk8s, hstr, Except.ok.injEq] at h
                      simp [← h, HasIndex, HasVersion, hspec, hk8s, hstr]

/-- What `used_indices_on` makes of a directory. -/
def peekDir (p : Parsers) (d : Dir) : Except Escaped (Option ℤ × Option String) :=
  match d.file with
  | some bytes => peek p bytes
  | none => .ok (none, none)

lemma peekDir_eq_ok_iff {d : Dir} :
    (∃ r, peekDir p d = .ok r) ↔ ∀ bytes, d.file = some bytes → Peekable p bytes := by
  cases hfile : d.file with
  | none => simp [peekDir, hfile]
  | some bytes => simp only [peekDir, hfile, Option.some.injEq, forall_eq', peek_eq_ok_iff]

/-- A list is read through exactly when each of its entries is. -/
lemma mapM_isOk_iff {α β ε : Type} {f : α → Except ε β} {l : List α} :
    (∃ out, l.mapM f = .ok out) ↔ ∀ a ∈ l, ∃ b, f a = .ok b := by
  induction l with
  | nil => simp [pure, Except.pure]
  | cons a l ih =>
      rw [List.forall_mem_cons, ← ih]
      simp only [List.mapM_cons, Checked.bind_eq_ok, Checked.pure_eq_ok]
      constructor
      · rintro ⟨_, b, hb, bs, hbs, -⟩
        exact ⟨⟨b, hb⟩, bs, hbs⟩
      · rintro ⟨⟨b, hb⟩, bs, hbs⟩
        exact ⟨_, b, hb, bs, hbs, rfl⟩

/-- What is kept of the entries of a list. -/
lemma mem_filterMap_of_forall₂ {α β γ : Type} {R : α → β → Prop} {f : β → Option γ} {l : List α}
    {l' : List β} (h : List.Forall₂ R l l') {g : α → γ → Prop}
    (hg : ∀ a b, R a b → ∀ c, f b = some c ↔ g a c) (c : γ) :
    c ∈ l'.filterMap f ↔ ∃ a ∈ l, g a c := by
  induction h with
  | nil => simp
  | @cons a b l l' hab _ ih =>
      rw [List.exists_mem_cons_iff, ← ih, ← hg a b hab c]
      cases hb : f b with
      | none => simp [List.filterMap_cons_none hb]
      | some c' => simp [List.filterMap_cons_some hb, eq_comm]

/-- The files that can be peeked at. -/
def AllPeekable (p : Parsers) (dirs : List Dir) : Prop :=
  ∀ d ∈ dirs, ∀ bytes, d.file = some bytes → Peekable p bytes

lemma usedIndices_eq_ok {dirs : List Dir} {out : List ℤ} : usedIndices p dirs = .ok out ↔
    ∃ found, (dirs.filterMap (·.file)).mapM (peek p) = .ok found ∧
      found.filterMap Prod.fst = out := by
  simp [usedIndices]

/-- `used_indices` reports the files that parse, whenever it returns. -/
lemma reports_usedIndices {dirs : List Dir} {out : List ℤ} (h : usedIndices p dirs = .ok out) :
    ReportsIndices p dirs out := by
  obtain ⟨found, hfound, rfl⟩ := usedIndices_eq_ok.mp h
  intro i
  rw [mem_filterMap_of_forall₂ (Checked.mapM_eq_ok.mp hfound)
    (fun _ _ hpeek => (peek_reports hpeek).1) i]
  simp only [List.mem_filterMap]
  constructor
  · rintro ⟨bytes, ⟨d, hd, hfile⟩, doc, hdoc⟩
    exact ⟨d, hd, bytes, doc, hfile, hdoc⟩
  · rintro ⟨d, hd, bytes, doc, hfile, hdoc⟩
    exact ⟨bytes, ⟨d, hd, hfile⟩, doc, hdoc⟩

/-- `used_indices` returns exactly when every file can be peeked at. -/
lemma usedIndices_returns_iff {dirs : List Dir} :
    (∃ out, usedIndices p dirs = .ok out) ↔ AllPeekable p dirs := by
  have hmapM : (∃ out, usedIndices p dirs = .ok out) ↔
      ∃ found, (dirs.filterMap (·.file)).mapM (peek p) = .ok found := by
    simp only [usedIndices_eq_ok]
    constructor
    · rintro ⟨-, found, h, -⟩
      exact ⟨found, h⟩
    · rintro ⟨found, h⟩
      exact ⟨_, found, h, rfl⟩
  rw [hmapM, mapM_isOk_iff]
  simp only [peek_eq_ok_iff, List.mem_filterMap]
  exact ⟨fun h d hd bytes hfile => h bytes ⟨d, hd, hfile⟩,
    fun h bytes ⟨d, hd, hfile⟩ => h d hd bytes hfile⟩

lemma usedIndicesOn_eq_ok {dirs : List Dir} {out : List ℤ} : usedIndicesOn p dirs = .ok out ↔
    ∃ found, dirs.mapM (peekDir p) = .ok found ∧ found.filterMap Prod.fst = out := by
  simp only [usedIndicesOn, Checked.bind_eq_ok, Checked.pure_eq_ok]
  rfl

lemma peekDir_reports {d : Dir} {r : Option ℤ × Option String} (h : peekDir p d = .ok r) (i : ℤ) :
    r.1 = some i ↔ ∃ bytes doc, d.file = some bytes ∧ Parses p bytes doc ∧ HasIndex doc i := by
  cases hfile : d.file with
  | none =>
      simp only [peekDir, hfile, Except.ok.injEq] at h
      simp [← h]
  | some bytes =>
      simp only [peekDir, hfile] at h
      simp [(peek_reports h).1 i]

/-- `used_indices_on` reports the files that parse, whenever it returns. -/
lemma reports_usedIndicesOn {dirs : List Dir} {out : List ℤ} (h : usedIndicesOn p dirs = .ok out) :
    ReportsIndices p dirs out := by
  obtain ⟨found, hfound, rfl⟩ := usedIndicesOn_eq_ok.mp h
  intro i
  exact mem_filterMap_of_forall₂ (Checked.mapM_eq_ok.mp hfound) (fun _ _ => peekDir_reports) i

lemma usedIndicesOn_returns_iff {dirs : List Dir} :
    (∃ out, usedIndicesOn p dirs = .ok out) ↔ AllPeekable p dirs := by
  have hmapM : (∃ out, usedIndicesOn p dirs = .ok out) ↔
      ∃ found, dirs.mapM (peekDir p) = .ok found := by
    simp only [usedIndicesOn_eq_ok]
    constructor
    · rintro ⟨-, found, h, -⟩
      exact ⟨found, h⟩
    · rintro ⟨found, h⟩
      exact ⟨_, found, h, rfl⟩
  rw [hmapM, mapM_isOk_iff]
  simp only [peekDir_eq_ok_iff]
  rfl

/-- What `clusters_using` makes of a directory. -/
def usingDir (p : Parsers) (k8s : String) (d : Dir) : Except Escaped (Option String) :=
  match d.file with
  | some bytes => (fun peeked => if peeked.2 = some k8s then some d.name else none) <$> peek p bytes
  | none => .ok none

lemma usingDir_eq_ok_iff {k8s : String} {d : Dir} :
    (∃ r, usingDir p k8s d = .ok r) ↔ ∀ bytes, d.file = some bytes → Peekable p bytes := by
  cases hfile : d.file with
  | none => simp [usingDir, hfile]
  | some bytes =>
      simp only [usingDir, hfile, Option.some.injEq, forall_eq', ← peek_eq_ok_iff,
        Checked.map_eq_ok]
      constructor
      · rintro ⟨-, r, hr, -⟩
        exact ⟨r, hr⟩
      · rintro ⟨r, hr⟩
        exact ⟨_, r, hr, rfl⟩

lemma usingDir_reports {k8s : String} {d : Dir} {r : Option String}
    (h : usingDir p k8s d = .ok r) (name : String) : r = some name ↔
      d.name = name ∧ ∃ bytes doc, d.file = some bytes ∧ Parses p bytes doc ∧
        HasVersion p doc k8s := by
  cases hfile : d.file with
  | none =>
      simp only [usingDir, hfile, Except.ok.injEq] at h
      simp [← h]
  | some bytes =>
      simp only [usingDir, hfile, Checked.map_eq_ok] at h
      obtain ⟨peeked, hpeeked, rfl⟩ := h
      have hversion := (peek_reports hpeeked).2 k8s
      by_cases hk8s : peeked.2 = some k8s
      · simpa [hk8s] using fun _ => hversion.mp hk8s
      · rw [if_neg hk8s]
        simpa using fun _ doc hdoc hhas => hk8s (hversion.mpr ⟨doc, hdoc, hhas⟩)

lemma clustersUsing_eq_ok {dirs : List Dir} {k8s : String} {out : List String} :
    clustersUsing p dirs k8s = .ok out ↔ ∃ found, dirs.mapM (usingDir p k8s) = .ok found ∧
      (found.reduceOption.mergeSort fun a b => decide (a ≤ b)) = out := by
  simp only [clustersUsing, Checked.bind_eq_ok, Checked.pure_eq_ok]
  rfl

/-- `clusters_using` reports the files that parse, whenever it returns. -/
lemma reports_clustersUsing {dirs : List Dir} {k8s : String} {out : List String}
    (h : clustersUsing p dirs k8s = .ok out) : ReportsUsing p dirs k8s out := by
  obtain ⟨found, hfound, rfl⟩ := clustersUsing_eq_ok.mp h
  intro name
  rw [List.mem_mergeSort]
  exact mem_filterMap_of_forall₂ (Checked.mapM_eq_ok.mp hfound)
    (fun _ _ hd => usingDir_reports hd) name

lemma clustersUsing_returns_iff {dirs : List Dir} {k8s : String} :
    (∃ out, clustersUsing p dirs k8s = .ok out) ↔ AllPeekable p dirs := by
  have hmapM : (∃ out, clustersUsing p dirs k8s = .ok out) ↔
      ∃ found, dirs.mapM (usingDir p k8s) = .ok found := by
    simp only [clustersUsing_eq_ok]
    constructor
    · rintro ⟨-, found, h, -⟩
      exact ⟨found, h⟩
    · rintro ⟨found, h⟩
      exact ⟨_, found, h, rfl⟩
  rw [hmapM, mapM_isOk_iff]
  simp only [usingDir_eq_ok_iff]
  rfl

end Peek

/-! ### The list -/

section Listed

variable {p : Parsers} {m : Machines}

lemma buildHosts_returns_iff {c : Cluster} : (∃ hosts, buildHosts m c = .ok hosts) ↔
    ∀ h ∈ c.spec.hosts.getD [], ∀ ssh, h.ssh = some ssh → (parseSsh ssh).isSome = true := by
  rw [buildHosts, mapM_isOk_iff]
  refine forall₂_congr fun h _ => ?_
  cases hssh : h.ssh with
  | none => simp [buildHost]
  | some ssh => cases hparse : parseSsh ssh <;> simp [buildHost, hparse]

/-- A cluster gets a row exactly when the hosts it has to ask can be spoken to. -/
lemma rowOf_returns_iff {name : String} {c : Cluster} :
    (∃ r, rowOf m name c = .ok r) ↔ TargetsRead m c := by
  unfold rowOf TargetsRead
  by_cases hmulti : c.multiHost = true
  · cases hfrom : managedFrom m c with
    | some op => simp [hmulti]
    | none =>
        simp only [hmulti, if_true, Checked.map_eq_ok, true_implies]
        rw [← buildHosts_returns_iff]
        constructor
        · rintro ⟨-, hosts, h, -⟩
          exact ⟨hosts, h⟩
        · rintro ⟨hosts, h⟩
          exact ⟨_, hosts, h, rfl⟩
  · simp [hmulti]

lemma rowOf_name {name : String} {c : Cluster} {r : Row} (h : rowOf m name c = .ok r) :
    r.name = name := by
  unfold rowOf at h
  split at h
  · exact Except.ok.inj h ▸ rfl
  · obtain ⟨hosts, -, rfl⟩ := Checked.map_eq_ok.mp h
    rfl

/-- A directory gets its entry exactly when its file can be loaded. -/
lemma entryOf_returns_iff {d : Dir} : (∃ e, entryOf p m d = .ok e) ↔
    ∀ bytes, d.file = some bytes → Loadable p m bytes := by
  cases hfile : d.file with
  | none => simp [entryOf, hfile]
  | some bytes =>
      simp only [entryOf, hfile, Option.some.injEq, forall_eq', Loadable, loadFile]
      cases hread : readText bytes with
      | error e =>
          have he : e = .unicodeDecodeError := by
            unfold readText at hread
            split at hread
            · exact absurd hread (by simp)
            · exact (Except.error.inj hread).symm
          simp [he]
      | ok text =>
          simp only [Checked.ok_bind, Except.ok.injEq, exists_eq_left']
          cases hload : p.load text with
          | error e =>
              cases e with
              | refused r => cases r <;> simp
              | unhashableKey message => simp
          | ok raw =>
              cases hcluster : Cluster.load p.lib raw with
              | error e => by_cases hp : printable p e = true <;> simp [hcluster, hp]
              | ok c =>
                  have rowOf_iff : (∃ r, rowOf m d.name c = .ok r) ↔ TargetsRead m c :=
                    rowOf_returns_iff
                  simp only [hcluster, Checked.map_eq_ok, ← rowOf_iff]
                  constructor
                  · rintro ⟨-, r, h, -⟩
                    exact ⟨r, h⟩
                  · rintro ⟨r, h⟩
                    exact ⟨_, r, h, rfl⟩

/-- An entry stands behind the name of its directory. -/
lemma entryOf_text {d : Dir} {e : ListEntry} (h : entryOf p m d = .ok e) (width : ℕ) :
    ∃ rest, e.text width = ljust 12 d.name ++ " " ++ rest := by
  have hrow : ∀ r : Row, r.name = d.name →
      ∃ rest, (ListEntry.row r).text width = ljust 12 d.name ++ " " ++ rest := by
    intro r hr
    simp only [ListEntry.text, Row.text, hr, String.append_assoc]
    exact ⟨_, rfl⟩
  unfold entryOf at h
  split at h
  · exact Except.ok.inj h ▸ hrow _ rfl
  · split at h
    · exact Except.ok.inj h ▸ ⟨_, rfl⟩
    · exact absurd h (by simp)
    · obtain ⟨r, hr, rfl⟩ := Checked.map_eq_ok.mp h
      exact hrow r (rowOf_name hr)

/-- `list_clusters` says something for every directory, whenever it returns. -/
lemma reports_listClusters {dirs : List Dir} {said : List String}
    (h : listClusters p m dirs = .ok said) : ReportsAll dirs said := by
  unfold listClusters at h
  unfold ReportsAll
  split_ifs at h ⊢ with hempty
  · exact (Except.ok.inj h).symm
  · simp only [Checked.bind_eq_ok, Checked.pure_eq_ok] at h
    obtain ⟨entries, hentries, rfl⟩ := h
    refine ⟨_, _, rfl, List.forall₂_map_right_iff.mpr ?_⟩
    exact (Checked.mapM_eq_ok.mp hentries).imp fun d e he => entryOf_text he _

lemma listClusters_returns_iff {dirs : List Dir} : (∃ said, listClusters p m dirs = .ok said) ↔
    ∀ d ∈ dirs, ∀ bytes, d.file = some bytes → Loadable p m bytes := by
  unfold listClusters
  split_ifs with hempty
  · simp [hempty]
  · simp only [Checked.bind_eq_ok, Checked.pure_eq_ok, ← entryOf_returns_iff, ← mapM_isOk_iff]
    constructor
    · rintro ⟨-, entries, h, -⟩
      exact ⟨entries, h⟩
    · rintro ⟨entries, h⟩
      exact ⟨_, entries, h, rfl⟩

end Listed

/-! ### A file in another encoding -/

/-- `# é` in Latin-1. -/
def latin1 : ByteArray := ⟨#[0x23, 0x20, 0xe9, 0x0a]⟩

/-- A PyYAML that takes no text for a document; it is not asked about `latin1`. -/
def refusing : Parsers where
  lib := plainValues
  safeLoad _ := .error (.yamlError "expected a document")
  load _ := .error (.refused (.yamlError "expected a document"))
  str _ := some ""

/-- A machine on which nothing runs. -/
def idleMachine : Machines where
  hostname := "operator"
  controlDir := "/run/user/1000/tk8s"
  clustersDir := "/srv/tk8s/clusters"
  active _ := false
  remoteActive _ _ := none

end Tk8s
