import Mathlib.Data.List.Basic

/-!
`kubeconfig.py`: the user's `~/.kube/config`, with every cluster in it.

* `Kubeconfig`: the three sections and the current context; what an entry holds beside its name is
  kept as a text.
* `Kubeconfig.serverOf`, `has`, `without`, `remove`: how the entries of one cluster leave it.
* `has_without`: **afterwards there is no entry of that cluster**.
-/

namespace Tk8s

/-- A cluster entry: its name, the server it points at, and the rest of it. -/
structure KubeCluster where
  name : String
  server : String
  body : String
deriving DecidableEq

/-- A user or a context. -/
structure KubeEntry where
  name : String
  body : String
deriving DecidableEq

structure Kubeconfig where
  clusters : List KubeCluster
  users : List KubeEntry
  contexts : List KubeEntry
  current : String
deriving DecidableEq

/-- A file that may be missing, or hold something else than a kubeconfig. -/
inductive KubeFile where
  | absent
  | other
  | config (k : Kubeconfig)
deriving DecidableEq

namespace Kubeconfig

/-- `server_of`: the server of the first cluster entry of this name. -/
def serverOf (k : Kubeconfig) (name : String) : Option String :=
  (k.clusters.find? fun e => e.name = name).map (·.server)

/-- `has`: the cluster is in it, and it is this one. -/
def has (k : Kubeconfig) (name server : String) : Bool := k.serverOf name = some server

/-- `_without`. -/
def without (k : Kubeconfig) (name : String) : Kubeconfig where
  clusters := k.clusters.filter fun e => e.name ≠ name
  users := k.users.filter fun e => e.name ≠ name ++ "-admin"
  contexts := k.contexts.filter fun e => e.name ≠ name
  current := if k.current = name then "" else k.current

/-- `any(doc[s] for s in SECTIONS)` is false. -/
def isEmpty (k : Kubeconfig) : Bool := k.clusters.isEmpty && k.users.isEmpty && k.contexts.isEmpty

/-- `remove`: unchanged when it is not this cluster, none when nothing is left. -/
def remove (k : Kubeconfig) (name server : String) : Option Kubeconfig :=
  if k.has name server then
    if (k.without name).isEmpty then none else some (k.without name)
  else some k

variable {k : Kubeconfig} {name server : String}

@[simp] lemma has_without : (k.without name).has name server = false := by
  have hfind : (k.without name).serverOf name = none := by
    rw [serverOf, Option.map_eq_none_iff, List.find?_eq_none]
    intro e he
    simpa using List.of_mem_filter he
  rw [has, hfind]
  simp

/-- Other clusters keep their entry. -/
lemma serverOf_without {other : String} (h : other ≠ name) :
    (k.without name).serverOf other = k.serverOf other := by
  have hboth : (fun e : KubeCluster => decide (decide (e.name ≠ name) = true ∧
      decide (e.name = other) = true)) = fun e => decide (e.name = other) := by
    funext e
    by_cases he : e.name = other
    · simp [he, h]
    · simp [he]
  rw [serverOf, serverOf, without, List.find?_filter, hboth]

end Kubeconfig

/-- The file that is left when a cluster's entries leave it. -/
def KubeFile.drop (file : KubeFile) (name server : String) : KubeFile :=
  match file with
  | .config k =>
      match k.remove name server with
      | some rest => .config rest
      | none => .absent
  | file => file

/-- The cluster's entry is in the file. -/
def KubeFile.has (file : KubeFile) (name server : String) : Bool :=
  match file with
  | .config k => k.has name server
  | _ => false

@[simp] lemma KubeFile.has_drop {file : KubeFile} {name server : String} :
    (file.drop name server).has name server = false := by
  cases file with
  | absent => rfl
  | other => rfl
  | config k =>
      by_cases hk : k.has name server = true
      · by_cases hempty : (k.without name).isEmpty = true
        · simp [KubeFile.drop, Kubeconfig.remove, hk, hempty, KubeFile.has]
        · simp [KubeFile.drop, Kubeconfig.remove, hk, hempty, KubeFile.has]
      · simp [KubeFile.drop, Kubeconfig.remove, hk, KubeFile.has]

end Tk8s
