import Tk8s.Lib.Yaml
import Tk8s.Model

/-!
`kubeconfig.py` on the documents themselves, whatever a file holds.

* `KubeDoc.load`: a text as a kubeconfig, its three sections lists.
* `rename`, `serverOf`, `merge`, `has`, `remove`: the operations, with every error Python raises on a
  document of another shape.
-/

namespace Tk8s

namespace KubeDoc

open Yaml

/-- PyYAML and `str`, as far as `kubeconfig.py` uses them. -/
structure Pyyaml where
  /-- `yaml.safe_load`, or what the `YAMLError` says. -/
  load : String → Except String Yaml
  /-- `yaml.safe_dump`, the keys as they come. -/
  dump : Yaml → String
  str : Yaml → String

/-- A document that was loaded. -/
abbrev Doc := List (Yaml × Yaml)

/-! ### Sections -/

/-- `SECTIONS`. -/
inductive Section where
  | clusters
  | users
  | contexts
deriving DecidableEq

def Section.text : Section → String
  | clusters => "clusters"
  | users => "users"
  | contexts => "contexts"

def sections : List Section := [.clusters, .users, .contexts]

/-- `names(name)[s]`. -/
def Section.want (s : Section) (name : String) : String :=
  match s with
  | clusters => name
  | users => name ++ "-admin"
  | contexts => name

lemma Section.text_inj {s t : Section} : s.text = t.text ↔ s = t := by
  cases s <;> cases t <;> decide

lemma Section.text_ne_current (s : Section) : s.text ≠ "current-context" := by
  cases s <;> decide

/-- `doc[s]`. -/
def entries (s : Section) (doc : Doc) : List Yaml :=
  match lookup s.text doc with
  | some (.list l) => l
  | _ => []

/-- `doc[s] = l`. -/
def setEntries (s : Section) (l : List Yaml) (doc : Doc) : Doc := assign s.text (.list l) doc

/-- `doc["current-context"] = name`. -/
def setCurrent (name : String) (doc : Doc) : Doc := assign "current-context" (.str name) doc

@[simp] lemma entries_setEntries_self (s : Section) (l : List Yaml) (doc : Doc) :
    entries s (setEntries s l doc) = l := by
  simp [entries, setEntries]

@[simp] lemma entries_setEntries_of_ne {s t : Section} (h : s ≠ t) (l : List Yaml) (doc : Doc) :
    entries t (setEntries s l doc) = entries t doc := by
  rw [entries, setEntries, lookup_assign_of_ne fun htext => h (Section.text_inj.mp htext)]
  rfl

@[simp] lemma entries_setCurrent (s : Section) (name : String) (doc : Doc) :
    entries s (setCurrent name doc) = entries s doc := by
  rw [entries, setCurrent, lookup_assign_of_ne (s.text_ne_current ·.symm)]
  rfl

/-! ### `load` -/

/-- `doc.get(s) or []`, a list. -/
def sectionOf (s : Section) (doc : Doc) : Except Raised (List Yaml) :=
  match lookup s.text doc with
  | none => .ok []
  | some v =>
      if v.truthy then
        match v with
        | .list l => .ok l
        | _ => .error (.valueError s!"not a kubeconfig ({s.text} is not a list)")
      else .ok []

/-- One round of the loop: null, as kubectl leaves it, becomes an empty list. -/
def loadSection (doc : Doc) (s : Section) : Except Raised Doc := do
  let l ← sectionOf s doc
  return setEntries s l doc

/-- A parsed text as a kubeconfig. -/
def ofYaml : Yaml → Except Raised Doc
  | .map doc => do
      match lookup "kind" doc with
      | some (.str kind) =>
          Checked.refuseIf (kind ≠ "Config") (.valueError "not a kubeconfig (kind: Config)")
      | _ => .error (.valueError "not a kubeconfig (kind: Config)")
      sections.foldlM loadSection doc
  | _ => .error (.valueError "not a kubeconfig (kind: Config)")

variable (y : Pyyaml)

def load (text : String) : Except Raised Doc :=
  match y.load text with
  | .error m => .error (.yamlError m)
  | .ok t => ofYaml t

/-- `load("kind: Config\n")`. -/
def empty : Doc :=
  setEntries .contexts [] (setEntries .users [] (setEntries .clusters []
    [(.str "kind", .str "Config")]))

def dump (doc : Doc) : String := y.dump (.map doc)

/-! ### Entries -/

/-- `e.get(key)`. -/
def get (key : String) : Yaml → Except Raised (Option Yaml)
  | .map fields => .ok (lookup key fields)
  | _ => .error .attributeError

/-- `e[key]`. -/
def getItem (key : String) : Yaml → Except Raised Yaml
  | .map fields => Checked.ofOption (.keyError key) (lookup key fields)
  | _ => .error .typeError

/-- `e[key] = v`. -/
def setItem (key : String) (v : Yaml) : Yaml → Except Raised Yaml
  | .map fields => .ok (.map (assign key v fields))
  | _ => .error .typeError

/-- `e.get("name") == want`. -/
def isNamed (want : String) (e : Yaml) : Except Raised Bool := do
  let name ← get "name" e
  return match name with
    | some (.str s) => s = want
    | _ => false

/-- `any(e.get("name") == want for e in l)`. -/
def anyNamed (want : String) : List Yaml → Except Raised Bool
  | [] => .ok false
  | e :: rest => do
      if ← isNamed want e then return true
      anyNamed want rest

/-- `[e for e in l if (e.get("name") == want) is keep]`. -/
def select (keep : Bool) (want : String) : List Yaml → Except Raised (List Yaml)
  | [] => .ok []
  | e :: rest => do
      let named ← isNamed want e
      let kept ← select keep want rest
      return if named = keep then e :: kept else kept

/-- `[i for i, e in enumerate(l) if e.get("name") == want]`, from number `i` on. -/
def slotsFrom (want : String) (i : ℕ) : List Yaml → Except Raised (List ℕ)
  | [] => .ok []
  | e :: rest => do
      let named ← isNamed want e
      let slots ← slotsFrom want (i + 1) rest
      return if named then i :: slots else slots

/-! ### The operations -/

/-- kubeadm's `admin.conf` as the kubeconfig of cluster `name`. -/
def renameDoc (name server : String) (doc : Doc) : Except Raised Doc :=
  match entries .clusters doc, entries .users doc, entries .contexts doc with
  | [c], [u], [_] => do
      let c ← setItem "name" (.str (Section.clusters.want name)) c
      let body ← getItem "cluster" c
      let body ← setItem "server" (.str server) body
      let c ← setItem "cluster" body c
      let u ← setItem "name" (.str (Section.users.want name)) u
      let ctx := record [
        ("context", some (record [("cluster", some (.str (Section.clusters.want name))),
          ("user", some (.str (Section.users.want name)))])),
        ("name", some (.str (Section.contexts.want name)))]
      return setCurrent (Section.contexts.want name) <| setEntries .contexts [ctx] <|
        setEntries .users [u] <| setEntries .clusters [c] doc
  | _, _, _ => .error (.valueError "admin.conf should hold one cluster, one user and one context")

def rename (admin name server : String) : Except Raised String := do
  let doc ← load y admin
  dump y <$> renameDoc name server doc

/-- `_without`. -/
def without (name : String) (doc : Doc) : Except Raised Doc := do
  let doc ← sections.foldlM (fun doc s => do
    let l ← select false (s.want name) (entries s doc)
    return setEntries s l doc) doc
  return match lookup "current-context" doc with
    | some (.str current) =>
        if current = Section.contexts.want name then setCurrent "" doc else doc
    | _ => doc

/-- `str(e.get("cluster", {}).get("server", ""))`. -/
def serverIn (e : Yaml) : Except Raised String := do
  let body ← get "cluster" e
  let server ← get "server" (body.getD (.map []))
  return y.str (server.getD (.str ""))

/-- The loop of `server_of`. -/
def serverFrom (name : String) : List Yaml → Except Raised (Option String)
  | [] => .ok none
  | e :: rest => do
      if ← isNamed name e then return some (← serverIn y e)
      serverFrom name rest

def serverOf (doc : Doc) (name : String) : Except Raised (Option String) :=
  serverFrom y name (entries .clusters doc)

/-- No cluster of ours in the file: a context or user carrying our names is somebody else's. -/
def checkForeign (name : String) (doc : Doc) (s : Section) (label : String) :
    Except Raised Unit := do
  let taken ← anyNamed (s.want name) (entries s doc)
  Checked.refuseIf (taken = true) (.valueError
    s!"already has a {label} named {s.want name} that is not this cluster's; move that entry out of the way")

/-- The entries of one section with the fresh ones in place, or behind. -/
def mergeEntries (want : String) (fresh l : List Yaml) : Except Raised (List Yaml) := do
  match ← slotsFrom want 0 l with
  | [] => return l ++ fresh
  | i :: _ =>
      let l := l.take i ++ fresh ++ l.drop (i + 1)
      let rest ← select false want (l.drop (i + 1))
      return l.take (i + 1) ++ rest

/-- One round of the loop of `merge`. -/
def mergeSection (new : Doc) (name : String) (doc : Doc) (s : Section) : Except Raised Doc := do
  let fresh ← select true (s.want name) (entries s new)
  let l ← mergeEntries (s.want name) fresh (entries s doc)
  return setEntries s l doc

def mergeDoc (doc new : Doc) (name : String) : Except Raised Doc := do
  let mine ← serverOf y new (Section.clusters.want name)
  let theirs ← serverOf y doc (Section.clusters.want name)
  match theirs with
  | some server =>
      Checked.refuseIf (theirs ≠ mine) (.valueError (s!"already has a cluster named {name} at {server} "
        ++ "(not this cluster); move that entry out of the way"))
  | none => do
      checkForeign name doc .contexts "context"
      checkForeign name doc .users "user"
  let doc ← sections.foldlM (mergeSection new name) doc
  return setCurrent (Section.contexts.want name) doc

/-- `load(existing) if existing else load("kind: Config\n")`. -/
def loadExisting (existing : Option String) : Except Raised Doc :=
  match existing with
  | none => .ok empty
  | some text => if text = "" then .ok empty else load y text

def merge (existing : Option String) (cluster name : String) : Except Raised String := do
  let doc ← loadExisting y existing
  let new ← load y cluster
  dump y <$> mergeDoc y doc new name

def has (existing name server : String) : Except Raised Bool := do
  let doc ← load y existing
  let found ← serverOf y doc (Section.clusters.want name)
  return found = some server

/-- None when nothing is left in it. -/
def remove (existing name server : String) : Except Raised (Option String) := do
  if ← has y existing name server then
    let doc ← load y existing
    let doc ← without name doc
    return if sections.all fun s => (entries s doc).isEmpty then none else some (dump y doc)
  else return some existing

end KubeDoc

end Tk8s
