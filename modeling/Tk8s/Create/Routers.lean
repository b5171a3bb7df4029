import Tk8s.Host.Ssh
import Tk8s.Lib.Yaml
import Tk8s.Model

/-!
`create/router.py` and `create/router_state.py`: what the routers say about a control plane.

* `Poll`: one look at the routers, with the truth about their containers and what comes back from
  podman and from their op mode.
* `backends`, `vtysh`, `nexthopIps`: the answers parsed, where no answer is an empty one.
* `anyRoutesTo`: the running routers that still send connections to a control plane.
* `LetGo`, `Heard`: every running router let go, and every running router answered;
  `letGo_iff_heard`: **a poll that names no router is one of the first kind exactly when it is one of
  the second**.
-/

namespace Tk8s

open Yaml

/-! ### The queries -/

/-- `json.loads` and `str`, as far as `router.py` uses them. -/
structure Json where
  loads : String → Option Yaml
  str : Yaml → String

/-- One look at the routers. -/
structure Poll where
  /-- The container of a router runs. -/
  up : String → Bool
  /-- What `podman container inspect` comes back with. -/
  inspect : String → Except Raised Result
  /-- What the op-mode query comes back with. -/
  query : String → Except Raised Result
  /-- podman knows what runs, when it answers. -/
  honest : ∀ r res, inspect r = .ok res → res.returncode = 0 →
    (Text.strip res.stdout = "true" ↔ up r = true)

/-- `running`. -/
def Poll.running (p : Poll) (r : Router) : Except Raised Bool := do
  let res ← p.inspect r.name
  return res.returncode = 0 && decide (Text.strip res.stdout = "true")

/-- `backends`: server and status of every row of the api backend. -/
def backends (res : Result) : List (String × String) :=
  if res.returncode ≠ 0 then []
  else (Text.lines res.stdout).filterMap fun line =>
    match Text.words line with
    | name :: server :: status :: _ =>
        if name = "api" ∧ server ∉ ["FRONTEND", "BACKEND"] then some (server, status) else none
    | _ => none

variable (js : Json)

/-- `_vtysh`: none when the router or FRR does not answer. -/
def vtysh (res : Result) : Option Yaml :=
  if res.returncode ≠ 0 ∨ Text.strip res.stdout = "" then none else js.loads res.stdout

/-- `[e for e in entries if isinstance(e, dict)]`; the entries of a text or a mapping are texts. -/
def dictsIn : Yaml → Except Raised (List (List (Yaml × Yaml)))
  | .list items => .ok <| items.filterMap fun
      | .map fields => some fields
      | _ => none
  | .str _ => .ok []
  | .map _ => .ok []
  | _ => .error .typeError

/-- `d.get(key)` as a condition. -/
def isSet (key : String) (fields : List (Yaml × Yaml)) : Bool :=
  ((lookup key fields).getD .null).truthy

/-- `_nexthop_ips`: the active next hops of the selected route to the VIP. -/
def nexthopIps (c : Cluster) (res : Result) : Except Raised (List String) := do
  let vip := (c.spec.network.vip.map (·.text)).getD "None"
  let entries := match vtysh js res with
    | some (.map data) => (lookup s!"{vip}/32" data).getD (.list [])
    | _ => .list []
  let dicts ← dictsIn entries
  match (dicts.find? (isSet "selected")).or dicts.head? with
  | none => return []
  | some chosen =>
      match (lookup "nexthops" chosen).getD (.list []) with
      | .list hops => return hops.filterMap fun
          | .map hop =>
              if isSet "active" hop then some (js.str ((lookup "ip" hop).getD (.str ""))) else none
          | _ => none
      | _ => return []

/-- `routes_to`, on the answer: an UP backend in proxy mode, an active next hop in bgp mode. -/
def sendsTo (c : Cluster) (n : Node) (res : Result) : Except Raised Bool :=
  match c.spec.network.ha with
  | .proxy => .ok <| (backends res).any fun b => b.1 = n.name.text && "UP".toList.isPrefixOf b.2.toList
  | .bgp => do
      let hops ← nexthopIps js c res
      return decide (n.ip.text ∈ hops)

def routesTo (c : Cluster) (n : Node) (p : Poll) (r : Router) : Except Raised Bool := do
  let res ← p.query r.name
  sendsTo js c n res

/-- `any_routes_to`. -/
def anyRoutesTo (c : Cluster) (n : Node) (p : Poll) : Except Raised (List String) := do
  let routers ← c.routers
  let up ← Checked.keep p.running routers
  let sending ← Checked.keep (routesTo js c n p) up
  return sending.map (·.name)

/-! ### What a poll shows -/

/-- The router, or FRR on it, answered the query. -/
def Answered (c : Cluster) (res : Result) : Prop :=
  match c.spec.network.ha with
  | .proxy => res.returncode = 0
  | .bgp => (vtysh js res).isSome = true

/-- Every router whose container runs was asked and answered. -/
def Heard (c : Cluster) (p : Poll) : Prop :=
  ∀ routers, c.routers = .ok routers → ∀ r ∈ routers, p.up r.name = true →
    p.running r = .ok true ∧ ∃ res, p.query r.name = .ok res ∧ Answered js c res

/-- Every router whose container runs was asked and answered, and does not send connections to the
control plane. -/
def LetGo (c : Cluster) (n : Node) (p : Poll) : Prop :=
  ∃ routers, c.routers = .ok routers ∧ ∀ r ∈ routers, p.up r.name = true →
    p.running r = .ok true ∧
      ∃ res, p.query r.name = .ok res ∧ Answered js c res ∧ sendsTo js c n res = .ok false

variable {js} {c : Cluster} {n : Node} {p : Poll}

lemma Poll.up_of_running {r : Router} (h : p.running r = .ok true) : p.up r.name = true := by
  simp only [Poll.running, Checked.bind_eq_ok, Checked.pure_eq_ok, Bool.and_eq_true,
    decide_eq_true_eq] at h
  obtain ⟨res, hres, hcode, hout⟩ := h
  exact (p.honest _ _ hres hcode).mp hout

/-- A poll that names no router: each that was found running says that it does not send connections
to the control plane, or says nothing. -/
lemma anyRoutesTo_eq_nil (h : anyRoutesTo js c n p = .ok []) : ∃ routers, c.routers = .ok routers ∧
    ∀ r ∈ routers, p.running r = .ok true → routesTo js c n p r = .ok false := by
  simp only [anyRoutesTo, Checked.bind_eq_ok, Checked.pure_eq_ok, List.map_eq_nil_iff] at h
  obtain ⟨routers, hrouters, up, hup, sending, hsending, rfl⟩ := h
  refine ⟨routers, hrouters, fun r hr hrunning => ?_⟩
  have hmem : r ∈ up := (Checked.mem_keep hup).mpr ⟨hr, hrunning⟩
  obtain ⟨b, hb⟩ := Checked.exists_of_keep hsending r hmem
  cases b with
  | false => exact hb
  | true => exact absurd ((Checked.mem_keep hsending).mpr ⟨hmem, hb⟩) (by simp)

/-- **A poll that names no router shows that every running one let go exactly when every running one
answered.** -/
theorem letGo_iff_heard (h : anyRoutesTo js c n p = .ok []) : LetGo js c n p ↔ Heard js c p := by
  obtain ⟨routers, hrouters, hsilent⟩ := anyRoutesTo_eq_nil h
  constructor
  · rintro ⟨routers', hrouters', hall⟩ routers'' hrouters'' r hr hup
    obtain rfl := Except.ok.inj (hrouters'.symm.trans hrouters'')
    obtain ⟨hrunning, res, hres, hanswered, -⟩ := hall r hr hup
    exact ⟨hrunning, res, hres, hanswered⟩
  · refine fun hheard => ⟨routers, hrouters, fun r hr hup => ?_⟩
    obtain ⟨hrunning, res, hres, hanswered⟩ := hheard routers hrouters r hr hup
    refine ⟨hrunning, res, hres, hanswered, ?_⟩
    have hroutes := hsilent r hr hrunning
    rwa [routesTo, hres, Checked.ok_bind] at hroutes

/-- A poll that names a router is none in which every running one let go. -/
lemma not_letGo_of_named {l : List String} (h : anyRoutesTo js c n p = .ok l) (hl : l ≠ []) :
    ¬ LetGo js c n p := by
  rintro ⟨routers, hrouters, hall⟩
  simp only [anyRoutesTo, Checked.bind_eq_ok, Checked.pure_eq_ok, hrouters] at h
  obtain ⟨_, hrouters', up, hup, sending, hsending, rfl⟩ := h
  obtain rfl := Except.ok.inj hrouters'
  obtain ⟨r, hr⟩ := List.exists_mem_of_ne_nil sending (by simpa using hl)
  obtain ⟨hmem, hsends⟩ := (Checked.mem_keep hsending).mp hr
  obtain ⟨hrouter, hrunning⟩ := (Checked.mem_keep hup).mp hmem
  obtain ⟨-, res, hres, -, hnot⟩ := hall r hrouter (Poll.up_of_running hrunning)
  rw [routesTo, hres, Checked.ok_bind, hnot] at hsends
  simp at hsends

end Tk8s
