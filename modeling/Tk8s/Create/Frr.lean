import Tk8s.Create.UnitFiles
import Tk8s.Lib.Reruns
import Tk8s.Phases
import Tk8s.Render

/-!
`create/frr.py`: FRR and the apiserver VIP in the control planes of a bgp cluster.

* `confChunks`, `config`: `frr.conf` of a node, from its template.
* `NodeState`: what tkctl reads and writes in a node, with what FRR has loaded and what is on `lo`.
* `configured`, `configure`, `targets`, `done`, `run`, `phase`: the code.
-/

namespace Tk8s.Frr

open Template

/-! ### The configuration -/

/-- `neighbor_lines`: one neighbor for each router. -/
def neighborLines (routers : List Router) : String :=
  Text.join '\n' <| routers.map fun r => Text.join '\n'
    [s!" neighbor {r.ip.text} remote-as 65000", s!" neighbor {r.ip.text} bfd",
      s!" neighbor {r.ip.text} timers 3 9"]

/-- `neighbor_policy_lines`. -/
def neighborPolicyLines (routers : List Router) : String :=
  Text.join '\n' <| routers.map fun r => s!"  neighbor {r.ip.text} route-map vip-only out"

/-- `bfd_peer_lines`. -/
def bfdPeerLines (routers : List Router) : String :=
  Text.join '\n' <| routers.map fun r => Text.join '\n'
    [s!" peer {r.ip.text}", "  detect-multiplier 3", "  receive-interval 300",
      "  transmit-interval 300", " exit"]

/-- `templates/node/frr.conf`. -/
def confChunks : List Chunk :=
  [.plain "! Generated by tkctl for ", .hole "node", .plain " of cluster ", .hole "cluster",
    .plain ": announce the apiserver VIP ", .hole "vip", .plain " to the router\n",
    .plain "! while it is on lo (tk8s-apiserver-health ", .plain "keeps it there exactly while ",
    .plain "/readyz answers ok).\n", .plain "frr defaults traditional\n", .plain "hostname ",
    .hole "node", .plain "\n!\nrouter bgp 65001\n bgp router-id ", .hole "node_ip", .plain "\n",
    .hole "neighbors", .plain "\n address-family ipv4 unicast\n",
    .plain "  redistribute connected route-map vip-only\n", .hole "neighbor_policies",
    .plain "\n exit-address-family\nexit\n!\n", .plain "ip prefix-list vip seq 10 permit ",
    .hole "vip", .plain "/32\n!\nroute-map vip-only permit 10\n",
    .plain " match ip address prefix-list vip\n", .plain "exit\n!\nbfd\n", .hole "bfd_peers",
    .plain "\nexit\n!\nend\n"]

/-- `str(c.spec.network.vip)`. -/
def vipText (c : Cluster) : String := (c.spec.network.vip.map (·.text)).getD "None"

/-- The variables of the template. -/
def confVars (c : Cluster) (routers : List Router) (n : Node) : List (String × String) :=
  [("cluster", c.name), ("node", n.name.text), ("node_ip", n.ip.text),
    ("neighbors", neighborLines routers), ("neighbor_policies", neighborPolicyLines routers),
    ("bfd_peers", bfdPeerLines routers), ("vip", vipText c)]

/-- `config`. -/
def config (c : Cluster) (routers : List Router) (n : Node) : Except Render.Fault String :=
  Render.template "node/frr.conf" (String.ofList (write confChunks)) (confVars c routers n)

/-- What `config` renders to. -/
@[irreducible] def confText (c : Cluster) (routers : List Router) (n : Node) : String :=
  String.ofList (confChunks.flatMap
    (Chunk.filled fun name => (((confVars c routers n).lookup name).getD "").toList))

/-! ### A control plane -/

/-- What FRR read when it was started. -/
structure Loaded where
  daemons : Option String
  conf : Option String
deriving DecidableEq, Repr

/-- A control plane, as the phase sees it. -/
structure NodeState where
  /-- The container runs: commands can be run in it. -/
  up : Bool
  /-- `/etc/frr/daemons`, `/etc/frr/frr.conf` and `/etc/tk8s/vip`. -/
  daemons : Option String
  conf : Option String
  vip : Option String
  /-- The addresses on `lo`, with their prefix lengths. -/
  loopback : List String
  enabled : Bool
  /-- `frr.service`, when it is active. -/
  frr : Option Loaded
  /-- `tk8s-apiserver-health.timer` is active. -/
  timer : Bool
deriving DecidableEq, Repr

/-- `podman.node_read`. -/
def NodeState.read (s : NodeState) (file : Option String) : Option String :=
  if s.up then file.map HostFs.newlines else none

/-- `s/^bgpd=no/bgpd=yes/; s/^bfdd=no/bfdd=yes/`, on one line. -/
def daemonLine (line : String) : String :=
  match Text.removePrefix? "bgpd=no" line with
  | some rest => "bgpd=yes" ++ rest
  | none =>
      match Text.removePrefix? "bfdd=no" line with
      | some rest => "bfdd=yes" ++ rest
      | none => line

/-- `sed -i` on `/etc/frr/daemons`. -/
def turnOn (text : String) : String := Text.join '\n' ((Text.splitOn '\n' text).map daemonLine)

section Phase

variable (c : Cluster) (routers : List Router)

/-- `configured`. -/
def configured (n : Node) (s : NodeState) : Bool :=
  match s.read s.vip with
  | none => false
  | some vip => HostFs.strip vip = vipText c &&
      (match s.read s.conf with
        | none => false
        | some conf => (config c routers n).toOption = some conf) && s.frr.isSome && s.timer

/-- The `/etc/tk8s/vip` that was there. -/
def previous (s : NodeState) : String := HostFs.strip ((s.read s.vip).getD "")

def setConf (text : String) (s : NodeState) : NodeState := { s with conf := some text }

def setVip (s : NodeState) : NodeState := { s with vip := some (vipText c ++ "\n") }

/-- `ip addr del`, whatever comes of it. -/
def dropAddress (old : String) (s : NodeState) : NodeState :=
  { s with loopback := s.loopback.filter (· ≠ old ++ "/32") }

/-- A unit that is restarted is stopped first. -/
def stopUnits (s : NodeState) : NodeState := { s with frr := none, timer := false }

def startFrr (s : NodeState) : NodeState := { s with frr := some ⟨s.daemons, s.conf⟩ }

/-- `systemctl restart`. -/
def restart : Script NodeState :=
  .seq (.command stopUnits) <| .seq (.command startFrr) <|
    .command fun s => { s with timer := true }

/-- `configure`; a command that fails ends it, as one that is never reached. -/
def configure (n : Node) : Script NodeState :=
  .ask fun s =>
    if s.up && s.daemons.isSome then
      let old := previous s
      .seq (.command fun s => { s with daemons := s.daemons.map turnOn }) <|
        match config c routers n with
        | .error _ => .fail
        | .ok text =>
            .seq (.command (setConf text)) <| .seq (.command (setVip c)) <|
              .seq (.onlyIf (fun _ => old ≠ "" && old ≠ vipText c) (.command (dropAddress old))) <|
                .seq (.command fun s => { s with enabled := true }) restart
    else .fail

/-- `_targets`: the control planes of a bgp cluster; for a node verb the one it works on. -/
def targets (onlyThisNode : Option (Option String)) : List Node :=
  if c.spec.network.ha ≠ .bgp then []
  else
    match onlyThisNode with
    | none => c.controlPlanes
    | some name =>
        match c.spec.nodes.find? fun n => some n.name.text = name with
        | none => []
        | some n => if n.role = .controlPlane then [n] else []

/-- The nodes, by their names. -/
abbrev World : Type := String → NodeState

/-- `_done`. -/
def done (ns : List Node) (w : World) : Bool :=
  ns.all fun n => configured c routers n (w n.name.text)

/-- One round of `_run`. -/
def runNode (n : Node) : Script World :=
  .cond (fun w => configured c routers n (w n.name.text)) .skip <|
    .within (fun w => w n.name.text) (fun s w => Function.update w n.name.text s)
      (configure c routers n)

/-- `_run`. -/
def run (ns : List Node) : Script World := .each ns (runNode c routers)

/-- `PHASE` and `NODE_PHASE`. -/
def phase (onlyThisNode : Option (Option String)) : Leaf World where
  done := some (done c routers (targets c onlyThisNode))
  run := run c routers (targets c onlyThisNode)

end Phase

end Tk8s.Frr
