import Tk8s.Create.Disks
import Tk8s.Create.NodeFs
import Tk8s.Create.PerHost
import Tk8s.Create.Vrrp
import Tk8s.Host.Established

/-!
`create/units.py`: every file and link the units phase owns, host by host, its `done` and its `run`.

* `networkUnit`, `macvlanNetwork`, `proxyBoot`, `bgpBoot`, `targetUnit`, the scripts: the templates.
* `render`, `links`, `node0s`: the files of one host, its links, and the directories they stand in.
* `perHostFiles`: `per_host`. `staleLinks`, `done`, `run`: the phase.
-/

namespace Tk8s.UnitFiles

open Net FileTree

/-! ### The templates -/

/-- Lines, each with its newline. -/
def unlines (lines : List String) : String := String.join (lines.map (· ++ "\n"))

/-- `cluster.network`. -/
def networkUnit (c : Cluster) : String :=
  let net := c.spec.network
  let name := c.name
  unlines
    [s!"# Generated by tkctl for cluster {name}. Edit cluster.yaml and re-run tkctl instead.",
      "[Network]", s!"NetworkName={name}", s!"Subnet={net.nodes.text}", s!"Gateway={net.gateway.text}",
      "# The nodes' default route is the router, not the host bridge at " ++
        s!"{net.gateway.text}; the bridge is the",
      "# router's upstream. no_default_route keeps netavark from adding the bridge as a default too.",
      "Options=no_default_route=true", s!"PodmanArgs=--route 0.0.0.0/0,{net.router.text}",
      "DNS=1.1.1.1", "DNS=1.0.0.1", "DNS=8.8.8.8", "DNS=8.8.4.4"]

/-- `cluster-macvlan.network`. -/
def macvlanNetwork (c : Cluster) (me : Host) : String :=
  let net := c.spec.network
  let name := c.name
  unlines
    [s!"# Generated by tkctl for cluster {name}: the nodes on the hosts' LAN, macvlan on {me.iface}.",
      "# Edit cluster.yaml and re-run tkctl instead.",
      "[Network]", s!"NetworkName={name}", "Driver=macvlan", s!"Options=parent={me.iface}",
      s!"Subnet={net.nodes.text}", s!"Gateway={net.gateway.text}",
      "# The nodes' default route is the cluster's router (its address floats between the routers on",
      "# the LAN), not the LAN gateway. no_default_route keeps netavark from adding the gateway too.",
      "Options=no_default_route=true", s!"PodmanArgs=--route 0.0.0.0/0,{net.router.text}",
      "# No resolvers here: netavark serves no DNS on a macvlan network and refuses the setting; the",
      "# containers carry their own resolvers (set in each .container)."]

/-- `router_config.servers`: one per control plane. -/
def servers (c : Cluster) : String :=
  Text.join '\n' <| c.controlPlanes.map fun n => Text.join '\n'
    [s!"            server {n.name.text} \x7b", s!"                address \"{n.ip.text}\"",
      "                check \x7b", "                \x7d", "                port \"6443\"",
      "            \x7d"]

/-- `router_config.neighbors`. -/
def neighbors (c : Cluster) : String :=
  Text.join '\n' <| c.controlPlanes.map fun n => Text.join '\n'
    [s!"        neighbor {n.ip.text} \x7b", "            address-family \x7b",
      "                ipv4-unicast \x7b", "                \x7d", "            \x7d",
      "            bfd \x7b", "            \x7d", "            remote-as \"65001\"",
      "            timers \x7b", "                holdtime \"9\"", "                keepalive \"3\"",
      "            \x7d", "        \x7d"]

/-- `router_config.bfd_peers`. -/
def bfdPeers (c : Cluster) : String :=
  Text.join '\n' <| c.controlPlanes.map fun n => Text.join '\n'
    [s!"        peer {n.ip.text} \x7b", "            interval \x7b",
      "                multiplier \"3\"", "                receive \"300\"",
      "                transmit \"300\"", "            \x7d", "        \x7d"]

/-- The VRRP block goes first. -/
def bootHead (c : Cluster) (r : Router) : String :=
  let vrrp := vrrpBlock c r
  (if vrrp = "" then "" else vrrp ++ "\n") ++ unlines
    ["interfaces \x7b", "    ethernet eth0 \x7b",
      s!"        address \"{r.ip.text}/{c.spec.network.nodes.prefixlen}\"", "    \x7d",
      "    loopback lo \x7b", "    \x7d", "\x7d"]

def bootSystem (r : Router) : List String :=
  ["system \x7b", "    config-management \x7b", "        commit-revisions \"20\"", "    \x7d",
    s!"    host-name \"{r.name}\"", "    login \x7b", "        user vyos \x7b",
    "            authentication \x7b",
    "                encrypted-password \"$6$QxPS.uk6mfo$9QBSo8u1FkH16gMyAVhus6fU3LOzvLR9Z9.82m3tiHFAxTtI" ++
      "khaZSWssSgzt4v4dGAL8rhVQxTg0oAG9/q11h/\"",
    "                plaintext-password \"\"", "            \x7d", "        \x7d", "    \x7d", "\x7d"]

/-- `router/tkctl-proxy.boot`. -/
def proxyBoot (c : Cluster) (r : Router) : String :=
  bootHead c r ++ unlines
    (["load-balancing \x7b", "    haproxy \x7b", "        backend api \x7b", "            mode \"tcp\"",
      servers c, "        \x7d", "        service api \x7b", "            backend \"api\"",
      "            mode \"tcp\"", "            port \"6443\"", "        \x7d", "        timeout \x7b",
      "            client \"600\"", "            server \"600\"", "        \x7d", "    \x7d", "\x7d",
      "protocols \x7b", "    static \x7b", "        route 0.0.0.0/0 \x7b",
      s!"            next-hop {c.spec.network.gateway.text} \x7b", "            \x7d", "        \x7d",
      "    \x7d", "\x7d"] ++ bootSystem r)

/-- `router/tkctl-bgp.boot`. -/
def bgpBoot (c : Cluster) (r : Router) : String :=
  let vip := (c.spec.network.vip.map IPv4Address.text).getD "None"
  bootHead c r ++ unlines
    (["protocols \x7b", "    bfd \x7b", bfdPeers c, "    \x7d", "    bgp \x7b",
      "        address-family \x7b", "            ipv4-unicast \x7b", "                maximum-paths \x7b",
      "                    ebgp \"8\"", "                \x7d", "            \x7d", "        \x7d",
      neighbors c, "        system-as \"65000\"", "    \x7d", "    static \x7b",
      "        route 0.0.0.0/0 \x7b", s!"            next-hop {c.spec.network.gateway.text} \x7b",
      "            \x7d", "        \x7d", s!"        route {vip}/32 \x7b", "            reject \x7b",
      "                distance \"254\"", "            \x7d", "        \x7d", "    \x7d", "\x7d"] ++
      bootSystem r)

/-- `router/vyos-preconfig-bootup.script`. -/
def preconfigScript (c : Cluster) : String :=
  let name := c.name
  unlines
    ["#!/bin/sh",
      s!"# Generated by tkctl for cluster {name}. VyOS runs this before it loads config.boot. tkctl",
      "# renders tkctl.boot; a config.boot without VyOS's own version footer would be migrated at",
      "# every boot (blocks added, the file rewritten), so the footer is appended here, taken from the",
      "# default config of the VyOS build that is about to load it.",
      "cp /opt/vyatta/etc/config/tkctl.boot /opt/vyatta/etc/config/config.boot",
      "grep '^// ' /opt/vyatta/etc/config.boot.default >> /opt/vyatta/etc/config/config.boot"]

/-- `router/vyos-postconfig-bootup.script`. -/
def postconfigScript (c : Cluster) : String :=
  let name := c.name
  let floating := c.floatingIp.text
  unlines
    ["#!/bin/sh",
      s!"# Generated by tkctl for cluster {name}. podman gives every container on the cluster network a",
      "# default route to the router; this container is the router, and that route would shadow the",
      "# static default to the host (VyOS's zebra ranks a kernel route above its own static one).",
      s!"ip route del default via {floating} 2>/dev/null || true",
      "# When the container stops, netavark deletes exactly that route (gateway, metric 100, proto",
      "# static) and fails the unit when it is gone. A transient unit puts it back at shutdown; by then",
      "# nothing routes through here any more.",
      "# The host bridge sits on the same link as the nodes, so for every packet it forwards the",
      "# router would send the node an ICMP redirect to the host (ping shows them as errors, and a",
      "# node that accepted them would bypass the router). VyOS has no CLI knob for this.",
      "sysctl -qw net.ipv4.conf.all.send_redirects=0 net.ipv4.conf.eth0.send_redirects=0",
      "systemd-run --quiet --unit=tk8s-podman-route -p RemainAfterExit=yes -p " ++
        s!"\"ExecStop=/usr/sbin/ip route replace default via {floating} metric 100 proto static\" " ++
        "/bin/true"]

/-- `manifests/audit-policy.yaml`. -/
def auditPolicy : String :=
  unlines
    ["apiVersion: audit.k8s.io/v1", "kind: Policy", "omitStages:", "  - \"RequestReceived\"", "rules:",
      "  - level: Request",
      "    verbs: [\"create\",\"update\",\"patch\",\"delete\",\"watch\",\"get\",\"list\"," ++
        "\"deletecollection\"]",
      "    resources:", "      - group: \"\"  # core",
      "        resources: [\"pods\", \"services\", \"secrets\", \"configmaps\"]",
      "      - group: \"apps\"",
      "        resources: [\"daemonsets\", \"deployments\", \"replicasets\", \"statefulsets\"]",
      "      - group: \"batch\"", "        resources: [\"jobs\", \"cronjobs\"]"]

/-- `cluster.target`. -/
def targetUnit (c : Cluster) (wants : List String) : String :=
  let name := c.name
  unlines
    [s!"# Generated by tkctl. Start or stop every node of cluster {name} together.", "[Unit]",
      s!"Description=tk8s cluster {name}", "Wants=" ++ Text.join ' ' wants, "", "[Install]",
      "WantedBy=multi-user.target"]

/-! ### The files of one host -/

/-- `files[path] = value`; a path that is set again keeps its place. -/
def setItem {β : Type} (p : Path) (v : β) : List (Path × β) → List (Path × β)
  | [] => [(p, v)]
  | x :: rest => if x.1 = p then (p, v) :: rest else x :: setItem p v rest

/-- A dict of these items, in order. -/
def dictOf {β : Type} (items : List (Path × β)) : List (Path × β) :=
  items.foldl (fun out x => setItem x.1 x.2 out) []

/-- `<unit_dir>/<cluster>`. -/
def unitDir (c : Cluster) : Path := ["/etc/containers/systemd", c.name]

/-- `<systemd_dir>`. -/
def systemdDir : Path := ["/etc/systemd/system"]

/-- `state_dir`. -/
def stateDir (e : Env) (c : Cluster) : Path := [e.dataDir, "clusters", c.name]

def routerFiles (e : Env) (c : Cluster) (r : Router) : List (Path × String) :=
  let dir := stateDir e c ++ [r.dir]
  [(dir ++ ["tkctl.boot"], if c.spec.network.ha = .proxy then proxyBoot c r else bgpBoot c r),
    (dir ++ ["scripts", "vyos-preconfig-bootup.script"], preconfigScript c),
    (dir ++ ["scripts", "vyos-postconfig-bootup.script"], postconfigScript c),
    (unitDir c ++ [r.name ++ ".container"], routerUnit e c r)]

/-- A node's own files, when the cluster sizes nodes, and its unit. -/
def nodeFiles (e : Env) (c : Cluster) (after : String) (n : Node) : List (Path × String) :=
  (if sized c then NodeFs.files (NodeFs.nodeDir (stateDir e c) n.name.text) n else []) ++
    [(unitDir c ++ [n.name.text ++ ".container"], nodeUnit e c after n)]

/-- `render`: every file the phase owns on one host, in the order they are written. -/
def render (e : Env) (c : Cluster) (hostName : Option String) :
    Except Raised (List (Path × String)) := do
  Checked.refuseIf (c.multiHost = true ∧ hostName = none)
    (.valueError "a multi-host cluster renders per host (per_host)")
  let first ← Checked.ofOption .indexError c.firstControlPlane
  let me := c.hostNamed hostName
  let routers ← mineRouters c hostName
  let mine := mineNodes c hostName
  let after := afterLine first (mine.map (·.1))
  let network :=
    match me with
    | some me => [(unitDir c ++ [c.name ++ ".network"], macvlanNetwork c me)]
    | none => if c.multiHost then [] else [(unitDir c ++ [c.name ++ ".network"], networkUnit c)]
  let policy :=
    if me.isSome then [(stateDir e c ++ ["logs", "apiserver", "audit-policy.yaml"], auditPolicy)]
    else []
  let wants ← targetWants c hostName
  let routes ← hostRoutes c hostName
  return dictOf <| network ++ routers.flatMap (routerFiles e c) ++ policy ++
    mine.flatMap (fun p => nodeFiles e c (after p.2) p.1) ++
    [(systemdDir ++ [c.name ++ ".target"], targetUnit c wants)] ++
    routes.toList.map fun text => (systemdDir ++ [c.name ++ "-routes.service"], text)

/-- `_nodes_on`. -/
def nodesOn (c : Cluster) (hostName : Option String) : List Node :=
  c.spec.nodes.filter fun n => hostName = none || n.host = hostName

/-- `links`: the cpu links of the nodes of a host, none for a cluster from before node sizing. -/
def links (e : Env) (c : Cluster) (hostName : Option String) : List (Path × Path) :=
  if sized c then
    dictOf ((nodesOn c hostName).flatMap fun n =>
      NodeFs.links (NodeFs.nodeDir (stateDir e c) n.name.text) n)
  else []

/-- The `node0` of every node of a host. -/
def node0s (e : Env) (c : Cluster) (hostName : Option String) : List Path :=
  (nodesOn c hostName).map fun n => NodeFs.node0 (NodeFs.nodeDir (stateDir e c) n.name.text)

/-! ### The phase -/

/-- `HostFiles`. -/
structure HostFiles where
  name : Option String
  machine : MachineId
  files : List (Path × String)
  links : List (Path × Path)

/-- `node_hosts`. -/
def nodeHosts (c : Cluster) : List (Option String × MachineId) :=
  match c.spec.hosts with
  | none => [(none, none)]
  | some hosts => hosts.map fun h => (some h.name.text, h.ssh)

/-- The entry of a host nodes run on. -/
def hostEntry (e : Env) (c : Cluster) (h : Option String × MachineId) :
    Except Raised HostFiles := do
  let files ← render e c h.1
  return ⟨h.1, h.2, files, links e c h.1⟩

/-- `per_host`: the node hosts, and the operator when it runs no node. -/
def perHostFiles (e : Env) (c : Cluster) : Except Raised (List HostFiles) := do
  let out ← (nodeHosts c).mapM (hostEntry e c)
  if out.all (·.machine ≠ none) then do
    let files ← render e c (some "operator")
    return out ++ [⟨some "operator", none, files, []⟩]
  else return out

/-- What the loops of `run` write on a machine for one entry. -/
def HostFiles.share (e : Env) (c : Cluster) (routers : List Router) (hf : HostFiles) :
    HostFs.Share where
  files := hf.files.map fun p => ⟨p.1, p.2, needsSudo e c routers p.1⟩
  links := hf.links
  dirs := []

/-- What `_stale_links_on` looks at on a host. -/
def staleShare (e : Env) (c : Cluster) (hostName : Option String) : HostFs.Share where
  files := []
  links := links e c hostName
  dirs := node0s e c hostName

/-- `stale_links`. -/
def staleLinks (e : Env) (c : Cluster) (d : Disks) : List Path :=
  if sized c then
    (nodeHosts c).flatMap fun h => HostFs.stale (kindOf h.2) (staleShare e c h.1) (d h.2)
  else []

/-- `done`. -/
def done (e : Env) (c : Cluster) (d : Disks) : Except Raised Bool := do
  let entries ← perHostFiles e c
  let routers ← c.routers
  let same ← entries.allM fun hf => do
    let files ← hf.files.allM fun p => do
      let path := p.1.text
      -- the call itself raises where a directory is read without sudo
      let found ← Checked.ofOption (.hostError s!"[Errno 21] Is a directory: '{path}'")
        (HostFs.read (kindOf hf.machine) (d hf.machine) p.1 (needsSudo e c routers p.1))
      return found = some p.2
    return files && hf.links.all fun l => HostFs.leads (kindOf hf.machine) (d hf.machine) l.1 l.2
  return same && (staleLinks e c d).isEmpty

/-- `run`: every file and link of every entry, then the stale links of every node host. -/
def run (e : Env) (c : Cluster) : Script Disks :=
  match perHostFiles e c, c.routers with
  | .ok entries, .ok routers => Script.seq
      (Script.each entries fun hf => onDisk hf.machine <|
        HostFs.writeShare (kindOf hf.machine) (hf.share e c routers))
      (Script.each (nodeHosts c) fun h => onDisk h.2 <|
        HostFs.dropStale (kindOf h.2) (staleShare e c h.1))
  | _, _ => Script.fail

end Tk8s.UnitFiles
