import Tk8s.Lib.Text
import Tk8s.Lib.IPv4
import Tk8s.Lib.Checked
import Tk8s.Lib.Run
import Tk8s.Model
import Tk8s.Plan.Range
import Tk8s.Plan.Validate
import Tk8s.Plan.Layout
import Tk8s.Plan.Resolve
import Tk8s.Addresses
import Tk8s.Create.Record
import Tk8s.Resume
import Tk8s.Node.Common
import Tk8s.Node.Edits
import Tk8s.Create.Units
import Tk8s.Names
import Tk8s.Mesh.Ops
import Tk8s.Mesh.Records
import Tk8s.Create.Phases
import Tk8s.Create.Topology
import Tk8s.Create.Federate
import Tk8s.Create.Overlap
import Tk8s.Create.PerHost
import Tk8s.Create.Ready
import Tk8s.Host.Ssh
import Tk8s.Node.Add
import Tk8s.Node.Delete
import Tk8s.Node.Drain
import Tk8s.SingleHost
import Tk8s.Delete.Absent
import Tk8s.Delete.Rerun
import Tk8s.Create.Leftovers
import Tk8s.Mesh.Closure
import Tk8s.ClusterFile
import Tk8s.Delete.Disconnect
import Tk8s.KubeBroken
import Tk8s.KubeView
import Tk8s.Plan.Limits
import Tk8s.Plan.Placement
import Tk8s.RangeReaders
import Tk8s.Create.Hostnames
import Tk8s.SkipPhases
import Tk8s.Create.Vrrp
import Tk8s.Mesh.Preflight
import Tk8s.Lib.Shell
import Tk8s.Host.Printed
import Tk8s.Create.CertificateKey
import Tk8s.ClusterFiles
import Tk8s.ImageStore
import Tk8s.Lib.CpuSet
import Tk8s.Lib.FileTree
import Tk8s.Create.NodeFs
import Tk8s.ApiserverHealth
import Tk8s.Host.Files
import Tk8s.Create.Disks
import Tk8s.Create.HostRoutes
import Tk8s.Host.Established
import Tk8s.Create.UnitFiles
import Tk8s.Create.UnitPaths
import Tk8s.Host.Open
import Tk8s.Create.UnitsRun
import Tk8s.Lib.Template
import Tk8s.Render
import Tk8s.Lib.Reruns
import Tk8s.PhaseAlone
import Tk8s.Create.Frr
import Tk8s.Create.FrrRun
import Tk8s.Mesh.Interrupted
import Tk8s.Create.Gvisor
import Tk8s.Create.Plugins
import Tk8s.Args
