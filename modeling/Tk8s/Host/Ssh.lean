import Mathlib.Data.List.Basic
import Tk8s.Lib.Checked
import Tk8s.Lib.Text

/-!
`host.py` and `podman.py`: what tkctl asks a host it reaches over ssh.

* `SshTarget`, `SshHost.remoteArgv`: the ssh command line, the remote command as one word.
* `SshHost.run`, `SshHost.runBytes`: one ssh call, with what it raises.
* `Query`, `Query.ask`: the questions about files, units and podman objects, and how each of them
  reads the exit code.
* `ask_of_failed`: **what a question answers when the ssh call itself failed**; `raises_iff`: **it
  raises exactly when ssh could be started and the question is not `read_bytes`**.
-/

namespace Tk8s

/-! ### The command line -/

/-- `shlex.quote`. -/
def shellQuote (s : String) : String :=
  let safe (c : Char) : Bool := c.isAlphanum || "@%+=:,./-_".toList.contains c
  if s = "" then "''"
  else if s.toList.all safe then s
  else "'" ++ String.ofList (s.toList.flatMap fun c => if c = '\'' then "'\"'\"'".toList else [c])
    ++ "'"

/-- `shlex.join`. -/
def shellJoin (argv : List String) : String := " ".intercalate (argv.map shellQuote)

/-- The environment rides on the command line; sudo never asks. -/
def fullArgv (argv : List String) (asRoot : Bool) (env : List (String × String)) : List String :=
  let envs := env.map fun kv => kv.1 ++ "=" ++ kv.2
  let full := (if envs = [] then [] else "env" :: envs) ++ argv
  if asRoot then ["sudo", "-n"] ++ full else full

/-- `[user@]host[:port]`. -/
structure SshTarget where
  user : Option String
  host : String
  port : Option ℕ
deriving DecidableEq, Repr

/-- The target as ssh reads it; an empty user or host is none. -/
def SshTarget.text (t : SshTarget) : String :=
  match t.user with
  | some user => user ++ "@" ++ t.host
  | none => t.host

structure SshHost where
  target : SshTarget
  ssh : String := "ssh"
  controlDir : String

/-- Options, the target, the remote command as one word. -/
def SshHost.remoteArgv (h : SshHost) (argv : List String) (asRoot : Bool)
    (env : List (String × String)) : List String :=
  let port := match h.target.port with
    | some p => if p = 0 then [] else ["-p", toString p]
    | none => []
  [h.ssh, "-o", "BatchMode=yes", "-o", "ControlMaster=auto", "-o", "ControlPersist=60", "-o",
    s!"ControlPath={h.controlDir}/ssh-%C"] ++ port ++
    [h.target.text, shellJoin (fullArgv argv asRoot env)]

/-! ### One call -/

/-- How an ssh call comes back: the client could not be started, or it exited. -/
inductive SshEnd where
  | notStarted
  | exited (code : ℤ) (stdout stderr : String)
deriving DecidableEq, Repr

/-- The ssh call did not get to run the remote command: no client, or ssh's own exit code. -/
def SshEnd.Failed : SshEnd → Prop
  | notStarted => True
  | exited code _ _ => code = 255

instance (r : SshEnd) : Decidable r.Failed := by
  cases r <;> unfold SshEnd.Failed <;> infer_instance

/-- `Result`. -/
structure Result where
  returncode : ℤ
  stdout : String
  stderr : String
deriving DecidableEq, Repr

structure HostError where
  argv : List String
  returncode : ℤ
  stderr : String
deriving DecidableEq, Repr

/-- The last three lines of what the command said. -/
def HostError.message (e : HostError) : String :=
  let lines := Text.splitOn '\n' (Text.strip e.stderr)
  s!"{shellJoin e.argv} exited {e.returncode}: " ++
    " | ".intercalate (lines.drop (lines.length - 3))

/-- What the world answers to an ssh command line. -/
abbrev Client := List String → SshEnd

namespace SshHost

variable (h : SshHost) (client : Client)

/-- `SshHost.run`: 255 is ssh's own failure and always raises; 127 stands for no client. -/
def run (argv : List String) (asRoot check : Bool) : Except HostError Result :=
  let full := h.remoteArgv argv asRoot []
  let r : Result := match client full with
    | .notStarted => ⟨127, "", s!"{h.ssh}: command not found"⟩
    | .exited code stdout stderr => ⟨code, stdout, stderr⟩
  if r.returncode = 255 then
    .error ⟨full, 255, if r.stderr = "" then "ssh failed" else r.stderr⟩
  else if check && r.returncode ≠ 0 then .error ⟨full, r.returncode, r.stderr⟩
  else .ok r

/-- `SshHost.run_bytes`: every failure raises. -/
def runBytes (argv : List String) (asRoot : Bool) : Except HostError String :=
  let full := h.remoteArgv argv asRoot []
  match client full with
  | .notStarted => .error ⟨full, 127, s!"{h.ssh}: command not found"⟩
  | .exited code stdout stderr =>
      if code ≠ 0 then .error ⟨full, code, stderr⟩ else .ok stdout

end SshHost

/-! ### The questions -/

/-- The podman objects asked for. -/
inductive PodmanKind where
  | container
  | volume
  | network
  | image
deriving DecidableEq, Repr

def PodmanKind.text : PodmanKind → String
  | container => "container"
  | volume => "volume"
  | network => "network"
  | image => "image"

/-- A question tkctl asks an ssh host. -/
inductive Query where
  | read (path : String) (asRoot : Bool)
  | readBytes (path : String)
  | exists (path : String)
  | listdir (path : String)
  | readlink (path : String)
  | writable (path : String)
  | isActive (unit : String)
  | podmanExists (kind : PodmanKind) (name : String)
deriving DecidableEq, Repr

/-- What a question is answered with. -/
inductive Answer where
  | text (content : Option String)
  | names (entries : List String)
  | flag (yes : Bool)
deriving DecidableEq, Repr

namespace Query

/-- The command a question runs on the host, and whether as root. -/
def command : Query → List String × Bool
  | read path asRoot => (["cat", path], asRoot)
  | readBytes path => (["cat", path], false)
  | .exists path => (["test", "-e", path], false)
  | listdir path => (["ls", "-1A", path], false)
  | readlink path => (["readlink", path], false)
  | writable path => (["test", "-w", path], false)
  | isActive unit => (["systemctl", "is-active", "--quiet", unit], false)
  | podmanExists kind name => (["podman", kind.text, "exists", name], true)

/-- How a question reads a call that came back. -/
def answer (r : Result) : Query → Answer
  | read _ _ => .text (if r.returncode = 0 then some r.stdout else none)
  | readBytes _ => .text (if r.returncode = 0 then some r.stdout else none)
  | listdir _ =>
      .names (if r.returncode = 0 then
        ((r.stdout.toList.splitOnP Text.isSpace).filter (· ≠ [])).map String.ofList |>.mergeSort
          fun a b => decide (a ≤ b)
        else [])
  | readlink _ =>
      let target := Text.strip r.stdout
      .text (if r.returncode = 0 ∧ target ≠ "" then some target else none)
  | .exists _ | writable _ | isActive _ | podmanExists _ _ => .flag (r.returncode = 0)

/-- The question as tkctl asks it: `read_bytes` takes a failed call for a missing file, the others
let `run` decide. -/
def ask (h : SshHost) (client : Client) (q : Query) : Except HostError Answer :=
  match q with
  | readBytes path =>
      match h.runBytes client ["cat", path] false with
      | .ok bytes => .ok (.text (some bytes))
      | .error _ => .ok (.text none)
  | q => (fun r => q.answer r) <$> h.run client q.command.1 q.command.2 false

/-- The ssh call behind a question. -/
def call (h : SshHost) (q : Query) : List String := h.remoteArgv q.command.1 q.command.2 []

/-- What says that nothing is there. -/
def absent : Query → Answer
  | read _ _ | readBytes _ | readlink _ => .text none
  | listdir _ => .names []
  | .exists _ | writable _ | isActive _ | podmanExists _ _ => .flag false

end Query

/-! ### When the ssh call itself fails -/

/-- What `run` says of ssh's own failure. -/
def SshEnd.said : SshEnd → String
  | notStarted => ""
  | exited _ _ stderr => if stderr = "" then "ssh failed" else stderr

variable {h : SshHost} {client : Client} {q : Query}

/-- A call that came back with an exit code but 0 says that nothing is there. -/
lemma answer_of_ne_zero {r : Result} (hr : r.returncode ≠ 0) : q.answer r = q.absent := by
  cases q <;> simp [Query.answer, Query.absent, hr]

/-- `run` raises on ssh's own exit code, whatever the caller checks; without a client it answers
127. -/
lemma run_of_failed {argv : List String} {asRoot : Bool}
    (hf : (client (h.remoteArgv argv asRoot [])).Failed) :
    h.run client argv asRoot false =
      if client (h.remoteArgv argv asRoot []) = .notStarted
      then .ok ⟨127, "", s!"{h.ssh}: command not found"⟩
      else .error ⟨h.remoteArgv argv asRoot [], 255,
        (client (h.remoteArgv argv asRoot [])).said⟩ := by
  cases hc : client (h.remoteArgv argv asRoot []) with
  | notStarted => simp [SshHost.run, hc]
  | exited code stdout stderr =>
      rw [hc] at hf
      have hcode : code = 255 := hf
      simp [SshHost.run, hc, hcode, SshEnd.said]

/-- `run_bytes` raises whenever the call failed. -/
lemma runBytes_of_failed {argv : List String} {asRoot : Bool}
    (hf : (client (h.remoteArgv argv asRoot [])).Failed) :
    ∃ err, h.runBytes client argv asRoot = .error err := by
  rw [SshHost.runBytes]
  cases hc : client (h.remoteArgv argv asRoot []) with
  | notStarted => exact ⟨_, rfl⟩
  | exited code stdout stderr =>
      rw [hc] at hf
      have hcode : code = 255 := hf
      exact ⟨_, if_pos (by rw [hcode]; decide)⟩

/-- `read_bytes`: the one question that takes every failure for a missing file. -/
def Query.IsReadBytes (q : Query) : Prop := ∃ path, q = .readBytes path

lemma ask_of_not_readBytes (hq : ¬ q.IsReadBytes) : q.ask h client =
    (fun r => q.answer r) <$> h.run client q.command.1 q.command.2 false := by
  cases q with
  | readBytes path => exact absurd ⟨path, rfl⟩ hq
  | _ => rfl

/-- **A question behind a failed call** raises, or says that nothing is there: when there is no ssh
client, and for `read_bytes`. -/
theorem ask_of_failed (hf : (client (q.call h)).Failed) :
    (q.ask h client = .ok q.absent ∧ (client (q.call h) = .notStarted ∨ q.IsReadBytes)) ∨
      (q.ask h client = .error ⟨q.call h, 255, (client (q.call h)).said⟩ ∧
        client (q.call h) ≠ .notStarted ∧ ¬ q.IsReadBytes) := by
  by_cases hq : q.IsReadBytes
  · refine Or.inl ⟨?_, Or.inr hq⟩
    obtain ⟨path, rfl⟩ := hq
    obtain ⟨err, herr⟩ : ∃ err, h.runBytes client ["cat", path] false = .error err :=
      runBytes_of_failed hf
    simp only [Query.ask, herr, Query.absent]
  · have hrun : h.run client q.command.1 q.command.2 false =
        if client (q.call h) = .notStarted then .ok ⟨127, "", s!"{h.ssh}: command not found"⟩
        else .error ⟨q.call h, 255, (client (q.call h)).said⟩ := run_of_failed hf
    rw [ask_of_not_readBytes hq, hrun]
    by_cases hc : client (q.call h) = .notStarted
    · refine Or.inl ⟨?_, Or.inl hc⟩
      rw [if_pos hc]
      exact congrArg Except.ok (answer_of_ne_zero (show (127 : ℤ) ≠ 0 by decide))
    · refine Or.inr ⟨?_, hc, hq⟩
      rw [if_neg hc]
      rfl

/-- **A question behind a failed ssh call raises exactly when ssh could be started and it is not
`read_bytes`**. -/
theorem raises_iff (hf : (client (q.call h)).Failed) :
    (∃ err, q.ask h client = .error err) ↔
      client (q.call h) ≠ .notStarted ∧ ∀ path, q ≠ .readBytes path := by
  rw [← not_exists]
  cases ask_of_failed hf with
  | inl habsent =>
      obtain ⟨hask, hwhy⟩ := habsent
      constructor
      · rintro ⟨err, herr⟩
        rw [hask] at herr
        exact absurd herr (by simp)
      · rintro ⟨hstarted, hother⟩
        exact absurd hwhy (not_or.mpr ⟨hstarted, hother⟩)
  | inr hraised => exact ⟨fun _ => hraised.2, fun _ => ⟨_, hraised.1⟩⟩

/-- A host nothing routes to. -/
def lostHost : SshHost where
  target := ⟨some "tux", "h", none⟩
  controlDir := "/run/user/1000/tk8s"

def noRoute : Client := fun _ => .exited 255 "" "ssh: connect to host h port 22: No route to host"

/-- `exists` raises. -/
theorem raises_exists :
    ∃ err, (Query.exists "/srv/tk8s/clusters/dev").ask lostHost noRoute = .error err :=
  (raises_iff (by decide)).mpr ⟨by decide, by simp⟩

/-- `read_bytes` reads an unreachable host as a missing file. -/
theorem not_raises_readBytes : ¬ ∀ (h : SshHost) (client : Client) (q : Query),
    (client (q.call h)).Failed → ∃ err, q.ask h client = .error err := by
  intro hall
  obtain ⟨err, herr⟩ := hall lostHost noRoute (.readBytes "/srv/tk8s/images/1.34.0.list") rfl
  simp [Query.ask, SshHost.runBytes, noRoute] at herr

end Tk8s
