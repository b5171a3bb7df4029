import Mathlib.Data.List.Nodup
import Tk8s.Host.Ssh
import Tk8s.Lib.Run
import Tk8s.Lib.Script
import Tk8s.Node.Drain

/-!
`create/kubeadm.py` and `node/add.py`: the certificate key of the control-plane joins.

* `KeyWorld`: the clock, the `.certificate-key` file, the keys kubeadm uploaded and the joins issued
  with one.
* `initRun`, `certificateKey`, `joinNode`, `joinRun` and `Add.joinRun`: the code, command by
  command; every command takes what time it takes.
* `KeyWorld.Sound`: the key of every join is the one last saved. `sound_of_run`: it holds in every
  run of calls that may be stopped anywhere, with any time between them.
* `fresh_iff_inTime`: **every join has a key uploaded less than two hours before** exactly when
  every join comes less than two hours after the upload whose key was last saved.
* `uploads_of_addJoinRun`: **`add node` and `join node` upload the key they use**.
-/

namespace Tk8s.CertificateKey

/-! ### The world -/

/-- How a command comes back: the time to its effect, the time after it, and what it answers; no
answer is a `HostError`. -/
structure Reply where
  before : ℕ
  after : ℕ
  result : Option Result

/-- A `kubeadm join --control-plane`. -/
structure Join where
  node : NodeName
  command : String
  key : String
  issuedAt : ℕ
  /-- When the key of the `.certificate-key` file of that moment was uploaded. -/
  saved : Option ℕ
deriving DecidableEq

structure KeyWorld where
  /-- In seconds. -/
  now : ℕ
  /-- The commands so far. -/
  ticks : ℕ
  /-- `.certificate-key` in the state dir. -/
  file : Option String
  /-- When the key of the file was uploaded. -/
  saved : Option ℕ
  /-- The keys kubeadm uploaded, and when. -/
  uploads : List (String × ℕ)
  joins : List Join
deriving DecidableEq

/-- Before the first create. -/
def KeyWorld.start : KeyWorld := ⟨0, 0, none, none, [], []⟩

/-- A command that takes time and changes nothing here. -/
def KeyWorld.pass (e : ℕ → Reply) (w : KeyWorld) : KeyWorld :=
  { w with now := w.now + (e w.ticks).before + (e w.ticks).after, ticks := w.ticks + 1 }

def KeyWorld.upload (e : ℕ → Reply) (key : String) (w : KeyWorld) : KeyWorld :=
  { w with uploads := w.uploads ++ [(key, w.now + (e w.ticks).before)] }

def KeyWorld.save (key : String) (w : KeyWorld) : KeyWorld :=
  { w with file := some (key ++ "\n"), saved := w.uploads.getLast?.map Prod.snd }

def KeyWorld.issue (n : Node) (command key : String) (w : KeyWorld) : KeyWorld :=
  { w with joins := w.joins ++ [⟨n.name, command, key, w.now, w.saved⟩] }

/-! ### The code -/

section Code

variable (e : ℕ → Reply)

/-- A command with an effect that depends on its answer, and what comes next. -/
def exec (effect : Result → KeyWorld → KeyWorld) (next : Result → Script KeyWorld) :
    Script KeyWorld :=
  Script.ask fun w => match (e w.ticks).result with
    | none => Script.seq (Script.command (KeyWorld.pass e)) Script.fail
    | some r => Script.seq (Script.command fun w => (effect r w).pass e) (next r)

/-- A command without an effect on the keys. -/
def query (next : Result → Script KeyWorld) : Script KeyWorld := exec e (fun _ w => w) next

/-- A step that has to come out well. -/
def require (b : Bool) : Script KeyWorld := if b then Script.skip else Script.fail

/-- `wait_for`: `probe` for at most so many rounds, with a sleep between them. -/
def waitFor (probe : Result → Bool) : ℕ → Script KeyWorld
  | 0 => Script.fail
  | rounds + 1 => query e fun r =>
      if probe r then Script.skip
      else if rounds = 0 then Script.fail
      else Script.seq (Script.command (KeyWorld.pass e)) (waitFor probe rounds)

/-- `KEY_RE.search`. -/
def searchKey (text : String) : Option String :=
  text.toList.tails.findSome? fun rest =>
    let option := "--certificate-key ".toList
    let key := (rest.drop option.length).takeWhile fun c => c.isDigit || ('a' ≤ c && c ≤ 'f')
    if option <+: rest ∧ key ≠ [] then some (String.ofList key) else none

/-- The key `kubeadm init --upload-certs` prints, if it succeeded. -/
def initKey (r : Result) : Option String :=
  if r.returncode = 0 then searchKey r.stdout else none

/-- The key `kubeadm init phase upload-certs` prints, on its last line. -/
def uploadKey (r : Result) : Option String :=
  if r.returncode = 0 then (Text.lines (Text.strip r.stdout)).getLast?.map Text.strip else none

/-- `save_certificate_key`. -/
def saveCertificateKey (key : String) (next : Script KeyWorld) : Script KeyWorld :=
  exec e (fun _ => KeyWorld.save key) fun _ => next

/-- A kubeadm command that uploads the certificates under the key it prints, which is saved. -/
def uploading (printed : Result → Option String) (next : String → Script KeyWorld) :
    Script KeyWorld :=
  exec e (fun r w => match printed r with
    | some key => w.upload e key
    | none => w) fun r => match printed r with
    | some key => saveCertificateKey e key (next key)
    | none => Script.fail

/-- `wait_router_ready`. -/
def waitRouterReady : Script KeyWorld := waitFor e (fun r => Text.strip r.stdout = "ok") 30

/-- `init_run`: without an `admin.conf`, `kubeadm init`. -/
def initRun : Script KeyWorld :=
  query e fun initialised =>
    if initialised.returncode = 0 then
      Script.seq (waitRouterReady e) (query e fun completed => require (completed.returncode = 0))
    else uploading e initKey fun _ => waitRouterReady e

/-- `certificate_key`: the stored key, or a fresh upload. -/
def certificateKey (fresh : Bool) (next : String → Script KeyWorld) : Script KeyWorld :=
  Script.ask fun w =>
    let stored := if fresh then "" else Text.strip (w.file.getD "")
    if stored ≠ "" then next stored else uploading e uploadKey next

/-- `join_command`. -/
def joinCommand (next : String → Script KeyWorld) : Script KeyWorld :=
  query e fun r =>
    if r.returncode = 0 then
      next (Text.strip (String.ofList (r.stdout.toList.filter (· ≠ '\r'))))
    else Script.fail

/-- `join_node`. -/
def joinNode (n : Node) (join key : String) : Script KeyWorld :=
  let extra := if n.role = .controlPlane then
      s!" --control-plane --certificate-key {key} --apiserver-advertise-address {n.ip.text}"
    else ""
  let cmd := s!"{join}{extra} --ignore-preflight-errors=SystemVerification"
  exec e (fun _ w => if n.role = .controlPlane then w.issue n cmd key else w) fun r =>
    if r.returncode = 0 then waitFor e (fun r => r.returncode = 0) 30 else Script.fail

/-- `untaint_control_planes`. -/
def untaintControlPlanes (c : Cluster) : Script KeyWorld :=
  Script.each c.controlPlanes fun _ => query e fun _ => Script.skip

/-- `_joining`. -/
def joining (c : Cluster) : List Node := (c.spec.nodes.drop 1).filter (·.join)

/-- The joins of `join_run`. -/
def joinNodes (c : Cluster) (join key : String) : Script KeyWorld :=
  Script.each (c.spec.nodes.drop 1) fun n =>
    if n.join then
      query e fun joined =>
        if joined.returncode = 0 then Script.skip else joinNode e n join key
    else Script.skip

/-- `create/kubeadm.join_run`. -/
def joinRun (c : Cluster) : Script KeyWorld :=
  joinCommand e fun join =>
    let rest := fun key => Script.seq (joinNodes e c join key) (untaintControlPlanes e c)
    if (joining c).any (·.role = .controlPlane) then certificateKey e false rest else rest ""

/-- `node/add.join_run`. -/
def Add.joinRun (n : Node) : Script KeyWorld :=
  joinCommand e fun join =>
    if n.role = .controlPlane then certificateKey e true fun key => joinNode e n join key
    else joinNode e n join ""

end Code

/-! ### What a key can be -/

/-- The key is what is read back from its file. -/
def Stored (key : String) : Prop := Text.strip (key ++ "\n") = key

lemma stored_strip (line : String) : Stored (Text.strip line) :=
  Text.strip_strip_append (c := '\n') (by decide) line

lemma isSpace_of_le {c : Char} (h : '0' ≤ c) : Text.isSpace c = false := by
  by_contra hs
  simp only [Text.isSpace, Bool.not_eq_false, Bool.or_eq_true, decide_eq_true_eq,
    Bool.and_eq_true] at hs
  rcases hs with (((((rfl | rfl) | rfl) | rfl) | rfl) | rfl) | ⟨-, hlow⟩
  all_goals first | exact absurd h (by decide) | skip
  have hdigit : ('0' : Char).val ≤ c.val := h
  exact absurd (UInt32.le_trans hdigit hlow) (by decide)

lemma stored_of_searchKey {text key : String} (h : searchKey text = some key) : Stored key := by
  obtain ⟨rest, -, hrest⟩ := List.exists_of_findSome?_eq_some h
  obtain ⟨-, hkey⟩ := Option.ite_none_right_eq_some.mp hrest
  have hspace : ∀ c ∈ key.toList, Text.isSpace c = false := by
    intro c hc
    rw [← Option.some.inj hkey, String.toList_ofList] at hc
    have hhex : (c.isDigit || (decide ('a' ≤ c) && decide (c ≤ 'f'))) = true :=
      List.mem_takeWhile_imp (p := fun c => c.isDigit || (decide ('a' ≤ c) && decide (c ≤ 'f'))) hc
    refine isSpace_of_le ?_
    simp only [Char.isDigit, Bool.or_eq_true, Bool.and_eq_true, decide_eq_true_eq] at hhex
    obtain ⟨hdigit, -⟩ | ⟨hletter, -⟩ := hhex
    · exact hdigit
    · exact UInt32.le_trans (show ('0' : Char).val ≤ ('a' : Char).val by decide) hletter
  rw [← Text.strip_of_forall hspace]
  exact stored_strip key

lemma stored_of_initKey {r : Result} {key : String} (h : initKey r = some key) : Stored key :=
  stored_of_searchKey (Option.ite_none_right_eq_some.mp h).2

lemma stored_of_uploadKey {r : Result} {key : String} (h : uploadKey r = some key) :
    Stored key := by
  obtain ⟨line, -, rfl⟩ := Option.map_eq_some_iff.mp (Option.ite_none_right_eq_some.mp h).2
  exact stored_strip line

/-! ### The rules -/

/-- What the calls keep: `I` between any two commands, `H key` once `key` is in the file. -/
structure Keeps (e : ℕ → Reply) (I : KeyWorld → Prop) (H : String → KeyWorld → Prop) : Prop where
  pass : ∀ w, I w → I (w.pass e)
  upload : ∀ key w, I w → I ((w.upload e key).pass e)
  save : ∀ key w, Stored key → I w → H key ((((w.upload e key).pass e).save key).pass e)
  holds : ∀ key w, H key w → I w
  holdsPass : ∀ key w, H key w → H key (w.pass e)
  issue : ∀ key w n cmd, H key w → H key ((w.issue n cmd key).pass e)

section Rules

variable {e : ℕ → Reply} {I : KeyWorld → Prop} {H : String → KeyWorld → Prop}
  {pre post : KeyWorld → Prop} {next : Result → Script KeyWorld}

/-- One command, by what it leaves behind for each answer. -/
lemma spec_exec {effect : Result → KeyWorld → KeyWorld} {mid : Result → KeyWorld → Prop}
    (hpre : ∀ w, pre w → I w ∧ I (w.pass e))
    (heffect : ∀ r w, pre w → (e w.ticks).result = some r → mid r ((effect r w).pass e))
    (hmid : ∀ r w, mid r w → I w) (hnext : ∀ r, Script.Spec (mid r) (next r) I post) :
    Script.Spec pre (exec e effect next) I post := by
  refine Script.Spec.ask fun w hw => ?_
  obtain ⟨hI, hpass⟩ := hpre w hw
  cases hr : (e w.ticks).result with
  | none =>
      have hcommand : Script.Spec (fun t => t = w) (Script.command (KeyWorld.pass e)) I I := by
        refine Script.Spec.command ?_
        rintro _ rfl
        exact ⟨hI, hpass, hpass⟩
      exact Script.Spec.seq hcommand (Script.Spec.fail fun _ h => h)
  | some r =>
      have hcommand : Script.Spec (fun t => t = w)
          (Script.command fun w => (effect r w).pass e) I (mid r) := by
        refine Script.Spec.command ?_
        rintro _ rfl
        have heff := heffect r _ hw hr
        exact ⟨hI, hmid r _ heff, heff⟩
      exact Script.Spec.seq hcommand (hnext r)

/-- A command without an effect keeps what every command keeps. -/
lemma spec_query {J : KeyWorld → Prop} (hJ : ∀ w, J w → I w) (hpass : ∀ w, J w → J (w.pass e))
    (hnext : ∀ r, Script.Spec J (next r) I post) : Script.Spec J (query e next) I post :=
  spec_exec (fun w hw => ⟨hJ w hw, hJ _ (hpass w hw)⟩) (fun _ w hw _ => hpass w hw)
    (fun _ => hJ) hnext

lemma spec_waitFor {J : KeyWorld → Prop} (hJ : ∀ w, J w → I w)
    (hpass : ∀ w, J w → J (w.pass e)) (probe : Result → Bool) (rounds : ℕ) :
    Script.Spec J (waitFor e probe rounds) I J := by
  induction rounds with
  | zero => exact Script.Spec.fail hJ
  | succ rounds ih =>
      refine spec_query hJ hpass fun r => ?_
      split_ifs
      · exact Script.Spec.skip fun w hw => ⟨hJ w hw, hw⟩
      · exact Script.Spec.fail hJ
      · refine Script.Spec.seq (Script.Spec.command fun w hw => ?_) ih
        exact ⟨hJ w hw, hJ _ (hpass w hw), hpass w hw⟩

/-- The state behind a kubeadm command that uploads the key it prints. -/
def Uploaded (e : ℕ → Reply) (I : KeyWorld → Prop) (printed : Option String) (w : KeyWorld) :
    Prop :=
  match printed with
  | some key => ∃ before, I before ∧ w = (before.upload e key).pass e
  | none => I w

/-- `uploading`: once the key is saved, it is the one in the file. -/
lemma spec_uploading (h : Keeps e I H) {printed : Result → Option String}
    {next : String → Script KeyWorld} (hprinted : ∀ r key, printed r = some key → Stored key)
    (hnext : ∀ key, Script.Spec (H key) (next key) I post) :
    Script.Spec I (uploading e printed next) I post := by
  have hmid : ∀ r w, Uploaded e I (printed r) w → I w := by
    intro r w hw
    unfold Uploaded at hw
    split at hw
    · obtain ⟨before, hbefore, rfl⟩ := hw
      exact h.upload _ before hbefore
    · exact hw
  refine spec_exec (fun w hw => ⟨hw, h.pass w hw⟩) (fun r w hw _ => ?_) hmid fun r => ?_
  · unfold Uploaded
    split
    · exact ⟨w, hw, rfl⟩
    · exact h.pass w hw
  · cases hp : printed r with
    | none => exact Script.Spec.fail fun w hw => hmid r w (hp ▸ hw)
    | some key =>
        have hkey := hprinted r key hp
        refine spec_exec (fun w hw => ?_) ?_ (fun _ => h.holds key) fun _ => hnext key
        · have hI := hmid r w (hp ▸ hw)
          exact ⟨hI, h.pass w hI⟩
        · rintro _ _ ⟨before, hbefore, rfl⟩ -
          exact h.save key before hkey hbefore

/-- `certificate_key`: the key handed on is the one in the file. -/
lemma spec_certificateKey (h : Keeps e I H) {fresh : Bool} {next : String → Script KeyWorld}
    (hfile : fresh = false → ∀ w text, I w → w.file = some text → Text.strip text ≠ "" →
      H (Text.strip text) w)
    (hnext : ∀ key, Script.Spec (H key) (next key) I post) :
    Script.Spec I (certificateKey e fresh next) I post := by
  refine Script.Spec.ask fun w hw => ?_
  by_cases hstored : (if fresh then "" else Text.strip (w.file.getD "")) ≠ ""
  · simp only [if_pos hstored]
    have hfresh : fresh = false := by
      by_contra hf
      exact hstored (if_pos (by simpa using hf))
    simp only [hfresh, Bool.false_eq_true, if_false] at hstored ⊢
    obtain ⟨text, htext⟩ : ∃ text, w.file = some text := by
      cases hf : w.file with
      | none => exact absurd hstored (by rw [hf]; decide)
      | some text => exact ⟨text, rfl⟩
    rw [htext] at hstored ⊢
    refine (hnext _).weaken ?_ (fun _ h => h) fun _ h => h
    rintro _ rfl
    exact hfile hfresh _ text hw htext hstored
  · simp only [if_neg hstored]
    refine (spec_uploading h (fun _ _ => stored_of_uploadKey) hnext).weaken ?_ (fun _ h => h)
      fun _ h => h
    rintro _ rfl
    exact hw

lemma spec_joinCommand {J : KeyWorld → Prop} (hJ : ∀ w, J w → I w)
    (hpass : ∀ w, J w → J (w.pass e)) {next : String → Script KeyWorld}
    (hnext : ∀ join, Script.Spec J (next join) I post) :
    Script.Spec J (joinCommand e next) I post := by
  refine spec_query hJ hpass fun r => ?_
  split_ifs
  · exact hnext _
  · exact Script.Spec.fail hJ

/-- `join_node` of a control plane, with the key in the file. -/
lemma spec_joinNode (h : Keeps e I H) (n : Node) (join key : String) :
    Script.Spec (H key) (joinNode e n join key) I (H key) := by
  refine spec_exec (fun w hw => ⟨h.holds key w hw, h.pass w (h.holds key w hw)⟩)
    (fun _ w hw _ => ?_) (fun _ => h.holds key) fun r => ?_
  · split_ifs
    · exact h.issue key w n _ hw
    · exact h.holdsPass key w hw
  · split_ifs
    · exact spec_waitFor (h.holds key) (h.holdsPass key) _ 30
    · exact Script.Spec.fail (h.holds key)

/-- `join_node` of a worker. -/
lemma spec_joinNode_worker (h : Keeps e I H) {n : Node} (hn : n.role ≠ .controlPlane)
    (join key : String) : Script.Spec I (joinNode e n join key) I I := by
  refine spec_exec (fun w hw => ⟨hw, h.pass w hw⟩) (fun _ w hw _ => ?_) (fun _ _ hw => hw)
    fun r => ?_
  · rw [if_neg hn]
    exact h.pass w hw
  · split_ifs
    · exact spec_waitFor (fun _ hw => hw) h.pass _ 30
    · exact Script.Spec.fail fun _ hw => hw

/-- `init_run`. -/
theorem spec_initRun (h : Keeps e I H) : Script.Spec I (initRun e) I I := by
  have hready : Script.Spec I (waitRouterReady e) I I :=
    spec_waitFor (fun _ hw => hw) h.pass _ 30
  refine spec_query (fun _ hw => hw) h.pass fun initialised => ?_
  split_ifs
  · refine Script.Spec.seq hready (spec_query (fun _ hw => hw) h.pass fun completed => ?_)
    rw [require]
    split_ifs
    · exact Script.Spec.skip fun w hw => ⟨hw, hw⟩
    · exact Script.Spec.fail fun _ hw => hw
  · refine spec_uploading h (fun _ _ => stored_of_initKey) fun key => ?_
    exact hready.weaken (h.holds key) (fun _ h => h) fun _ h => h

/-- The joins, with whatever `J` the join of each node to be joined keeps. -/
lemma spec_joinNodes {J : KeyWorld → Prop} (hJ : ∀ w, J w → I w)
    (hpass : ∀ w, J w → J (w.pass e)) {c : Cluster} {join key : String}
    (hnode : ∀ n ∈ joining c, Script.Spec J (joinNode e n join key) I J) :
    Script.Spec J (joinNodes e c join key) I J := by
  refine Script.Spec.each_mem (fun n hn => ?_) hJ
  by_cases hjoin : n.join = true
  · rw [if_pos hjoin]
    refine spec_query hJ hpass fun joined => ?_
    split_ifs
    · exact Script.Spec.skip fun w hw => ⟨hJ w hw, hw⟩
    · exact hnode n (List.mem_filter.mpr ⟨hn, hjoin⟩)
  · rw [if_neg hjoin]
    exact Script.Spec.skip fun w hw => ⟨hJ w hw, hw⟩

lemma spec_untaint {J : KeyWorld → Prop} (hJ : ∀ w, J w → I w)
    (hpass : ∀ w, J w → J (w.pass e)) (c : Cluster) :
    Script.Spec J (untaintControlPlanes e c) I J :=
  Script.Spec.each_mem (fun _ _ => spec_query hJ hpass fun _ =>
    Script.Spec.skip fun w hw => ⟨hJ w hw, hw⟩) hJ

/-- `create/kubeadm.join_run`. -/
theorem spec_joinRun (h : Keeps e I H)
    (hfile : ∀ w text, I w → w.file = some text → Text.strip text ≠ "" → H (Text.strip text) w)
    (c : Cluster) : Script.Spec I (joinRun e c) I I := by
  refine spec_joinCommand (fun _ hw => hw) h.pass fun join => ?_
  by_cases hneeds : (joining c).any (·.role = .controlPlane) = true
  · simp only [if_pos hneeds]
    refine spec_certificateKey h (fun _ => hfile) fun key => ?_
    have hjoins : Script.Spec (H key) (joinNodes e c join key) I (H key) :=
      spec_joinNodes (h.holds key) (h.holdsPass key) fun n _ => spec_joinNode h n join key
    have hall := Script.Spec.seq hjoins (spec_untaint (h.holds key) (h.holdsPass key) c)
    exact hall.weaken (fun _ h => h) (fun _ h => h) (h.holds key)
  · simp only [if_neg hneeds]
    refine Script.Spec.seq ?_ (spec_untaint (fun _ hw => hw) h.pass c)
    refine spec_joinNodes (fun _ hw => hw) h.pass fun n hn => spec_joinNode_worker h ?_ join ""
    intro hrole
    exact hneeds (List.any_eq_true.mpr ⟨n, hn, by simpa using hrole⟩)

/-- `node/add.join_run`: the stored key is not looked at. -/
theorem spec_addJoinRun (h : Keeps e I H) (n : Node) :
    Script.Spec I (Add.joinRun e n) I I := by
  refine spec_joinCommand (fun _ hw => hw) h.pass fun join => ?_
  split_ifs with hn
  · refine spec_certificateKey h (fun hf => by simp at hf) fun key => ?_
    exact (spec_joinNode h n join key).weaken (fun _ h => h) (fun _ h => h) (h.holds key)
  · exact spec_joinNode_worker h hn join ""

end Rules

/-! ### The key of a join -/

/-- The join's key was uploaded, at the time noted for the file. -/
def Join.FromFile (uploads : List (String × ℕ)) (j : Join) : Prop :=
  ∃ t, j.saved = some t ∧ (j.key, t) ∈ uploads ∧ t ≤ j.issuedAt

lemma Join.FromFile.mono {uploads more : List (String × ℕ)} {j : Join}
    (h : j.FromFile uploads) : j.FromFile (uploads ++ more) := by
  obtain ⟨t, hsaved, hmem, hle⟩ := h
  exact ⟨t, hsaved, List.mem_append_left more hmem, hle⟩

namespace KeyWorld

/-- What every run keeps. -/
structure Sound (w : KeyWorld) : Prop where
  file : ∀ text, w.file = some text → Text.strip text ≠ "" →
    ∃ t, w.saved = some t ∧ (Text.strip text, t) ∈ w.uploads
  past : ∀ u ∈ w.uploads, u.2 ≤ w.now
  joins : ∀ j ∈ w.joins, j.FromFile w.uploads

/-- `key` is the one in the file. -/
structure Holding (key : String) (w : KeyWorld) : Prop where
  sound : w.Sound
  saved : ∃ t, w.saved = some t ∧ (key, t) ∈ w.uploads

variable {e : ℕ → Reply} {w : KeyWorld}

lemma Sound.later (h : w.Sound) {now ticks : ℕ} (hnow : w.now ≤ now) :
    Sound { w with now := now, ticks := ticks } where
  file := h.file
  past u hu := (h.past u hu).trans hnow
  joins := h.joins

lemma Sound.pass (h : w.Sound) : (w.pass e).Sound := h.later (by omega)

lemma Holding.pass {key : String} (h : w.Holding key) : (w.pass e).Holding key :=
  ⟨h.sound.pass, h.saved⟩

lemma Sound.upload (h : w.Sound) (key : String) : ((w.upload e key).pass e).Sound where
  file text htext hne := by
    obtain ⟨t, hsaved, hmem⟩ := h.file text htext hne
    exact ⟨t, hsaved, List.mem_append_left _ hmem⟩
  past u hu := by
    cases List.mem_append.mp hu with
    | inl hold => exact (h.past u hold).trans (show w.now ≤ w.now + _ + _ by omega)
    | inr hnew =>
        obtain rfl := List.mem_singleton.mp hnew
        exact Nat.le_add_right _ _
  joins j hj := Join.FromFile.mono (h.joins j hj)

/-- A key just uploaded and saved is the one in the file. -/
lemma Sound.save (h : w.Sound) {key : String} (hkey : Stored key) :
    ((((w.upload e key).pass e).save key).pass e).Holding key := by
  have hup : ((w.upload e key).pass e).Sound := h.upload key
  have hlast : (key, w.now + (e w.ticks).before) ∈
      w.uploads ++ [(key, w.now + (e w.ticks).before)] :=
    List.mem_append_right _ (List.mem_singleton_self _)
  have hsaved : (((w.upload e key).pass e).save key).saved = some (w.now + (e w.ticks).before) := by
    simp [KeyWorld.save, KeyWorld.pass, KeyWorld.upload]
  have hsave : (((w.upload e key).pass e).save key).Sound := by
    refine ⟨fun text htext _ => ⟨_, hsaved, ?_⟩, hup.past, hup.joins⟩
    obtain rfl := Option.some.inj htext
    rw [hkey]
    exact hlast
  exact ⟨hsave.pass, _, hsaved, hlast⟩

lemma Holding.issue {key : String} (h : w.Holding key) (n : Node) (cmd : String) :
    ((w.issue n cmd key).pass e).Holding key := by
  obtain ⟨t, hsaved, hmem⟩ := h.saved
  have hissue : (w.issue n cmd key).Sound := by
    refine ⟨h.sound.file, h.sound.past, fun j hj => ?_⟩
    cases List.mem_append.mp hj with
    | inl hold => exact h.sound.joins j hold
    | inr hnew =>
        obtain rfl := List.mem_singleton.mp hnew
        exact ⟨t, hsaved, hmem, h.sound.past _ hmem⟩
  exact ⟨hissue.pass, t, hsaved, hmem⟩

lemma keeps_sound (e : ℕ → Reply) : Keeps e Sound Holding where
  pass _ h := h.pass
  upload key _ h := h.upload key
  save _ _ hkey h := h.save hkey
  holds _ _ h := h.sound
  holdsPass _ _ h := h.pass
  issue _ _ n cmd h := h.issue n cmd

lemma sound_start : start.Sound :=
  ⟨fun _ h => by simp [start] at h, fun _ h => by simp [start] at h,
    fun _ h => by simp [start] at h⟩

end KeyWorld

/-! ### The runs -/

/-- What happens to one cluster: time passes, a create gets through its init or its join phase or is
stopped in it, and so does an `add node` or `join node`. -/
inductive Call where
  | idle (seconds : ℕ)
  | init
  | join (c : Cluster)
  | add (n : Node)

/-- The phases before, between and after these only take time. -/
def Step (e : ℕ → Reply) (t : Trace.Transition KeyWorld Call) : Prop :=
  match t.label with
  | .idle seconds => t.target = { t.source with now := t.source.now + seconds }
  | .init => (initRun e).Reaches t.source t.target
  | .join c => (joinRun e c).Reaches t.source t.target
  | .add n => (Add.joinRun e n).Reaches t.source t.target

variable {e : ℕ → Reply} {ts : List (Trace.Transition KeyWorld Call)} {w : KeyWorld}

lemma sound_of_step {t : Trace.Transition KeyWorld Call} (h : Step e t) (hs : t.source.Sound) :
    t.target.Sound := by
  obtain ⟨source, label, target⟩ := t
  cases label with
  | idle seconds =>
      have htarget : target = { source with now := source.now + seconds } := h
      rw [htarget]
      exact KeyWorld.Sound.later hs (Nat.le_add_right _ _)
  | init => exact (spec_initRun (KeyWorld.keeps_sound e)).stops hs h
  | join c =>
      refine (spec_joinRun (KeyWorld.keeps_sound e) ?_ c).stops hs h
      exact fun w text hw htext hne => ⟨hw, hw.file text htext hne⟩
  | add n => exact (spec_addJoinRun (KeyWorld.keeps_sound e) n).stops hs h

/-- **Every join has the key that was last saved**, in every run. -/
theorem sound_of_run (run : Trace.Run (Step e) .start ts w) : w.Sound := by
  have hall : ∀ t ∈ ts, (fun _ => True) t := fun _ _ => trivial
  exact (run.invariant KeyWorld.sound_start (fun _ ht _ hs => sound_of_step ht hs) hall).1

/-- After two hours kubeadm's secret is gone. -/
def expiry : ℕ := 2 * 60 * 60

/-- The join's key was uploaded less than two hours before. -/
def Join.Fresh (uploads : List (String × ℕ)) (j : Join) : Prop :=
  ∃ t, (j.key, t) ∈ uploads ∧ t ≤ j.issuedAt ∧ j.issuedAt < t + expiry

/-- The join comes less than two hours after the upload whose key was last saved. -/
def Join.InTime (j : Join) : Prop := ∃ t, j.saved = some t ∧ j.issuedAt < t + expiry

instance (uploads : List (String × ℕ)) (j : Join) : Decidable (j.Fresh uploads) :=
  decidable_of_iff (∃ u ∈ uploads, u.1 = j.key ∧ u.2 ≤ j.issuedAt ∧ j.issuedAt < u.2 + expiry)
    ⟨fun ⟨u, hu, hkey, htime⟩ => ⟨u.2, hkey ▸ hu, htime⟩,
      fun ⟨t, hu, htime⟩ => ⟨(j.key, t), hu, rfl, htime⟩⟩

instance (j : Join) : Decidable j.InTime :=
  decidable_of_iff (∃ t ∈ j.saved, j.issuedAt < t + expiry) Iff.rfl

/-- **When no join of a run uses an expired key**: if every join comes less than two hours after the
upload whose key was last saved; and, as kubeadm never makes the same key twice, only then. -/
theorem fresh_iff_inTime (run : Trace.Run (Step e) .start ts w) :
    ((∀ j ∈ w.joins, j.InTime) → ∀ j ∈ w.joins, j.Fresh w.uploads) ∧
      ((w.uploads.map Prod.fst).Nodup →
        (∀ j ∈ w.joins, j.Fresh w.uploads) → ∀ j ∈ w.joins, j.InTime) := by
  have hsound := sound_of_run run
  constructor
  · intro htime j hj
    obtain ⟨t, hsaved, hmem, hle⟩ := hsound.joins j hj
    obtain ⟨t', hsaved', hlt⟩ := htime j hj
    obtain rfl := Option.some.inj (hsaved.symm.trans hsaved')
    exact ⟨t, hmem, hle, hlt⟩
  · intro hnodup hfresh j hj
    obtain ⟨t, hsaved, hmem, -⟩ := hsound.joins j hj
    obtain ⟨t', hmem', -, hlt⟩ := hfresh j hj
    have heq := List.inj_on_of_nodup_map hnodup hmem hmem' rfl
    obtain rfl : t = t' := congrArg Prod.snd heq
    exact ⟨t, hsaved, hlt⟩

/-! ### A create that is stopped and resumed -/

/-- Every command takes a minute and goes well; the first control plane is not initialised, the
second one not registered. -/
def replies (tick : ℕ) : Reply :=
  ⟨30, 30, some <| match tick with
    | 0 => ⟨1, "", ""⟩
    | 1 => ⟨0, "kubeadm join --token t --control-plane --certificate-key 0a1b\n", ""⟩
    | 3 => ⟨0, "ok", ""⟩
    | 4 => ⟨0, "kubeadm join 172.22.0.253:6443 --token t\n", ""⟩
    | 5 => ⟨1, "", ""⟩
    | _ => ⟨0, "", ""⟩⟩

/-- Behind the init phase. -/
def initialised : KeyWorld := (initRun replies KeyWorld.start).last .start

/-- So many seconds later. -/
def resumed (seconds : ℕ) : KeyWorld := { initialised with now := initialised.now + seconds }

/-- Behind the join phase of the create that goes on then. -/
def created (seconds : ℕ) : KeyWorld :=
  (joinRun replies Drain.twoPlanes (resumed seconds)).last (resumed seconds)

section Steps

variable (e : ℕ → Reply) (w : KeyWorld)

lemma step_init : Step e ⟨w, .init, (initRun e w).last w⟩ := Script.last_mem

lemma step_idle (seconds : ℕ) : Step e ⟨w, .idle seconds, { w with now := w.now + seconds }⟩ := rfl

lemma step_join (c : Cluster) : Step e ⟨w, .join c, (joinRun e c w).last w⟩ := Script.last_mem

end Steps

lemma run_created (seconds : ℕ) : Trace.Run (Step replies) .start
    [⟨.start, .init, initialised⟩, ⟨initialised, .idle seconds, resumed seconds⟩,
      ⟨resumed seconds, .join Drain.twoPlanes, created seconds⟩] (created seconds) :=
  ((Trace.Run.nil.snoc (step_init replies .start)).snoc
    (step_idle replies initialised seconds)).snoc
    (step_join replies (resumed seconds) Drain.twoPlanes)

/-- Resumed after ten minutes, the second control plane joins with a key that is good. -/
theorem fresh_created : (created 600).joins.map (·.node.text) = ["dev-control-plane-2"] ∧
    ∀ j ∈ (created 600).joins, j.Fresh (created 600).uploads :=
  ⟨by decide +kernel, (fresh_iff_inTime (run_created 600)).1 (by decide +kernel)⟩

/-- Resumed after three hours, the second control plane joins with the key of the init. -/
theorem not_fresh_created : ¬ ∀ e ts w, Trace.Run (Step e) .start ts w →
    ∀ j ∈ w.joins, j.Fresh w.uploads := by
  intro hall
  have hstale : ¬ ∀ j ∈ (created 10800).joins, j.Fresh (created 10800).uploads := by
    decide +kernel
  exact hstale (hall replies _ _ (run_created 10800))

/-! ### Nodes that join later -/

/-- Since `start`, no join came but with a key uploaded since. -/
structure Since (start : KeyWorld) (w : KeyWorld) : Prop where
  later : start.now ≤ w.now
  joins : ∀ j ∈ w.joins, j ∈ start.joins ∨ ∃ t, j.saved = some t ∧ start.now ≤ t

lemma keeps_since (e : ℕ → Reply) (start : KeyWorld) : Keeps e (Since start)
    fun _ w => Since start w ∧ ∃ t, w.saved = some t ∧ start.now ≤ t where
  pass w h := ⟨h.later.trans (show w.now ≤ w.now + _ + _ by omega), h.joins⟩
  upload key w h := ⟨h.later.trans (show w.now ≤ w.now + _ + _ by omega), h.joins⟩
  save key w _ h := by
    refine ⟨⟨h.later.trans (show w.now ≤ w.now + _ + _ + _ + _ by omega), h.joins⟩,
      w.now + (e w.ticks).before, ?_, h.later.trans (Nat.le_add_right _ _)⟩
    simp [KeyWorld.save, KeyWorld.pass, KeyWorld.upload]
  holds _ _ h := h.1
  holdsPass _ w h := ⟨⟨h.1.later.trans (show w.now ≤ w.now + _ + _ by omega), h.1.joins⟩, h.2⟩
  issue key w n cmd h := by
    refine ⟨⟨h.1.later.trans (show w.now ≤ w.now + _ + _ by omega), fun j hj => ?_⟩, h.2⟩
    cases List.mem_append.mp hj with
    | inl hold => exact h.1.joins j hold
    | inr hnew =>
        obtain rfl := List.mem_singleton.mp hnew
        exact Or.inr h.2

/-- **`add node` and `join node` use a key that the same call uploaded**, whatever the file
holds. -/
theorem uploads_of_addJoinRun {n : Node} {source target : KeyWorld}
    (h : (Add.joinRun e n).Reaches source target) :
    ∀ j ∈ target.joins, j ∈ source.joins ∨ ∃ t, j.saved = some t ∧ source.now ≤ t :=
  ((spec_addJoinRun (keeps_since e source) n).stops
    ⟨le_rfl, fun _ hj => Or.inl hj⟩ h).joins

end Tk8s.CertificateKey
