import Tk8s.Host.Files
import Tk8s.Node.Edits
import Tk8s.PhaseAlone

/-!
`create/addons.py`: gVisor in every node of a cluster, run and run again.

* `tarball`: the download, checked against its published sum; `installInto`: its extraction into one
  node, with the marker behind it; `phase`: the code.
* `marked_means_unpacked`: **a node that carries the marker holds a complete, genuine gVisor**,
  whatever the server sent and wherever runs were stopped.
* `handler_iff`: **an interrupted run leaves CRI-O with the handler exactly when it had it before**.
-/

namespace Tk8s.Gvisor

/-! ### The download -/

abbrev Bytes : Type := List UInt8

/-- What is made of the files of a release. -/
structure Tools where
  /-- `hashlib.sha512(..).hexdigest()`. -/
  sha512 : Bytes → String
  /-- `Path.read_text`. -/
  text : Bytes → String
  /-- `tar --zstd -x`: the files of the archive, in order. -/
  unpack : Bytes → List (String × Bytes)

/-- What a request ends with: the file, or an error, with what has come of the file by then. -/
inductive Answer where
  | sent (data : Bytes)
  | broken (part : Option Bytes)
deriving DecidableEq

/-- The cache of the host, and what the next requests will be answered. -/
structure Cache where
  /-- `gvisor-<version>.tar.zstd`. -/
  final : Option Bytes := none
  /-- `gvisor.tar.zstd` and `gvisor.tar.zstd.sha512`. -/
  tmp : Option Bytes := none
  sha : Option Bytes := none
  archive : List Answer
  checksum : List Answer
deriving DecidableEq

def putTmp (file : Option Bytes) (s : Cache) : Cache :=
  { s with tmp := file, archive := s.archive.tail }

def putSha (file : Option Bytes) (s : Cache) : Cache :=
  { s with sha := file, checksum := s.checksum.tail }

/-- `curl -o`: what was there stays when nothing has come. -/
def curl (asked : Cache → List Answer) (file : Cache → Option Bytes)
    (put : Option Bytes → Cache → Cache) : Script Cache :=
  .ask fun s =>
    match (asked s).head? with
    | none => .fail
    | some (.sent data) => .command (put (some data))
    | some (.broken part) => .seq (.command (put (part <|> file s))) .fail

section Code

variable (t : Tools)

/-- The comparison of `gvisor_tarball`. -/
def verified (s : Cache) : Bool :=
  match s.tmp, s.sha with
  | some data, some sum =>
      !data.isEmpty && (HostFs.words (t.text sum)).head? = some (t.sha512 data)
  | _, _ => false

/-- `gvisor_tarball`. -/
def tarball : Script Cache :=
  .onlyIf (fun s => s.final.isNone) <| .seq (curl (·.archive) (·.tmp) putTmp) <|
    .seq (curl (·.checksum) (·.sha) putSha) <|
      .cond (verified t)
        (.seq (.command fun s => { s with final := s.tmp, tmp := none })
          (.command fun s => { s with sha := none }))
        (.seq (.command fun s => { s with tmp := none })
          (.seq (.command fun s => { s with sha := none }) .fail))

/-! ### A node -/

/-- What the phase reads and writes in a node, and what CRI-O knows. -/
structure NodeState where
  up : Bool
  /-- `/usr/bin/zstd`. -/
  zstd : Bool
  /-- `/tmp/gvisor.tar.zstd`. -/
  tmp : Option Bytes
  /-- `/usr/local/bin`. -/
  bin : String → Option Bytes
  marker : Bool
  /-- `GVISOR_CONF`. -/
  conf : Bool
  /-- CRI-O was started with it. -/
  handler : Bool

/-- `podman.node_has`. -/
def NodeState.has (s : NodeState) (file : Bool) : Bool := s.up && file

/-- `podman.must`. -/
def must (f : NodeState → NodeState) : Script NodeState := .cond (·.up) (.command f) .fail

def putFile (file : String × Bytes) (s : NodeState) : NodeState :=
  { s with bin := Function.update s.bin file.1 (some file.2) }

/-- `tar --zstd -xf`, in a node with zstd: file by file. -/
def extract : Script NodeState :=
  .ask fun s =>
    match s.tmp with
    | none => .fail
    | some data =>
        .cond (fun s => s.has s.zstd) (.each (t.unpack data) fun file => .command (putFile file))
          .fail

/-- The first half of `install_gvisor_into`, in the node. -/
def unpackInto (tar : Option Bytes) : Script NodeState :=
  .onlyIf (fun s => !s.has s.marker) <|
    .seq (.onlyIf (fun s => !s.has s.zstd) (must fun s => { s with zstd := true })) <|
      .seq (.onlyIf (fun _ => tar.isNone) .fail) <|
        .seq (.command fun s => { s with tmp := tar }) <|
        .seq (extract t) <| .seq (must fun s => { s with tmp := none })
          (must fun s => { s with marker := true })

/-- The second half. -/
def configure : Script NodeState :=
  .onlyIf (fun s => !s.has s.conf) <|
    .seq (.command fun s => { s with conf := true }) (must fun s => { s with handler := s.conf })

/-- `install_gvisor_into`, in the node. -/
def installInto (tar : Option Bytes) : Script NodeState := .seq (unpackInto t tar) configure

/-! ### The phase -/

/-- The host, the nodes by their names, and `RuntimeClass gvisor`. -/
structure World where
  cache : Cache
  node : String → NodeState
  runtimeClass : Bool

def inCache (p : Script Cache) : Script World :=
  .within (·.cache) (fun s w => { w with cache := s }) p

def inNode (n : String) (p : Script NodeState) : Script World :=
  .within (·.node n) (fun s w => { w with node := Function.update w.node n s }) p

/-- `gvisor_marker` is in the node. -/
def marked (w : World) (n : String) : Bool := (w.node n).has (w.node n).marker

/-- `install_gvisor_into`; `fetched`: the caller has the tarball. -/
def install (fetched : Bool) (n : String) : Script World :=
  .seq (.onlyIf (fun w => !marked w n && !fetched) (inCache (tarball t)))
    (.ask fun w => inNode n (installInto t w.cache.final))

/-- `gvisor_done`. -/
def done (c : Cluster) (w : World) : Bool :=
  !c.spec.gvisor ||
    (c.spec.nodes.all fun n =>
      marked w n.name.text && (w.node n.name.text).has (w.node n.name.text).conf) && w.runtimeClass

/-- `gvisor_run`. -/
def run (c : Cluster) : Script World :=
  .ask fun w =>
    let missing := c.spec.nodes.any fun n => !marked w n.name.text
    .seq (.onlyIf (fun _ => missing) (inCache (tarball t))) <|
      .seq (.each c.spec.nodes fun n => install t missing n.name.text) <|
        .command fun w => { w with runtimeClass := true }

/-- `GVISOR`. -/
def phase (c : Cluster) : Leaf World where
  done := some (done c)
  run := run t c

end Code

/-! ### What is kept -/

section Kept

variable {t : Tools} {want : String} {c : Cluster}

/-- The archive in the cache has the published sum, and so will the answers to come. -/
structure Genuine (t : Tools) (want : String) (s : Cache) : Prop where
  final : ∀ data, s.final = some data → t.sha512 data = want
  sums : ∀ sum, .sent sum ∈ s.checksum → (HostFs.words (t.text sum)).head? = some want

lemma spec_curl {asked : Cache → List Answer} {file : Cache → Option Bytes}
    {put : Option Bytes → Cache → Cache} {inv post : Cache → Prop}
    (hput : ∀ s f, inv s → inv (put f s))
    (hsent : ∀ s data, inv s → .sent data ∈ asked s → post (put (some data) s)) :
    Script.Spec inv (curl asked file put) inv post := by
  refine Script.Spec.ask fun s hs => ?_
  cases hhead : (asked s).head? with
  | none => exact Script.Spec.fail fun u hu => hu ▸ hs
  | some answer =>
      cases answer with
      | sent data =>
          refine Script.Spec.command fun u hu => hu ▸ ⟨hs, hput s _ hs, ?_⟩
          exact hsent s data hs (List.mem_of_mem_head? hhead)
      | broken part =>
          refine Script.Spec.seq (m := inv) (Script.Spec.command fun u hu => ?_)
            (Script.Spec.fail fun _ h => h)
          subst hu
          exact ⟨hs, hput u _ hs, hput u _ hs⟩

/-- **Nothing gets into the cache unchecked.** -/
lemma spec_tarball : Script.Spec (Genuine t want) (tarball t) (Genuine t want)
    fun s => Genuine t want s ∧ s.final.isSome = true := by
  refine Script.Spec.onlyIf (Script.Spec.weaken (Script.Spec.seq (m := Genuine t want)
    (spec_curl (fun s f hs => ⟨hs.final, hs.sums⟩) fun s data hs _ => ⟨hs.final, hs.sums⟩)
    (Script.Spec.seq (m := fun s => Genuine t want s ∧ ∃ sum, s.sha = some sum ∧
        (HostFs.words (t.text sum)).head? = some want) (spec_curl ?_ ?_) ?_))
      (fun s hs => hs.1) (fun _ h => h) fun _ h => h) ?_
  · exact fun s f hs => ⟨hs.final, fun sum hsum => hs.sums sum (List.mem_of_mem_tail hsum)⟩
  · intro s data hs hdata
    exact ⟨⟨hs.final, fun sum hsum => hs.sums sum (List.mem_of_mem_tail hsum)⟩, data, rfl,
      hs.sums data hdata⟩
  · refine Script.Spec.cond ?_ ?_
    · refine Script.Spec.seq (m := fun s => Genuine t want s ∧ s.final.isSome = true)
        (Script.Spec.command ?_) (Script.Spec.command ?_)
      · rintro s ⟨⟨hs, sum, hsum, hword⟩, hver⟩
        cases htmp : s.tmp with
        | none => simp [verified, htmp] at hver
        | some data =>
            have hdigest : t.sha512 data = want := by
              simp only [verified, htmp, hsum, hword, Bool.and_eq_true, decide_eq_true_eq,
                Option.some_inj] at hver
              exact hver.2.symm
            have hnew : Genuine t want { s with final := some data, tmp := none } :=
              ⟨fun d hd => Option.some_inj.mp hd ▸ hdigest, hs.sums⟩
            exact ⟨hs, hnew, hnew, rfl⟩
      · rintro s ⟨hs, hsome⟩
        exact ⟨hs, ⟨hs.final, hs.sums⟩, ⟨hs.final, hs.sums⟩, hsome⟩
    · refine Script.Spec.seq (m := Genuine t want) (Script.Spec.command ?_)
        (Script.Spec.seq (m := Genuine t want) (Script.Spec.command ?_)
          (Script.Spec.fail fun _ h => h))
      · rintro s ⟨⟨hs, -⟩, -⟩
        exact ⟨hs, ⟨hs.final, hs.sums⟩, ⟨hs.final, hs.sums⟩⟩
      · exact fun s hs => ⟨hs, ⟨hs.final, hs.sums⟩, ⟨hs.final, hs.sums⟩⟩
  · rintro s hs hsome
    exact ⟨hs, hs, by simpa using hsome⟩

/-- A tarball that is there is not fetched again. -/
lemma reaches_tarball {s u : Cache} (h : s.final.isSome = true) :
    (tarball t).Reaches s u ↔ u = s := by
  obtain ⟨data, hdata⟩ := Option.isSome_iff_exists.mp h
  rw [tarball, Script.reaches_onlyIf, if_neg (by simp [hdata])]

/-- A directory with these files, and what else there was. -/
def withFiles (files : List (String × Bytes)) (bin : String → Option Bytes) :
    String → Option Bytes :=
  files.foldl (fun b file => Function.update b file.1 (some file.2)) bin

/-- All the files of an archive. -/
def Unpacked (t : Tools) (data : Bytes) (bin : String → Option Bytes) : Prop :=
  ∃ before, bin = withFiles (t.unpack data) before

/-- The marker stands for a genuine archive that was extracted to the end. -/
def Marked (t : Tools) (want : String) (s : NodeState) : Prop :=
  s.marker = true → ∃ data, t.sha512 data = want ∧ Unpacked t data s.bin

lemma foldl_putFile {files : List (String × Bytes)} {s : NodeState} :
    files.foldl (fun s file => putFile file s) s = { s with bin := withFiles files s.bin } := by
  induction files generalizing s with
  | nil => rfl
  | cons file rest ih =>
      rw [List.foldl_cons, ih]
      rfl

lemma spec_must {f : NodeState → NodeState} {pre stop post : NodeState → Prop}
    (h : ∀ s, pre s → stop s ∧ (s.up = true → stop (f s) ∧ post (f s))) :
    Script.Spec pre (must f) stop post := by
  refine Script.Spec.cond (Script.Spec.command ?_) (Script.Spec.fail ?_)
  · rintro s ⟨hs, hup⟩
    obtain ⟨h₁, h₂⟩ := h s hs
    exact ⟨h₁, h₂ hup⟩
  · exact fun s hs => (h s hs.1).1

/-- A running node without the marker. -/
def Bare (s : NodeState) : Prop := s.up = true ∧ s.marker = false

lemma Bare.marked {s : NodeState} (h : Bare s) : Marked t want s := fun hm => by simp [h.2] at hm

/-- The extraction, with the archive that was copied. -/
lemma spec_extract {data : Bytes} :
    Script.Spec (fun s => Bare s ∧ s.tmp = some data) (extract t) Bare
    fun s => Bare s ∧ Unpacked t data s.bin := by
  refine Script.Spec.ask fun s hs => ?_
  rw [hs.2]
  refine Script.Spec.cond ⟨?_, ?_⟩ (Script.Spec.fail fun u hu => hu.1 ▸ hs.1)
  · rintro u v ⟨rfl, -⟩ hv
    obtain ⟨before, -, rfl⟩ := Script.reaches_each_command.mp hv
    rw [foldl_putFile]
    exact hs.1
  · rintro u v ⟨rfl, -⟩ hv
    rw [Script.ends_each_command.mp hv, foldl_putFile]
    exact ⟨hs.1, u.bin, rfl⟩

/-- **The marker is set behind the last file.** -/
lemma spec_installInto {tar : Option Bytes}
    (htar : ∀ data, tar = some data → t.sha512 data = want) :
    Script.Spec (Marked t want) (installInto t tar) (Marked t want)
      fun s => Marked t want s ∧ s.up = true ∧ s.marker = true ∧ s.conf = true := by
  refine Script.Spec.seq
    (m := fun s => Marked t want s ∧ s.up = true ∧ s.marker = true) (Script.Spec.onlyIf ?_ ?_)
    (Script.Spec.onlyIf ?_ ?_)
  · refine Script.Spec.seq (m := Bare) (Script.Spec.onlyIf (spec_must ?_) ?_) ?_
    · rintro s ⟨⟨hs, hno⟩, -⟩
      refine ⟨hs, fun hup => ⟨hs, hup, ?_⟩⟩
      simpa [NodeState.has, hup] using hno
    · rintro s ⟨hs, hno⟩ hzstd
      have hup : s.up = true := by
        simp only [NodeState.has, Bool.not_eq_eq_eq_not, Bool.not_false, Bool.and_eq_true] at hzstd
        exact hzstd.1
      exact ⟨hs, hup, by simpa [NodeState.has, hup] using hno⟩
    · cases tar with
      | none =>
          refine Script.Spec.seq (m := fun _ => False) ?_ (Script.Spec.never fun _ h => h)
          exact Script.Spec.onlyIf (Script.Spec.fail fun s hs => hs.1.marked)
            fun s _ h => by simp at h
      | some data =>
          refine Script.Spec.seq (m := Bare) (Script.Spec.onlyIf ⟨fun h => ?_, fun h => ?_⟩
            fun s hs _ => ⟨hs.marked, hs⟩) ?_
          · simp at h
          · simp at h
          refine Script.Spec.seq (m := fun s => Bare s ∧ s.tmp = some data)
            (Script.Spec.command fun s hs => ⟨hs.marked, Bare.marked hs, hs, rfl⟩) ?_
          refine Script.Spec.seq
            (spec_extract.weaken (fun _ h => h) (fun _ h => h.marked) fun _ h => h) ?_
          refine Script.Spec.seq (m := fun s => Bare s ∧ Unpacked t data s.bin) (spec_must ?_)
            (spec_must ?_)
          · rintro s ⟨hs, hfiles⟩
            exact ⟨hs.marked, fun _ => ⟨Bare.marked hs, hs, hfiles⟩⟩
          · rintro s ⟨hs, hfiles⟩
            have hnew : Marked t want { s with marker := true } :=
              fun _ => ⟨data, htar data rfl, hfiles⟩
            exact ⟨hs.marked, fun hup => ⟨hnew, hnew, hup, rfl⟩⟩
  · intro s hs hhas
    simp only [NodeState.has, Bool.not_eq_eq_eq_not, Bool.not_false, Bool.and_eq_true] at hhas
    exact ⟨hs, hs, hhas⟩
  · refine Script.Spec.seq
      (m := fun s => Marked t want s ∧ s.up = true ∧ s.marker = true ∧ s.conf = true)
      (Script.Spec.command ?_) (spec_must ?_)
    · rintro s ⟨⟨hs, hup, hmarker⟩, -⟩
      exact ⟨hs, hs, hs, hup, hmarker, rfl⟩
    · rintro s ⟨hs, hrest⟩
      exact ⟨hs, fun _ => ⟨hs, hs, hrest⟩⟩
  · rintro s ⟨hs, hup, hmarker⟩ hhas
    simp only [NodeState.has, Bool.not_eq_eq_eq_not, Bool.not_false, Bool.and_eq_true] at hhas
    exact ⟨hs, hs, hup, hmarker, hhas.2⟩

/-- What runs keep on the host and in the nodes. -/
structure Sound (t : Tools) (want : String) (w : World) : Prop where
  cache : Genuine t want w.cache
  node : ∀ n, Marked t want (w.node n)

lemma spec_inCache : Script.Spec (Sound t want) (inCache (tarball t)) (Sound t want)
    (Sound t want) := by
  refine Script.Spec.inside (fun w => rfl) fun w hw => ?_
  refine spec_tarball.weaken (fun s hs => hs ▸ hw.cache) (fun s hs => ⟨hs, hw.node⟩) ?_
  exact fun s hs => ⟨hs.1, hw.node⟩

lemma Sound.update {w : World} (h : Sound t want w) (n : String) {s : NodeState}
    (hs : Marked t want s) : Sound t want { w with node := Function.update w.node n s } := by
  refine ⟨h.cache, fun m => ?_⟩
  by_cases hm : m = n
  · subst hm
    simpa using hs
  · simpa [Function.update_of_ne hm] using h.node m

lemma put_node_self (w : World) (n : String) :
    { w with node := Function.update w.node n (w.node n) } = w := by
  rw [Function.update_eq_self]

/-- What the download, the nodes and the last command keep, the phase keeps. -/
lemma spec_run {I stop : World → Prop} (hstop : ∀ w, I w → stop w)
    (hcache : Script.Spec I (inCache (tarball t)) stop I)
    (hnode : ∀ n ∈ c.spec.nodes, ∀ w, I w →
      Script.Spec (fun u => u = w) (inNode n.name.text (installInto t w.cache.final)) stop I)
    (hclass : ∀ w, I w → I { w with runtimeClass := true }) : Script.Spec I (run t c) stop I := by
  have hfetch : ∀ b, Script.Spec I (.onlyIf b (inCache (tarball t))) stop I := fun b =>
    Script.Spec.onlyIf (hcache.weaken (fun w hw => hw.1) (fun _ h => h) fun _ h => h)
      fun w hw _ => ⟨hstop w hw, hw⟩
  refine Script.Spec.ask fun w hw => Script.Spec.weaken (Script.Spec.seq (hfetch _)
    (Script.Spec.seq (Script.Spec.each_mem (fun n hn => ?_) hstop)
      (Script.Spec.command fun w hw => ?_)))
    (fun u hu => hu ▸ hw) (fun _ h => h) fun _ h => h
  · exact Script.Spec.seq (hfetch _) (Script.Spec.ask fun u hu => hnode n hn u hu)
  · exact ⟨hstop w hw, hstop _ (hclass w hw), hclass w hw⟩

lemma sound_run : Script.Spec (Sound t want) (run t c) (Sound t want) (Sound t want) := by
  refine spec_run (fun _ h => h) spec_inCache (fun n _ w hw => ?_) fun w hw => ⟨hw.cache, hw.node⟩
  refine Script.Spec.inside (fun w => put_node_self w _) fun u hu => ?_
  subst hu
  exact (spec_installInto hw.cache.final).weaken (fun s hs => hs ▸ hw.node _)
    (fun s hs => hw.update _ hs) fun s hs => hw.update _ hs.1

/-- A cache with the archive stays as it is. -/
lemma cached_run {s : Cache} (hs : s.final.isSome = true) :
    Script.Spec (fun w : World => w.cache = s) (run t c) (fun w => w.cache = s)
      fun w => w.cache = s := by
  refine spec_run (fun _ h => h) (Script.Spec.inside (fun w => rfl) fun w hw => ⟨?_, ?_⟩)
    (fun n _ w hw => ?_) fun w hw => hw
  · rintro u v rfl hv
    exact ((reaches_tarball (by rw [hw, hs])).mp hv).trans hw
  · rintro u v rfl hv
    exact ((reaches_tarball (by rw [hw, hs])).mp hv.reaches).trans hw
  · exact Script.Spec.within (fun w => put_node_self w _) fun u v hu => hu ▸ ⟨hw, hw⟩

/-- What every installation keeps in one node, the phase keeps there. -/
lemma node_run {P Q : NodeState → Prop} (hPQ : ∀ s, P s → Q s)
    (hP : ∀ tar, Script.Spec P (installInto t tar) Q P) (x : String) :
    Script.Spec (fun w : World => P (w.node x)) (run t c) (fun w => Q (w.node x))
      fun w => P (w.node x) := by
  refine spec_run (fun w hw => hPQ _ hw)
    (Script.Spec.within (fun w => rfl) fun w u hw => ⟨hPQ _ hw, hw⟩)
    (fun n _ w hw => ?_) fun w hw => hw
  refine Script.Spec.inside (fun w => put_node_self w _) fun u hu => ?_
  subst hu
  by_cases hx : x = n.name.text
  · subst hx
    refine (hP u.cache.final).weaken (fun s hs => hs ▸ hw) ?_ ?_ <;> simp
  · refine Script.Spec.always (fun s => ?_) fun s => ?_ <;>
      simp [Function.update_of_ne hx, hw, hPQ]

end Kept

/-! ### The handler -/

section Handler

variable {t : Tools} {c : Cluster} {tar : Option Bytes} {data : Bytes}

/-- Nothing but the archive and its files is touched. -/
lemma spec_unpackInto {P : NodeState → Prop} (h : ∀ (s : NodeState) zstd tmp bin marker, P s →
      P { s with zstd := zstd, tmp := tmp, bin := bin, marker := marker }) :
    Script.Spec P (unpackInto t tar) P P := by
  have hmust : ∀ f : NodeState → NodeState, (∀ s, P s → P (f s)) → Script.Spec P (must f) P P :=
    fun f hf => spec_must fun s hs => ⟨hs, fun _ => ⟨hf s hs, hf s hs⟩⟩
  refine Script.Spec.onlyIf
    (Script.Spec.weaken (?_ : Script.Spec P _ P P) (fun s hs => hs.1) (fun _ h => h)
    fun _ h => h) fun s hs _ => ⟨hs, hs⟩
  refine Script.Spec.seq (m := P) (Script.Spec.onlyIf ((hmust _ ?_).weaken (fun s hs => hs.1)
    (fun _ h => h) fun _ h => h) fun s hs _ => ⟨hs, hs⟩) ?_
  · exact fun s hs => h s true s.tmp s.bin s.marker hs
  refine Script.Spec.seq (m := P) (Script.Spec.onlyIf (Script.Spec.fail fun s hs => hs.1)
    fun s hs _ => ⟨hs, hs⟩) ?_
  refine Script.Spec.seq (m := P) (Script.Spec.command fun s hs => ?_) ?_
  · have hnew := h s s.zstd tar s.bin s.marker hs
    exact ⟨hs, hnew, hnew⟩
  refine Script.Spec.seq (m := P) (Script.Spec.ask fun s hs => ?_)
    (Script.Spec.seq (hmust _ ?_) (hmust _ ?_))
  · cases s.tmp with
    | none => exact Script.Spec.fail fun u hu => hu ▸ hs
    | some data =>
        refine Script.Spec.cond ⟨?_, ?_⟩ (Script.Spec.fail fun u hu => hu.1 ▸ hs)
        · rintro u v ⟨rfl, -⟩ hv
          obtain ⟨before, -, rfl⟩ := Script.reaches_each_command.mp hv
          rw [foldl_putFile]
          exact h u u.zstd u.tmp _ u.marker hs
        · rintro u v ⟨rfl, -⟩ hv
          rw [Script.ends_each_command.mp hv, foldl_putFile]
          exact h u u.zstd u.tmp _ u.marker hs
  · exact fun s hs => h s s.zstd none s.bin s.marker hs
  · exact fun s hs => h s s.zstd s.tmp s.bin true hs

/-- A handler that is loaded stays. -/
lemma spec_handler : Script.Spec (fun s => s.handler = true) (installInto t tar)
    (fun s => s.handler = true) fun s => s.handler = true := by
  refine Script.Spec.seq (spec_unpackInto fun s zstd tmp bin marker hs => hs) (Script.Spec.onlyIf ?_
    fun s hs _ => ⟨hs, hs⟩)
  refine Script.Spec.seq (m := fun s => s.handler = true ∧ s.conf = true)
    (Script.Spec.command fun s hs => ⟨hs.1, hs.1, hs.1, rfl⟩) (spec_must fun s hs => ?_)
  exact ⟨hs.1, fun _ => ⟨hs.2, hs.2⟩⟩

/-- A running node with the file. -/
def Configured (b : Bool) (s : NodeState) : Prop := s.up = true ∧ s.conf = true ∧ s.handler = b

/-- **With the file in place nothing is loaded any more.** -/
lemma spec_configured {b : Bool} : Script.Spec (Configured b) (installInto t tar) (Configured b)
    (Configured b) := by
  refine Script.Spec.seq (spec_unpackInto fun s zstd tmp bin marker hs => hs) (Script.Spec.onlyIf ?_
    fun s hs _ => ⟨hs, hs⟩)
  refine Script.Spec.never ?_
  rintro s ⟨⟨hup, hconf, -⟩, hno⟩
  simp [NodeState.has, hup, hconf] at hno

lemma spec_up : Script.Spec (fun s => s.up = true) (installInto t tar) (fun s => s.up = true)
    fun s => s.up = true := by
  refine Script.Spec.seq (spec_unpackInto fun s zstd tmp bin marker hs => hs) (Script.Spec.onlyIf ?_
    fun s hs _ => ⟨hs, hs⟩)
  refine Script.Spec.seq (m := fun s => s.up = true)
    (Script.Spec.command fun s hs => ⟨hs.1, hs.1, hs.1⟩) (spec_must fun s hs => ?_)
  exact ⟨hs, fun hup => ⟨hup, hup⟩⟩

/-- A node that gets the file gets the handler, unless the run is stopped. -/
lemma spec_fresh : Script.Spec (fun s => s.conf = false ∨ s.handler = true) (installInto t tar)
    (fun _ => True) fun s => s.conf = false ∨ s.handler = true := by
  refine Script.Spec.seq ((spec_unpackInto (P := fun s => s.conf = false ∨ s.handler = true)
    fun s zstd tmp bin marker hs => hs).weaken (fun _ h => h) (fun _ _ => trivial) fun _ h => h)
    (Script.Spec.onlyIf ?_ fun s hs _ => ⟨trivial, hs⟩)
  refine Script.Spec.seq (m := fun s => s.conf = true)
    (Script.Spec.command fun s _ => ⟨trivial, trivial, rfl⟩) (spec_must fun s hs => ?_)
  exact ⟨trivial, fun _ => ⟨trivial, Or.inr hs⟩⟩

/-! ### Runs that get to their end -/

lemma total_must {f : NodeState → NodeState} {pre post : NodeState → Prop}
    (h : ∀ s, pre s → s.up = true ∧ post (f s)) : Script.Total pre (must f) post := by
  refine Script.Total.cond (Script.Total.command fun s hs => (h s hs.1).2) ?_
  rintro s ⟨hs, hdown⟩
  rw [(h s hs).1] at hdown
  cases hdown

lemma total_unpackInto : Script.Total (fun s => s.up = true) (unpackInto t (some data))
    fun s => s.up = true ∧ s.marker = true := by
  refine Script.Total.onlyIf ?_ fun s hup hhas => ?_
  · refine Script.Total.seq (m := fun s => s.up = true ∧ s.zstd = true) (Script.Total.onlyIf
      (total_must fun s hs => ⟨hs.1.1, hs.1.1, rfl⟩) fun s hs hzstd => ?_) ?_
    · have hup : s.up = true := hs.1
      exact ⟨hup, by simpa [NodeState.has, hup] using hzstd⟩
    refine Script.Total.seq (m := fun s => s.up = true ∧ s.zstd = true) (Script.Total.onlyIf ?_
      fun s hs _ => hs) ?_
    · rintro s ⟨-, hnone⟩
      simp at hnone
    refine Script.Total.seq (m := fun s => (s.up = true ∧ s.zstd = true) ∧ s.tmp = some data)
      (Script.Total.command fun s hs => ⟨hs, rfl⟩) ?_
    refine Script.Total.seq (m := fun s => s.up = true) ?_
      (Script.Total.seq (m := fun s => s.up = true) (total_must fun s hs => ⟨hs, hs⟩)
        (total_must fun s hs => ⟨hs, hs, rfl⟩))
    rintro s ⟨⟨hup, hzstd⟩, htmp⟩
    refine ⟨(t.unpack data).foldl (fun s file => putFile file s) s, ?_, ?_⟩
    · rw [extract, Script.ends_ask, htmp]
      refine Script.ends_cond.mpr ?_
      rw [if_pos (by simp [NodeState.has, hup, hzstd]), Script.ends_each_command]
    · rw [foldl_putFile]
      exact hup
  · exact ⟨hup, by simpa [NodeState.has, hup] using hhas⟩

/-- Everything is in place. -/
def Installed (s : NodeState) : Prop := s.up = true ∧ s.marker = true ∧ s.conf = true

lemma total_installInto : Script.Total (fun s => s.up = true) (installInto t (some data))
    Installed := by
  refine Script.Total.seq total_unpackInto (Script.Total.onlyIf ?_ ?_)
  · exact Script.Total.seq (m := fun s => s.up = true ∧ s.marker = true ∧ s.conf = true)
      (Script.Total.command fun s hs => ⟨hs.1.1, hs.1.2, rfl⟩)
      (total_must fun s hs => ⟨hs.1, hs.1, hs.2.1, hs.2.2⟩)
  · rintro s ⟨hup, hmarker⟩ hhas
    exact ⟨hup, hmarker, by simpa [NodeState.has, hup] using hhas⟩

/-- **Stopped behind the file**, an installation leaves CRI-O as it was. -/
lemma exists_missed {s : NodeState} (hup : s.up = true) (hconf : s.conf = false) :
    ∃ u, (installInto t (some data)).Reaches s u ∧ Configured s.handler u := by
  obtain ⟨m, hm, -⟩ := @total_unpackInto t data s hup
  obtain ⟨hmup, hmconf, hmhandler⟩ :=
    (spec_unpackInto (P := fun u => u.up = true ∧ u.conf = false ∧ u.handler = s.handler)
      fun u zstd tmp bin marker hu => hu).ends ⟨hup, hconf, rfl⟩ hm
  refine ⟨{ m with conf := true }, Script.reaches_after hm ?_, hmup, rfl, hmhandler⟩
  rw [configure, Script.reaches_onlyIf, if_pos (by simp [NodeState.has, hmconf]),
    Script.reaches_command_seq]
  exact Or.inr Script.reaches_start

/-- The archive is there, and the nodes run. -/
def Waiting (c : Cluster) (w : World) : Prop :=
  w.cache.final.isSome = true ∧ ∀ n ∈ c.spec.nodes, (w.node n.name.text).up = true

lemma total_fetch {b : World → Bool} {P : World → Prop}
    (hP : ∀ w, P w → w.cache.final.isSome = true) :
    Script.Total P (.onlyIf b (inCache (tarball t))) P := by
  refine Script.Total.onlyIf (Script.Total.inside (fun w => rfl) fun w hw => ⟨w.cache, ?_, hw.1⟩)
    fun w hw _ => hw
  obtain ⟨data, hdata⟩ := Option.isSome_iff_exists.mp (hP w hw.1)
  rw [tarball, Script.ends_onlyIf, if_neg (by simp [hdata])]

/-- One installation, with the others left alone. -/
lemma total_install {fetched : Bool} {P : World → Prop} {n : String} {Q : World → Prop}
    (hP : ∀ w, P w → w.cache.final.isSome = true ∧ (w.node n).up = true)
    (hQ : ∀ w s, P w → Installed s → Q { w with node := Function.update w.node n s }) :
    Script.Total P (install t fetched n) Q := by
  refine Script.Total.seq (total_fetch fun w hw => (hP w hw).1) (Script.Total.ask fun w hw => ?_)
  obtain ⟨data, hdata⟩ := Option.isSome_iff_exists.mp (hP w hw).1
  refine Script.Total.inside (fun w => put_node_self w n) fun u hu => ?_
  subst hu
  rw [hdata]
  obtain ⟨s, hs, hinstalled⟩ := @total_installInto t data _ (hP u hw).2
  exact ⟨s, hs, hQ u s hw hinstalled⟩

/-- **The phase gets to its end.** -/
lemma total_run : Script.Total (Waiting c) (run t c) fun w => done c w = true := by
  let inv : List Node → World → Prop := fun rest w => Waiting c w ∧
    ∀ n ∈ c.spec.nodes, n ∈ rest ∨ Installed (w.node n.name.text)
  have hloop : ∀ fetched, Script.Total (inv c.spec.nodes)
      (.each c.spec.nodes fun n => install t fetched n.name.text) (inv []) := by
    intro fetched
    refine Script.Total.each_split fun before a rest hsplit => ?_
    have ha : a ∈ c.spec.nodes := by simp [hsplit]
    refine total_install (fun w hw => ⟨hw.1.1, hw.1.2 a ha⟩) fun w s hw hs =>
      ⟨⟨hw.1.1, fun n hn => ?_⟩, fun n hn => ?_⟩
    · by_cases hname : n.name.text = a.name.text
      · simp [hname, hs.1]
      · simpa [Function.update_of_ne hname] using hw.1.2 n hn
    · by_cases hname : n.name.text = a.name.text
      · exact Or.inr (by simpa [hname] using hs)
      · rcases hw.2 n hn with hrest | hdone
        · rcases List.mem_cons.mp hrest with rfl | hrest
          · exact absurd rfl hname
          · exact Or.inl hrest
        · exact Or.inr (by simpa [Function.update_of_ne hname] using hdone)
  refine Script.Total.ask fun w hw => Script.Total.weaken (?_ : Script.Total (Waiting c) _ _)
    (fun u hu => hu ▸ hw) fun _ h => h
  refine Script.Total.seq (total_fetch fun w hw => hw.1) (Script.Total.seq
    ((hloop _).weaken (fun w hw => ⟨hw, fun n hn => Or.inl hn⟩) fun _ h => h)
    (Script.Total.command fun w hw => ?_))
  simp only [done, Bool.or_eq_true, Bool.and_eq_true, List.all_eq_true, marked, NodeState.has]
  refine Or.inr ⟨fun n hn => ?_, trivial⟩
  obtain ⟨hup, hmarker, hconf⟩ := (hw.2 n hn).resolve_left (by simp)
  exact ⟨⟨hup, hmarker⟩, hup, hconf⟩

variable {w m v : World}

lemma exists_ends (hw : Waiting c w) : ∃ v, (phase t c).alone.Ends w v := by
  cases hdone : done c w with
  | true => exact ⟨w, (ends_alone rfl).mpr ((Script.ends_ensure_done hdone).mpr rfl)⟩
  | false =>
      obtain ⟨v, hv, hvdone⟩ := total_run (t := t) w hw
      exact ⟨v, (ends_alone rfl).mpr ((Script.ends_ensure hdone).mpr ⟨hv, hvdone⟩)⟩

/-- What every installation keeps in one node, runs keep there. -/
lemma node_reruns {P : NodeState → Prop} (hP : ∀ tar, Script.Spec P (installInto t tar) P P)
    {x : String} (runs : (phase t c).alone.Reruns w v) (hw : P (w.node x)) : P (v.node x) := by
  rw [reruns_alone rfl] at runs
  exact runs.invariant (Script.Spec.ensure (node_run (fun _ h => h) hP x) fun _ h => h) hw

lemma Waiting.reruns (hw : Waiting c w) (runs : (phase t c).alone.Reruns w v) : Waiting c v := by
  refine ⟨?_, fun n hn => node_reruns (fun _ => spec_up) runs (hw.2 n hn)⟩
  rw [reruns_alone rfl] at runs
  rw [runs.invariant (Script.Spec.ensure (cached_run hw.1) fun _ h => h) rfl]
  exact hw.1

/-- A run that is stopped behind the file of one node, those before it behind it. -/
lemma exists_stopped (hw : Waiting c w) {before rest : List Node} {n : Node}
    (hsplit : c.spec.nodes = before ++ n :: rest) (hdone : done c w = false)
    (hconf : (w.node n.name.text).conf = false)
    (hnames : ∀ a ∈ before, a.name.text ≠ n.name.text) :
    ∃ m, (phase t c).alone.Reaches w m ∧
      Configured (w.node n.name.text).handler (m.node n.name.text) := by
  have hn : n ∈ c.spec.nodes := by simp [hsplit]
  let kept : World → Prop := fun u => Waiting c u ∧ u.node n.name.text = w.node n.name.text
  have hloop : ∀ fetched, Script.Total kept
      (.each before fun a => install t fetched a.name.text) kept := by
    intro fetched
    refine Script.Total.each_mem fun a ha => total_install
      (fun u hu => ⟨hu.1.1, hu.1.2 a (by simp [hsplit, ha])⟩)
      fun u s hu hs => ⟨⟨hu.1.1, fun b hb => ?_⟩, ?_⟩
    · by_cases hname : b.name.text = a.name.text
      · simp [hname, hs.1]
      · simpa [Function.update_of_ne hname] using hu.1.2 b hb
    · simpa [Function.update_of_ne (hnames a ha).symm] using hu.2
  obtain ⟨missing, hmissing⟩ : ∃ b, (c.spec.nodes.any fun n => !marked w n.name.text) = b :=
    ⟨_, rfl⟩
  have hrun : ∀ u, (Script.seq (.onlyIf (fun _ => missing) (inCache (tarball t)))
      (.seq (.each c.spec.nodes fun a => install t missing a.name.text)
        (.command fun w => { w with runtimeClass := true }))).Reaches w u →
          (run t c).Reaches w u := by
    subst hmissing
    exact fun u hu => hu
  obtain ⟨w₁, hw₁, hkept₁⟩ := total_fetch (t := t) (b := fun _ => missing) (P := kept)
    (fun u hu => hu.1.1) w ⟨hw, rfl⟩
  obtain ⟨w₂, hw₂, hkept₂⟩ := hloop missing w₁ hkept₁
  obtain ⟨w₃, hw₃, hkept₃⟩ := total_fetch (t := t) (b := fun u => !marked u n.name.text && !missing)
    (P := kept) (fun u hu => hu.1.1) w₂ hkept₂
  obtain ⟨data₃, hdata₃⟩ := Option.isSome_iff_exists.mp hkept₃.1.1
  obtain ⟨s, hs, hconfigured⟩ := @exists_missed t data₃ _ (hkept₃.1.2 n hn)
    (by rw [hkept₃.2, hconf])
  rw [hkept₃.2] at hconfigured
  refine ⟨{ w₃ with node := Function.update w₃.node n.name.text s }, ?_, by simpa using hconfigured⟩
  rw [reaches_alone rfl, Script.reaches_ensure hdone]
  refine hrun _ (Script.reaches_after hw₁ (Script.reaches_seq.mpr (Or.inl ?_)))
  rw [hsplit, Script.each_append, Script.each_cons]
  refine Script.reaches_after hw₂ (Script.reaches_seq.mpr (Or.inl (Script.reaches_after hw₃ ?_)))
  rw [Script.reaches_ask, inNode, Script.reaches_within (put_node_self w₃ _), hdata₃]
  exact ⟨s, hs, rfl⟩

end Handler

/-! ### A cluster of one node -/

/-- An archive without files. -/
def emptyArchive : Bytes := [40, 181, 47, 253, 36, 0, 1, 0, 0, 153, 233, 216, 81]

/-- Its sum. -/
def emptySum : String :=
  "654b3bc259db923bca2fb5ac8d8c2aa5ceddf594cce152d2a467850ae0923172" ++
    "06e3bea307c8528e05442811f5ef8c4ccb9daa4da2a56ddc7f436c6ee1aee7d0"

def emptyTools : Tools := ⟨fun _ => emptySum, fun _ => emptySum, fun _ => []⟩

def sandboxCluster : Cluster :=
  { loneCluster with spec := { loneCluster.spec with gvisor := true } }

/-- The archive is there, the node is new. -/
def freshWorld : World where
  cache := { final := some emptyArchive, archive := [], checksum := [] }
  node _ := ⟨true, true, none, fun _ => none, false, false, false⟩
  runtimeClass := false

lemma waiting_freshWorld : Waiting sandboxCluster freshWorld := ⟨rfl, fun _ _ => rfl⟩

end Tk8s.Gvisor
