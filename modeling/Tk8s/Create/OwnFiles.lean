import Tk8s.Create.NameFree
import Tk8s.Create.Topology

/-!
Which `cluster.yaml` is whose, and what a create keeps of it.

* `Kept`: what holds of every `cluster.yaml` and unit directory as long as nothing is cut off, lost
  or skipped: the operator of its create still has the file of that create.
* `Working`: a create at work; `spec_saveCluster`: **what a save keeps**, and where the file is when
  it ends.
* `spec_script`: **what a create keeps** that runs preflight and plan.
* `fresh_of_start`: a careful create starts from files of its own.
-/

namespace Tk8s.Namesakes

open Delete (remoteHosts targetHosts)

variable {M W : Type} {lan : Lan M}

/-! ### Whose file it is -/

/-- Where the files of a create can be. -/
def Creation.places (cr : Creation M) (lan : Lan M) : List M :=
  cr.operator :: ((cr.ssh.getD []).filter (·.isSome)).map (lan.machine cr.operator)

/-- The operator reaches none of its hosts at its own machine. -/
def Creation.Apart (cr : Creation M) (lan : Lan M) : Prop :=
  ∀ t, some t ∈ cr.ssh.getD [] → lan.ssh cr.operator t ≠ cr.operator

/-- A cluster of this create. -/
structure Fits (lan : Lan M) (cr : Creation M) (c : Cluster) : Prop where
  status : c.status.isSome = true
  ssh : c.spec.hosts.map (·.map (·.ssh)) = cr.ssh
  operator : operatorOf c = cr.ssh.map fun _ => lan.hostname cr.operator

/-- The file is the one of this create. -/
def World.From (w : World M) (m : M) (g : ℕ) : Prop := ∃ f, w.file m = some f ∧ f.origin = g

/-- Every file is whole, and its operator has a file of the same create. -/
structure Backed (lan : Lan M) (w : World M) (m : M) (f : StateFile) (cr : Creation M) : Prop where
  made : w.creates[f.origin]? = some cr
  reads : ∃ c, f.reads = some c ∧ Fits lan cr c
  place : m ∈ cr.places lan
  operator : w.From cr.operator f.origin
  apart : cr.Apart lan

/-- What careful steps keep. A unit directory has the file of its create beside it, for as long as
there is a file of that create. -/
structure Kept (lan : Lan M) (w : World M) : Prop where
  files : ∀ {m f}, w.file m = some f → ∃ cr, Backed lan w m f cr
  units : ∀ {m g}, w.units m = some g → g < w.creates.length ∧ ∀ m', w.From m' g → w.From m g

lemma Creation.operator_mem (cr : Creation M) : cr.operator ∈ cr.places lan := by
  simp [Creation.places]

namespace Kept

variable {w : World M} {m o : M} {f : StateFile} {g : ℕ} {cr : Creation M} {c : Cluster}

lemma origin_lt (h : Kept lan w) (hf : w.file m = some f) : f.origin < w.creates.length := by
  obtain ⟨cr, hcr⟩ := h.files hf
  exact (List.getElem?_eq_some_iff.mp hcr.made).1

/-- A file that names a machine is from a create of that machine, which still has its file. -/
lemma of_named (h : Kept lan w) (hinj : Function.Injective lan.hostname) (hf : w.file m = some f)
    (hc : f.reads = some c) (hname : operatorOf c = some (lan.hostname o)) :
    w.From o f.origin := by
  obtain ⟨cr, hcr⟩ := h.files hf
  obtain ⟨c', hc', hfits⟩ := hcr.reads
  obtain rfl := Option.some_inj.mp (hc.symm.trans hc')
  have hop := hfits.operator.symm.trans hname
  obtain ⟨_, -, hhost⟩ := Option.map_eq_some_iff.mp hop
  exact hinj hhost ▸ hcr.operator

/-- A file of a create is written where the create may write. -/
lemma putFile [DecidableEq M] (h : Kept lan w) (hmade : w.creates[g]? = some cr) (hfits : Fits lan cr c)
    (hapart : cr.Apart lan) (hplace : m ∈ cr.places lan)
    (hop : w.From cr.operator g ∨ m = cr.operator ∧ ∀ m', w.units m' ≠ some g)
    (hown : ∀ f, w.file m = some f → f.origin = g) :
    Kept lan (w.putFile m (some ⟨g, some c⟩)) := by
  have hfrom : ∀ {m' g'}, w.From m' g' → (w.putFile m (some ⟨g, some c⟩)).From m' g' := by
    rintro m' g' ⟨f, hf, rfl⟩
    by_cases hm : m' = m
    · subst hm
      exact ⟨⟨g, some c⟩, by simp [World.putFile], (hown f hf).symm⟩
    · exact ⟨f, by simpa [World.putFile, hm] using hf, rfl⟩
  have hself : (w.putFile m (some ⟨g, some c⟩)).From m g :=
    ⟨⟨g, some c⟩, by simp [World.putFile], rfl⟩
  constructor
  · intro m' f' hf'
    by_cases hm : m' = m
    · subst hm
      obtain rfl : ⟨g, some c⟩ = f' := by simpa [World.putFile] using hf'
      refine ⟨cr, hmade, ⟨c, rfl, hfits⟩, hplace, ?_, hapart⟩
      cases hop with
      | inl he => exact hfrom he
      | inr he => exact he.1 ▸ hself
    · obtain ⟨cr', hcr'⟩ := h.files (by simpa [World.putFile, hm] using hf')
      exact ⟨cr', hcr'.made, hcr'.reads, hcr'.place, hfrom hcr'.operator, hcr'.apart⟩
  · intro m' g' hu
    obtain ⟨hlt, hall⟩ := h.units hu
    refine ⟨hlt, ?_⟩
    rintro m'' ⟨f'', hf'', rfl⟩
    by_cases hm'' : m'' = m
    · subst hm''
      obtain rfl : ⟨g, some c⟩ = f'' := by simpa [World.putFile] using hf''
      cases hop with
      | inl he => exact hfrom (hall _ he)
      | inr he => exact absurd hu (he.2 m')
    · exact hfrom (hall m'' ⟨f'', by simpa [World.putFile, hm''] using hf'', rfl⟩)

/-- A file goes, with nothing of its create behind it. -/
lemma dropFile [DecidableEq M] (h : Kept lan w)
    (hunits : ∀ g, w.units m = some g → ∀ m' ≠ m, ¬ w.From m' g)
    (hop : ∀ m' ≠ m, ∀ f cr, w.file m' = some f → Backed lan w m' f cr → cr.operator ≠ m) :
    Kept lan (w.putFile m none) := by
  have hfrom : ∀ {m' g}, m' ≠ m → w.From m' g → (w.putFile m none).From m' g := by
    rintro m' g hm ⟨f, hf, rfl⟩
    exact ⟨f, by simpa [World.putFile, hm] using hf, rfl⟩
  have hback : ∀ {m' f}, (w.putFile m none).file m' = some f → m' ≠ m ∧ w.file m' = some f := by
    intro m' f hf
    by_cases hm : m' = m
    · simp [World.putFile, hm] at hf
    · exact ⟨hm, by simpa [World.putFile, hm] using hf⟩
  constructor
  · intro m' f hf
    obtain ⟨hm, hold⟩ := hback hf
    obtain ⟨cr, hcr⟩ := h.files hold
    exact ⟨cr, hcr.made, hcr.reads, hcr.place, hfrom (hop m' hm f cr hold hcr) hcr.operator,
      hcr.apart⟩
  · intro m' g hu
    obtain ⟨hlt, hall⟩ := h.units hu
    refine ⟨hlt, ?_⟩
    rintro m'' ⟨f, hf, rfl⟩
    obtain ⟨hm'', hold⟩ := hback hf
    have hthere := hall m'' ⟨f, hold, rfl⟩
    by_cases hm' : m' = m
    · exact absurd ⟨f, hold, rfl⟩ (hunits _ (hm' ▸ hu) m'' hm'')
    · exact hfrom hm' hthere

/-- A unit directory goes. -/
lemma dropUnits [DecidableEq M] (h : Kept lan w) : Kept lan (w.putUnits m none) := by
  refine ⟨fun hf => ?_, fun {m' g} hu => ?_⟩
  · obtain ⟨cr, hcr⟩ := h.files hf
    exact ⟨cr, hcr.made, hcr.reads, hcr.place, hcr.operator, hcr.apart⟩
  · by_cases hm : m' = m
    · simp [World.putUnits, hm] at hu
    · exact h.units (by simpa [World.putUnits, hm] using hu)

/-- Units are written beside a file of the same create. -/
lemma putUnits [DecidableEq M] (h : Kept lan w) (hg : w.From m g) :
    Kept lan (w.putUnits m (some g)) := by
  refine ⟨fun hf => ?_, fun {m' g'} hu => ?_⟩
  · obtain ⟨cr, hcr⟩ := h.files hf
    exact ⟨cr, hcr.made, hcr.reads, hcr.place, hcr.operator, hcr.apart⟩
  · by_cases hm : m' = m
    · subst hm
      obtain rfl : g = g' := by simpa [World.putUnits] using hu
      obtain ⟨f, hf, rfl⟩ := hg
      exact ⟨h.origin_lt hf, fun _ _ => ⟨f, hf, rfl⟩⟩
    · exact h.units (by simpa [World.putUnits, hm] using hu)

/-- A create starts. -/
lemma begin (h : Kept lan w) (cr : Creation M) :
    Kept lan { w with creates := w.creates ++ [cr] } := by
  refine ⟨fun {m f} hf => ?_, fun {m g} hu => ?_⟩
  · obtain ⟨cr', hcr⟩ := h.files hf
    refine ⟨cr', ?_, hcr.reads, hcr.place, hcr.operator, hcr.apart⟩
    rw [List.getElem?_append_left (h.origin_lt hf)]
    exact hcr.made
  · obtain ⟨hlt, hall⟩ := h.units hu
    refine ⟨?_, hall⟩
    rw [List.length_append]
    omega

end Kept

/-! ### What a save keeps -/

/-- A create at work: nobody else's file is where it writes. -/
structure Working (lan : Lan M) (cr : Creation M) (g : ℕ) (w : World M) : Prop where
  kept : Kept lan w
  made : w.creates[g]? = some cr
  apart : cr.Apart lan
  own : ∀ m ∈ cr.places lan, ∀ f, w.file m = some f → f.origin = g
  started : w.From cr.operator g ∨ ∀ m, w.units m ≠ some g

/-- The file of the create is everywhere it belongs. -/
def Saved (lan : Lan M) (cr : Creation M) (g : ℕ) (w : World M) : Prop :=
  ∀ m ∈ cr.places lan, w.From m g

/-- The other hosts of a create. -/
lemma Fits.remotes {cr : Creation M} {c : Cluster} (h : Fits lan cr c) :
    cr.places lan = cr.operator :: (remoteHosts c).map (lan.machine cr.operator) := by
  rw [Creation.places, remoteHosts, ← h.ssh]
  cases c.spec.hosts with
  | none => rfl
  | some hosts => simp [List.filter_map, Function.comp_def]

section Save

variable [DecidableEq M] {cr : Creation M} {g : ℕ} {c : Cluster} {w : World M} {m : M}

lemma World.from_putFile {m' : M} {g' : ℕ} (hm : m' = m ∧ g' = g ∨ m' ≠ m ∧ w.From m' g') :
    (w.putFile m (some ⟨g, some c⟩)).From m' g' := by
  obtain ⟨rfl, rfl⟩ | ⟨hne, f, hf, rfl⟩ := hm
  · exact ⟨⟨g', some c⟩, by simp [World.putFile], rfl⟩
  · exact ⟨f, by simpa [World.putFile, hne] using hf, rfl⟩

lemma Working.putFile (h : Working lan cr g w) (hfits : Fits lan cr c) (hplace : m ∈ cr.places lan)
    (hop : w.From cr.operator g ∨ m = cr.operator) :
    Working lan cr g (w.putFile m (some ⟨g, some c⟩)) ∧
      (w.putFile m (some ⟨g, some c⟩)).From cr.operator g := by
  have hthere : (w.putFile m (some ⟨g, some c⟩)).From cr.operator g := by
    by_cases hm : cr.operator = m
    · exact World.from_putFile (Or.inl ⟨hm, rfl⟩)
    · exact World.from_putFile (Or.inr ⟨hm, hop.resolve_right fun he => hm he.symm⟩)
  refine ⟨⟨?_, h.made, h.apart, ?_, Or.inl hthere⟩, hthere⟩
  · refine h.kept.putFile h.made hfits h.apart hplace ?_ (h.own m hplace)
    cases hop with
    | inl he => exact Or.inl he
    | inr he =>
        cases h.started with
        | inl hs => exact Or.inl hs
        | inr hs => exact Or.inr ⟨he, hs⟩
  · intro m' hm' f hf
    by_cases hm : m' = m
    · subst hm
      obtain rfl : ⟨g, some c⟩ = f := by simpa [World.putFile] using hf
      rfl
    · exact h.own m' hm' f (by simpa [World.putFile, hm] using hf)

variable {cuts : Cuts M}

/-- **What a save keeps**, and where the file is when it ends. -/
theorem spec_saveCluster (hfits : Fits lan cr c) (hwhole : ∀ m, cuts m = none) :
    Script.Spec (Working lan cr g) (saveCluster lan cr.operator cuts g c) (Working lan cr g)
      fun w => Working lan cr g w ∧ Saved lan cr g w := by
  have hfirst : Script.Spec (Working lan cr g)
      (Script.command fun w => w.putFile cr.operator (some ⟨g, some c⟩)) (Working lan cr g)
      (fun w => Working lan cr g w ∧ w.From cr.operator g) := by
    refine Script.Spec.command fun w hw => ?_
    have hput := hw.putFile hfits cr.operator_mem (Or.inr rfl)
    exact ⟨hw, hput.1, hput⟩
  let inv (rest : List MachineId) (w : World M) : Prop :=
    (Working lan cr g w ∧ w.From cr.operator g) ∧
      ∀ id ∈ remoteHosts c, id ∈ rest ∨ w.From (lan.machine cr.operator id) g
  have hloop : Script.Spec (inv (remoteHosts c))
      (Script.each (remoteHosts c) fun id => writeCopy cuts g c (lan.machine cr.operator id))
      (Working lan cr g) (inv []) := by
    refine Script.Spec.each_split (fun before id rest hsplit => ?_) fun w hw => hw.1.1
    have hmem : lan.machine cr.operator id ∈ cr.places lan := by
      rw [hfits.remotes]
      exact List.mem_cons_of_mem _ (List.mem_map_of_mem (by simp [hsplit]))
    rw [writeCopy, hwhole]
    simp only [Script.skip_seq]
    refine Script.Spec.command fun w hw => ?_
    have hput := hw.1.1.putFile hfits hmem (Or.inl hw.1.2)
    refine ⟨hw.1.1, hput.1, hput, fun id' hid' => ?_⟩
    by_cases hm : lan.machine cr.operator id' = lan.machine cr.operator id
    · exact Or.inr (World.from_putFile (Or.inl ⟨hm, rfl⟩))
    · cases hw.2 id' hid' with
      | inl hin =>
          cases List.mem_cons.mp hin with
          | inl he => exact absurd (congrArg _ he) hm
          | inr hrest => exact Or.inl hrest
      | inr hthere => exact Or.inr (World.from_putFile (Or.inr ⟨hm, hthere⟩))
  refine (hfirst.weaken (fun _ h => h) (fun _ h => h) fun w hw => ?_).seq
    (hloop.weaken (fun _ h => h) (fun _ h => h) fun w hw => ?_)
  · exact ⟨hw, fun id hid => Or.inl hid⟩
  · refine ⟨hw.1.1, fun m hm => ?_⟩
    rw [hfits.remotes] at hm
    cases List.mem_cons.mp hm with
    | inl he => exact he ▸ hw.1.2
    | inr hmem =>
        obtain ⟨id, hid, rfl⟩ := List.mem_map.mp hmem
        exact (hw.2 id hid).resolve_left (by simp)

end Save

/-! ### What a create keeps -/

/-- A create between two commands. -/
structure Busy (lan : Lan M) (cr : Creation M) (g : ℕ) (j : Job M W) : Prop where
  origin : j.origin = g
  fits : Fits lan cr j.cluster
  working : Working lan cr g j.world

/-- A create whose file is everywhere. -/
def Written (lan : Lan M) (cr : Creation M) (g : ℕ) (j : Job M W) : Prop :=
  Busy lan cr g j ∧ Saved lan cr g j.world

section Create

variable {cr : Creation M} {g : ℕ} {cuts : Cuts M} {rest : Rest W} {full : String}

lemma Written.busy {j : Job M W} (h : Written lan cr g j) : Busy lan cr g j := h.1

/-- The rest of the hosts is nobody's file. -/
lemma spec_onOther {inv : Job M W → Prop} (h : ∀ j v, inv j → inv { j with other := v }) :
    Script.Spec inv (onOther rest full) inv inv := by
  refine Script.Spec.ask fun j hj => Script.Spec.within (fun _ => rfl) ?_
  intro s v hs
  have hs' := h s v (hs ▸ hj)
  exact ⟨hs', hs'⟩

lemma busy_other {j : Job M W} (v : W) (h : Busy lan cr g j) :
    Busy lan cr g { j with other := v } := ⟨h.origin, h.fits, h.working⟩

lemma spec_other_busy :
    Script.Spec (Busy lan cr g) (onOther rest full) (Busy lan cr g) (Busy lan cr g) :=
  spec_onOther fun _ v h => busy_other v h

lemma spec_other_written : Script.Spec (Written lan cr g) (onOther rest full) (Busy lan cr g)
    (Written lan cr g) :=
  (spec_onOther fun _ v h => ⟨busy_other v h.1, h.2⟩).weaken (fun _ h => h) (fun _ h => h.busy)
    fun _ h => h

/-- What create records fits the same create. -/
lemma Fits.recorded {c c' : Cluster} (h : Fits lan cr c) (hstatus : c'.status.isSome = true)
    (hhosts : c'.spec.hosts = c.spec.hosts) (hop : operatorOf c' = operatorOf c) :
    Fits lan cr c' :=
  ⟨hstatus, by rw [hhosts, h.ssh], by rw [hop, h.operator]⟩

lemma Fits.apply {c c' : Cluster} {r : Recording} (h : Fits lan cr c) (hc : r.apply c = .ok c') :
    Fits lan cr c' := by
  have hst := h.status
  cases r with
  | cni datapath cilium =>
      obtain rfl := Except.ok.inj hc
      exact h.recorded (by simpa [recordCni] using hst) rfl
        (by cases hs : c.status <;> simp [operatorOf, recordCni, hs])
  | completed phase time =>
      obtain rfl := Except.ok.inj hc
      exact h.recorded (by simpa [recordCompleted] using hst) rfl
        (by cases hs : c.status <;> simp [operatorOf, recordCompleted, hs])
  | podCidrs cidrs =>
      obtain ⟨nodes, -, rfl⟩ := withPodCidrs_eq_ok.mp hc
      exact h.recorded hst rfl rfl

/-- Every host that gets files is one of the create's. -/
lemma Fits.place_of_perHost {c : Cluster} (h : Fits lan cr c) {p : Option String × MachineId}
    (hp : p ∈ perHost c) : lan.machine cr.operator p.2 ∈ cr.places lan := by
  cases hid : p.2 with
  | none => exact cr.operator_mem
  | some t =>
      have hmem : some t ∈ cr.ssh.getD [] := by
        rw [← h.ssh]
        rw [perHost] at hp
        cases hh : c.spec.hosts with
        | none => simp [hh] at hp; simp [hp] at hid
        | some hosts =>
            simp only [hh, List.mem_append, List.mem_map] at hp
            obtain ⟨host, hhost, rfl⟩ | hp := hp
            · simp only [Option.map_some, Option.getD_some, List.mem_map]
              exact ⟨host, hhost, hid⟩
            · split at hp
              · simp at hp; simp [hp] at hid
              · simp at hp
      refine List.mem_cons_of_mem _ (List.mem_map.mpr ⟨some t, ?_, rfl⟩)
      simp [hmem]

variable [DecidableEq M]

/-- **What the context's save keeps.** -/
theorem spec_save (hwhole : ∀ m, cuts m = none) {f : Job M W → Cluster}
    (hf : ∀ j, Busy lan cr g j → Fits lan cr (f j)) :
    Script.Spec (Busy lan cr g) (save lan cr.operator cuts f) (Busy lan cr g)
      (Written lan cr g) := by
  refine Script.Spec.ask fun j hj => ?_
  have hnext : Script.Spec (fun j' => j' = j)
      (Script.command fun j' => { j' with cluster := f j }) (Busy lan cr g)
      (fun j' : Job M W => Busy lan cr g j' ∧ j'.cluster = f j) := by
    refine Script.Spec.command fun j' he => ?_
    subst he
    have hbusy : Busy lan cr g { j' with cluster := f j' } := ⟨hj.origin, hf j' hj, hj.working⟩
    exact ⟨hj, hbusy, hbusy, rfl⟩
  refine hnext.seq (Script.Spec.inside (fun _ => rfl) fun j' hj' => ?_)
  rw [hj.origin]
  refine (spec_saveCluster (hf j hj) hwhole).weaken ?_ (fun w hw => ?_) fun w hw => ?_
  · rintro _ rfl
    exact hj'.1.working
  · exact ⟨hj'.1.origin, hj'.1.fits, hw⟩
  · exact ⟨⟨hj'.1.origin, hj'.1.fits, hw.1⟩, hw.2⟩

/-- A create that wrote its file everywhere, or nowhere yet. -/
def Settled (lan : Lan M) (cr : Creation M) (g : ℕ) (j : Job M W) : Prop :=
  Busy lan cr g j ∧ ((j.world.file cr.operator).isSome = true → Saved lan cr g j.world)

lemma spec_recordPhase (hwhole : ∀ m, cuts m = none) :
    Script.Spec (Busy lan cr g) (recordPhase lan cr.operator cuts rest full) (Busy lan cr g)
      (Settled lan cr g) := by
  have hsave : Script.Spec (Busy lan cr g) (save lan cr.operator cuts fun j : Job M W =>
      recordCompleted j.cluster full (rest.now j.other)) (Busy lan cr g) (Written lan cr g) :=
    spec_save hwhole fun j hj => hj.fits.apply (r := .completed full (rest.now j.other)) rfl
  refine Script.Spec.onlyIf (hsave.weaken (fun j hj => hj.1) (fun _ h => h) ?_) fun j hj hb => ?_
  · exact fun j hj => ⟨hj.1, fun _ => hj.2⟩
  · refine ⟨hj, hj, fun hsome => ?_⟩
    simp [hj.fits.status, hsome] at hb

lemma spec_record_written (hwhole : ∀ m, cuts m = none) :
    Script.Spec (Written lan cr g) (recordPhase lan cr.operator cuts rest full) (Busy lan cr g)
      (Written lan cr g) := by
  have hsave : Script.Spec (Busy lan cr g) (save lan cr.operator cuts fun j : Job M W =>
      recordCompleted j.cluster full (rest.now j.other)) (Busy lan cr g) (Written lan cr g) :=
    spec_save hwhole fun j hj => hj.fits.apply (r := .completed full (rest.now j.other)) rfl
  refine Script.Spec.onlyIf (hsave.weaken (fun j hj => hj.1.busy) (fun _ h => h) fun _ h => h) ?_
  exact fun j hj _ => ⟨hj.busy, hj⟩

lemma Written.putUnits {j : Job M W} (h : Written lan cr g j) {m : M} (hm : m ∈ cr.places lan) :
    Written lan cr g { j with world := j.world.putUnits m (some g) } := by
  have hop := h.2 cr.operator cr.operator_mem
  exact ⟨⟨h.1.origin, h.1.fits, h.1.working.kept.putUnits (h.2 m hm), h.1.working.made,
    h.1.working.apart, h.1.working.own, Or.inl hop⟩, h.2⟩

lemma spec_unitsRun : Script.Spec (Written lan cr g) (unitsPhase lan cr.operator rest).run
    (Busy lan cr g) (Written lan cr g) := by
  have hunits : Script.Spec (Written lan cr g)
      (Script.ask fun j : Job M W => onWorld (Script.each (perHost j.cluster) fun h =>
        Script.command fun w => w.putUnits (lan.machine cr.operator h.2) (some j.origin)))
      (Busy lan cr g) (Written lan cr g) := by
    refine Script.Spec.ask fun j hj => Script.Spec.inside (fun _ => rfl) fun j' hj' => ?_
    subst hj'
    obtain rfl := hj.1.origin
    have hloop : Script.Spec (fun w => Written lan cr j'.origin { j' with world := w })
        (Script.each (perHost j'.cluster) fun h =>
          Script.command fun w => w.putUnits (lan.machine cr.operator h.2) (some j'.origin))
        (fun w => Written lan cr j'.origin { j' with world := w })
        (fun w => Written lan cr j'.origin { j' with world := w }) := by
      refine Script.Spec.each_keeps fun p hp => Script.Spec.command fun w hw => ?_
      have hput := hw.putUnits (hj.1.fits.place_of_perHost hp)
      exact ⟨hw, hput, hput⟩
    refine hloop.weaken ?_ (fun w h => h.busy) fun w h => h
    rintro _ rfl
    exact hj
  exact hunits.seq spec_other_written

lemma spec_installRun (hwhole : ∀ m, cuts m = none) :
    Script.Spec (Written lan cr g) (installPhase lan cr.operator cuts rest).run
      (Busy lan cr g) (Written lan cr g) := by
  refine spec_other_written.seq ((spec_save hwhole fun j hj => ?_).weaken (fun _ h => h.busy)
    (fun _ h => h) fun _ h => h)
  exact hj.fits.apply (r := .cni (rest.datapath j.other) rest.cilium) rfl

lemma spec_hostRoutesRun (hwhole : ∀ m, cuts m = none) :
    Script.Spec (Written lan cr g) (hostRoutesPhase lan cr.operator cuts rest).run
      (Busy lan cr g) (Written lan cr g) := by
  simp only [hostRoutesPhase]
  refine Script.Spec.ask fun j hj => ?_
  have hstart : ∀ j', j' = j → Busy lan cr g j' := fun j' he => he ▸ hj.busy
  by_cases hmiss : cidrMissing j.cluster (rest.cidrs j.other) = true
  · rw [if_pos hmiss]
    exact Script.Spec.fail hstart
  rw [if_neg hmiss]
  cases hc : withPodCidrs j.cluster (rest.cidrs j.other) with
  | error err => exact Script.Spec.fail hstart
  | ok c =>
      have hfits : Fits lan cr c := hj.1.fits.apply (r := .podCidrs (rest.cidrs j.other)) hc
      exact ((spec_save hwhole fun _ _ => hfits).weaken hstart (fun _ h => h) fun _ h => h).seq
        spec_other_written

/-- What every phase after plan keeps. -/
lemma spec_phase (hwhole : ∀ m, cuts m = none) :
    ∀ l ∈ (leavesOf "" (createPhases lan cr.operator cuts rest)).drop 2,
      Script.Spec (Written lan cr g) l.2.run (Busy lan cr g) (Written lan cr g) := by
  have hrest : ∀ full, Script.Spec (Written lan cr g) (restLeaf rest full).run (Busy lan cr g)
      (Written lan cr g) := fun _ => spec_other_written
  simp only [createPhases, leavesOf, Phase.leaves, List.append_nil, List.cons_append,
    List.nil_append, List.drop_succ_cons, List.drop_zero, List.forall_mem_cons, List.not_mem_nil,
    false_imp_iff, implies_true, and_true]
  exact ⟨hrest _, spec_unitsRun, hrest _, hrest _, hrest _, hrest _, hrest _, hrest _, hrest _,
    spec_installRun hwhole, hrest _, spec_hostRoutesRun hwhole, hrest _, hrest _, hrest _, hrest _⟩

end Create

/-! ### preflight -/

section Preflight

variable {cr : Creation M} {g : ℕ} {o : M} {rest : Rest W} {j t : Job M W}

/-- What an accepted host holds: nothing, or a file that names this operator. -/
lemma checkNameFree_eq_ok {c : Cluster} {w : World M} {name : String} {m : M} :
    checkNameFree c w name m = .ok () ↔
      (w.file m = none ∧ w.units m = none) ∨
        ∃ f c' st, w.file m = some f ∧ f.reads = some c' ∧ c'.status = some st ∧
          st.operator = operatorOf c := by
  rw [checkNameFree]
  cases hf : w.file m with
  | none => simp [Checked.refuseIf_eq_ok]
  | some f =>
      cases hc : f.reads with
      | none => simp [Checked.refuseIf_eq_ok, hc]
      | some c' => cases hst : c'.status <;> simp [Checked.refuseIf_eq_ok, hc, hst]

/-- The look at the hosts changes nothing, and it ends when every one of them is accepted. -/
lemma spec_checkNames : Script.Spec (fun j' => j' = j) (checkNames lan o) (fun j' => j' = j)
    fun j' => j' = j ∧ ∀ h ∈ hostsOf j.cluster,
      checkNameFree j.cluster j.world h.name.text (lan.machine o h.ssh) = .ok () := by
  refine Script.Spec.ask fun j' hj' => ?_
  subst hj'
  let inv (rest : List Host) (j : Job M W) : Prop := j = j' ∧ ∀ h ∈ hostsOf j'.cluster,
    h ∈ rest ∨ checkNameFree j'.cluster j'.world h.name.text (lan.machine o h.ssh) = .ok ()
  have hloop : Script.Spec (inv (hostsOf j'.cluster))
      (Script.each (hostsOf j'.cluster) fun h => Script.cond
        (fun j => (checkNameFree j.cluster j.world h.name.text (lan.machine o h.ssh)).isOk)
        Script.skip Script.fail) (fun j => j = j') (inv []) := by
    refine Script.Spec.each (fun h rest => ?_) fun j hj => hj.1
    refine Script.Spec.cond (Script.Spec.skip ?_) (Script.Spec.fail fun j hj => hj.1.1)
    rintro j ⟨⟨rfl, hall⟩, hok⟩
    refine ⟨rfl, rfl, fun h' hh' => ?_⟩
    cases hall h' hh' with
    | inr hdone => exact Or.inr hdone
    | inl hin =>
        cases List.mem_cons.mp hin with
        | inr hrest => exact Or.inl hrest
        | inl he =>
            rw [he]
            refine Or.inr ?_
            cases hc : checkNameFree j.cluster j.world h.name.text (lan.machine o h.ssh) with
            | error err => simp [hc, Except.isOk, Except.toBool] at hok
            | ok u => rfl
  refine hloop.weaken ?_ (fun _ h => h) fun j hj => ⟨hj.1, fun h hh => ?_⟩
  · rintro _ rfl
    exact ⟨rfl, fun h hh => Or.inl hh⟩
  · exact (hj.2 h hh).resolve_left (by simp)

end Preflight

/-! ### One create -/

section Run

variable {cr : Creation M} {g : ℕ} {i : Order M W} {j : Job M W}

/-- A create that has not looked at the hosts yet. -/
structure Fresh (lan : Lan M) (cr : Creation M) (g : ℕ) (j : Job M W) : Prop where
  origin : j.origin = g
  fits : Fits lan cr j.cluster
  kept : Kept lan j.world
  made : j.world.creates[g]? = some cr
  apart : cr.Apart lan
  own : ∀ f, j.world.file cr.operator = some f → f.origin = g
  started : j.world.From cr.operator g ∨ ∀ m, j.world.units m ≠ some g

/-- What preflight let through. -/
lemma Fresh.busy (h : Fresh lan cr g j) (hinj : Function.Injective lan.hostname)
    (hall : ∀ h ∈ hostsOf j.cluster,
      checkNameFree j.cluster j.world h.name.text (lan.machine cr.operator h.ssh) = .ok ()) :
    Busy lan cr g j := by
  refine ⟨h.origin, h.fits, h.kept, h.made, h.apart, fun m hm f hf => ?_, h.started⟩
  rw [h.fits.remotes] at hm
  cases List.mem_cons.mp hm with
  | inl he => exact h.own f (he ▸ hf)
  | inr hmem =>
      obtain ⟨id, hid, rfl⟩ := List.mem_map.mp hmem
      obtain ⟨host, hhost, rfl⟩ := List.mem_map.mp hid
      have hin : host ∈ hostsOf j.cluster := List.mem_of_mem_filter hhost
      obtain ⟨hnone, -⟩ | ⟨f', c', st, hf', hc', hst, hop⟩ := checkNameFree_eq_ok.mp (hall host hin)
      · exact absurd (hnone.symm.trans hf) (by simp)
      · obtain rfl := Option.some_inj.mp (hf.symm.trans hf')
        have hmulti : cr.ssh.isSome = true := by
          rw [← h.fits.ssh, Option.isSome_map]
          cases hh : j.cluster.spec.hosts with
          | none => simp [hostsOf, hh] at hin
          | some hosts => rfl
        obtain ⟨ids, hids⟩ := Option.isSome_iff_exists.mp hmulti
        have hname : operatorOf c' = some (lan.hostname cr.operator) := by
          rw [operatorOf, hst, Option.bind_some, hop, h.fits.operator, hids, Option.map_some]
        obtain ⟨f'', hf'', ho⟩ := h.kept.of_named hinj hf hc' hname
        exact ho ▸ h.own f'' hf''

/-- A create that runs preflight and plan, on hosts of its own, whose copies get through. -/
structure CarefulCreate (lan : Lan M) (o : M) (i : Order M W) (w : World M) : Prop where
  whole : ∀ m, i.cuts m = none
  only : i.call.only = none
  skip : "preflight" ∉ i.call.skip ∧ "plan" ∉ i.call.skip
  apart : ∀ h ∈ i.call.user.spec.hosts.getD [], ∀ t ∈ h.ssh, lan.ssh o t ≠ o
  own : ∀ f ∈ w.file o, ∀ c ∈ f.reads, (∀ s ∈ operatorOf c, s = lan.hostname o) ∧
    (c.multiHost = true → i.call.user.spec.hosts.isSome = true)

variable [DecidableEq M]

lemma spec_finish (hwhole : ∀ m, i.cuts m = none) :
    Script.Spec (Written lan cr g) (i.finish lan cr.operator) (fun j => Kept lan j.world)
      fun j => Kept lan j.world := by
  have hstop : ∀ j : Job M W, Busy lan cr g j → Kept lan j.world := fun j h => h.working.kept
  have hskip : Script.Spec (Written lan cr g) Script.skip (fun j : Job M W => Kept lan j.world)
      fun j => Kept lan j.world := Script.Spec.skip fun j h => ⟨hstop j h.1, hstop j h.1⟩
  by_cases hall : i.call.only ≠ none ∨ i.call.skip ≠ []
  · rw [Order.finish, if_pos hall]
    exact hskip
  rw [Order.finish, if_neg hall]
  refine Script.Spec.ask fun j hj => ?_
  have hjust : ∀ j', j' = j → Written lan cr g j' := fun j' he => he ▸ hj
  cases hst : j.cluster.status with
  | none => exact hskip.weaken hjust (fun _ h => h) fun _ h => h
  | some st =>
      by_cases hready : st.phase ≠ .ready
      · simp only [if_pos hready]
        have hsave : Script.Spec (fun j' => j' = j)
            (save lan cr.operator i.cuts fun j => j.cluster.withStatus { st with phase := .ready })
            (Busy lan cr g) (Written lan cr g) := by
          refine (spec_save hwhole fun j' hj' => ?_).weaken (fun j' he => (hjust j' he).busy)
            (fun _ h => h) fun _ h => h
          refine ⟨rfl, hj'.fits.ssh, ?_⟩
          rw [← hj.1.fits.operator, operatorOf, operatorOf, hst]
          rfl
        exact hsave.weaken (fun _ h => h) hstop fun j h => hstop j h.1
      · simp only [if_neg hready]
        exact hskip.weaken hjust (fun _ h => h) fun _ h => h

/-- **What a create keeps**, from any command line that runs preflight and plan. -/
theorem spec_script (hinj : Function.Injective lan.hostname) (hwhole : ∀ m, i.cuts m = none)
    (honly : i.call.only = none) (hskip : "preflight" ∉ i.call.skip ∧ "plan" ∉ i.call.skip) :
    Script.Spec (Fresh lan cr g) (i.script lan cr.operator) (fun j => Kept lan j.world)
      fun j => Kept lan j.world := by
  have hstop : ∀ j : Job M W, Busy lan cr g j → Kept lan j.world := fun j h => h.working.kept
  by_cases hdry : i.call.dryRun = true
  · rw [Order.script, if_pos hdry]
    exact Script.Spec.skip fun j h => ⟨h.kept, h.kept⟩
  have hnot : ∀ name : String, name ∉ i.call.skip → firstName name = name →
      (i.runner lan cr.operator).skipped name = false := by
    intro name hname hfirst
    simp [Runner.skipped, Order.runner, hname, hfirst]
  have hpreflight : Script.Spec (Fresh lan cr g)
      ((i.runner lan cr.operator).visit ("preflight", preflightPhase lan cr.operator i.call.rest))
      (fun j => Kept lan j.world) (Settled lan cr g) := by
    have hcheck : Script.Spec (Fresh lan cr g) (checkNames lan cr.operator)
        (fun j : Job M W => Kept lan j.world) (Busy lan cr g) := by
      constructor
      · intro j t hj ht
        rw [spec_checkNames.stops rfl ht]
        exact hj.kept
      · intro j t hj ht
        obtain ⟨rfl, hall⟩ := spec_checkNames.ends rfl ht
        exact hj.busy hinj hall
    have hrun : Script.Spec (Fresh lan cr g) (preflightPhase lan cr.operator i.call.rest).run
        (fun j : Job M W => Kept lan j.world) (Busy lan cr g) :=
      hcheck.seq (spec_other_busy.weaken (fun _ h => h) hstop fun _ h => h)
    refine Runner.spec_visit_cases ?_ (fun j h => ⟨h.kept, h.kept, h⟩) hrun
      (fun j h => ⟨hstop j h, fun hd => by simp [Order.runner] at hd⟩)
      ((spec_recordPhase hwhole).weaken (fun _ h => h) hstop fun _ h => h)
    rintro j - (hs | hd)
    · simp [hnot "preflight" hskip.1 (by decide)] at hs
    · simp [preflightPhase, Leaf.isDone] at hd
  have hrecord : ∀ full, Script.Spec (Written lan cr g)
      (recordPhase lan cr.operator i.cuts i.call.rest full) (fun j => Kept lan j.world)
      (Written lan cr g) :=
    fun _ => (spec_record_written hwhole).weaken (fun _ h => h) hstop fun _ h => h
  have hplan : Script.Spec (Settled lan cr g)
      ((i.runner lan cr.operator).visit ("plan", planPhase lan cr.operator i.cuts))
      (fun j => Kept lan j.world) (Written lan cr g) := by
    have hrun : Script.Spec (Busy lan cr g) (planPhase lan cr.operator i.cuts).run
        (fun j : Job M W => Kept lan j.world) (Written lan cr g) :=
      (spec_save hwhole fun j h => h.fits).weaken (fun _ h => h) hstop fun _ h => h
    refine Runner.spec_visit_cases ?_ (fun j h => ⟨hstop j h.1, hstop j h.1, h.1⟩) hrun
      (fun j h => ⟨hstop j h.1, fun _ => h⟩) (hrecord _)
    rintro j h (hs | hd)
    · simp [hnot "plan" hskip.2 (by decide)] at hs
    · have hfound : planDone cr.operator j = true := hd
      obtain ⟨f, hf, -⟩ := (Option.any_eq_true _ _).mp hfound
      exact ⟨hstop j h.1, h.1, h.2 (Option.isSome_iff_exists.mpr ⟨f, hf⟩)⟩
  have hrest : Script.Spec (Written lan cr g)
      (Script.each ((leavesOf "" (createPhases lan cr.operator i.cuts i.call.rest)).drop 2)
        (i.runner lan cr.operator).visit) (fun j => Kept lan j.world) (Written lan cr g) := by
    refine Script.Spec.each_mem (fun l hl => ?_) fun j h => hstop j h.1
    have hrun : Script.Spec (Written lan cr g) l.2.run (fun j : Job M W => Kept lan j.world)
        (Written lan cr g) := (spec_phase hwhole l hl).weaken (fun _ h => h) hstop fun _ h => h
    exact Runner.spec_visit_cases (fun j h _ => ⟨hstop j h.1, h⟩)
      (fun j h => ⟨hstop j h.1, hstop j h.1, h⟩) hrun (fun j h => ⟨hstop j h.1, fun _ => h⟩)
      (hrecord _)
  have hselected : (i.runner lan cr.operator).selected
      = .ok (leavesOf "" (createPhases lan cr.operator i.cuts i.call.rest)) := by
    simp only [Runner.selected, Order.runner, honly]
  have hrun : Script.Spec (Fresh lan cr g) (i.runner lan cr.operator).run
      (fun j : Job M W => Kept lan j.world) (Written lan cr g) := by
    rw [Runner.run, hselected]
    exact hpreflight.seq (hplan.seq hrest)
  rw [Order.script, if_neg hdry]
  exact hrun.seq (spec_finish hwhole)

end Run

/-! ### How a create starts -/

section Start

variable {o : M} {i : Order M W} {w : World M} {j : Job M W}

/-- The hosts of a cluster, as they are reached. -/
def sshOf (c : Cluster) : Option (List MachineId) := c.spec.hosts.map (·.map (·.ssh))

/-- A create without a `cluster.yaml`. -/
structure First (lan : Lan M) (o : M) (i : Order M W) (w : World M) (j : Job M W) : Prop where
  cluster : sshOf j.cluster = i.call.user.spec.hosts.map (·.map (·.ssh))
  status : j.cluster.status.isSome = true
  operator : operatorOf j.cluster = i.call.user.spec.hosts.map fun _ => lan.hostname o
  origin : j.origin = w.creates.length
  world : j.world = { w with creates := w.creates ++ [⟨o, sshOf j.cluster⟩] }

/-- A create that goes on with a `cluster.yaml`. -/
structure Resumed (i : Order M W) (w : World M) (f : StateFile) (c : Cluster) (j : Job M W) :
    Prop where
  reads : f.reads = some c
  cluster : sshOf j.cluster = i.call.user.spec.hosts.map (·.map (·.ssh))
  hosts : i.call.user.spec.hosts.isSome = true → sshOf c = sshOf j.cluster
  status : j.cluster.status = c.status
  isSome : j.cluster.status.isSome = true
  origin : j.origin = f.origin
  world : j.world = w

lemma plan_eq_ok {c : Cluster} (h : i.plan lan o w = .ok c) : ∃ found, Order.existing o w = .ok found ∧
    (∀ c₀ ∈ found, c₀.status ≠ none) ∧
      resolve i.call.user found (i.asked lan o).facts = .ok c := by
  simp only [Order.plan, Invocation.start, Checked.bind_eq_ok, Checked.exists_unit,
    Checked.refuseIf_eq_ok, Checked.pure_eq_ok] at h
  obtain ⟨found, hfound, j, ⟨hstatus, -, c', hc', rfl⟩, rfl⟩ := h
  exact ⟨found, hfound, fun c₀ hc₀ hnone => hstatus ⟨c₀, hc₀, hnone⟩, hc'⟩

lemma first_of_start (hfile : w.file o = none) (h : i.start lan o w = .ok j) :
    First lan o i w j := by
  simp only [Order.start, Checked.bind_eq_ok, hfile, Checked.pure_eq_ok] at h
  obtain ⟨c, hc, rfl⟩ := h
  obtain ⟨found, hfound, -, hresolve⟩ := plan_eq_ok hc
  obtain rfl : none = found := by simpa [Order.existing, hfile] using hfound
  have hssh := (ssh_of_resolve hresolve).1
  obtain ⟨index, t, -, rfl⟩ := resolve_eq_ok.mp hresolve
  exact ⟨hssh, rfl, rfl, rfl, rfl⟩

lemma resumed_of_start {f : StateFile} (hfile : w.file o = some f) (h : i.start lan o w = .ok j) :
    ∃ c, Resumed i w f c j := by
  simp only [Order.start, Checked.bind_eq_ok, hfile, Checked.pure_eq_ok] at h
  obtain ⟨c, hc, rfl⟩ := h
  obtain ⟨found, hfound, hstatus, hresolve⟩ := plan_eq_ok hc
  cases hreads : f.reads with
  | none => simp [Order.existing, hfile, hreads] at hfound
  | some c₀ =>
      obtain rfl : some c₀ = found := by simpa [Order.existing, hfile, hreads] using hfound
      have hssh := ssh_of_resolve hresolve
      have hsame : c.status = c₀.status := by
        obtain ⟨index, t, -, rfl⟩ := resolve_eq_ok.mp hresolve
        rfl
      have hsome := hstatus c₀ rfl
      exact ⟨c₀, hreads, hssh.1, fun hu => hssh.2 hu c₀ rfl, hsame,
        hsame ▸ Option.isSome_iff_ne_none.mpr hsome, rfl, rfl⟩

/-- **A careful create starts from files of its own.** -/
theorem fresh_of_start (hkept : Kept lan w) (hinj : Function.Injective lan.hostname)
    (hcareful : CarefulCreate lan o i w) (h : i.start lan o w = .ok j) :
    ∃ cr g, cr.operator = o ∧ Fresh lan cr g j := by
  have hapart : ∀ cr : Creation M, cr.operator = o → sshOf j.cluster = cr.ssh →
      sshOf j.cluster = i.call.user.spec.hosts.map (·.map (·.ssh)) → cr.Apart lan := by
    rintro cr rfl hcr hssh t ht
    rw [← hcr, hssh] at ht
    cases hu : i.call.user.spec.hosts with
    | none => simp [hu] at ht
    | some hosts =>
        simp only [hu, Option.map_some, Option.getD_some, List.mem_map] at ht
        obtain ⟨host, hhost, ht⟩ := ht
        exact hcareful.apart host (by simp [hu, hhost]) t ht
  cases hfile : w.file o with
  | none =>
      have hfirst := first_of_start hfile h
      refine ⟨⟨o, sshOf j.cluster⟩, w.creates.length, rfl, hfirst.origin, ?_, ?_, ?_, ?_, ?_, ?_⟩
      · refine ⟨hfirst.status, rfl, ?_⟩
        rw [hfirst.operator, hfirst.cluster, Option.map_map]
        rfl
      · rw [hfirst.world]
        exact hkept.begin _
      · simp [hfirst.world]
      · exact hapart _ rfl rfl hfirst.cluster
      · simp [hfirst.world, hfile]
      · refine Or.inr fun m hm => ?_
        rw [hfirst.world] at hm
        exact absurd (hkept.units hm).1 (lt_irrefl _)
  | some f =>
      obtain ⟨c, hres⟩ := resumed_of_start hfile h
      obtain ⟨cr, hback⟩ := hkept.files hfile
      obtain ⟨c', hc', hfits⟩ := hback.reads
      obtain rfl := Option.some_inj.mp (hres.reads.symm.trans hc')
      obtain ⟨hown, hmulti⟩ := hcareful.own f hfile c hres.reads
      have hop : cr.operator = o := by
        cases hssh : cr.ssh with
        | none =>
            have hplace := hback.place
            simp only [Creation.places, hssh, Option.getD_none, List.filter_nil, List.map_nil,
              List.mem_singleton] at hplace
            exact hplace.symm
        | some ids =>
            have hname := hfits.operator
            rw [hssh, Option.map_some] at hname
            exact hinj (hown _ hname)
      have hsame : sshOf j.cluster = cr.ssh := by
        cases hu : i.call.user.spec.hosts with
        | some hosts => rw [← hres.hosts (by simp [hu]), sshOf, hfits.ssh]
        | none =>
            have hsingle : c.multiHost ≠ true := fun hm => by simpa [hu] using hmulti hm
            have hnone : c.spec.hosts = none := by simpa [Cluster.multiHost] using hsingle
            rw [hres.cluster, hu, ← hfits.ssh, hnone]
            rfl
      refine ⟨cr, f.origin, hop, hres.origin, ⟨hres.isSome, hsame, ?_⟩, ?_, ?_, hback.apart, ?_, ?_⟩
      · rw [← hfits.operator, operatorOf, operatorOf, hres.status]
      · rw [hres.world]
        exact hkept
      · rw [hres.world]
        exact hback.made
      · rw [hres.world, hop]
        rintro f' hf'
        rw [Option.some_inj.mp (hfile.symm.trans hf')]
      · rw [hres.world, hop]
        exact Or.inl ⟨f, hfile, rfl⟩

end Start

end Tk8s.Namesakes
