import Tk8s.Create.OwnFiles

/-!
A fresh create and the leftovers of earlier ones.

* `spec_deleteCluster`: **what a careful delete keeps**, stopped anywhere.
* `FreshIsFree`, `RerunAccepted`: the two promises of preflight.
* `guarded_of_careful`: **both hold over every history of careful steps**.
* `not_guarded_lost`: a fresh create takes its own lost one for a rerun, and a copy that was cut off
  refuses the rerun.
-/

namespace Tk8s.Namesakes

open Delete (remoteHosts targetHosts)

variable {M W : Type} {lan : Lan M}

/-! ### One delete -/

section Delete

variable {cr : Creation M} {g : ℕ} {c : Cluster} {w : World M} {m o : M} {cuts : Cuts M}

/-- A create whose unit directories are gone. -/
structure Clearing (lan : Lan M) (cr : Creation M) (g : ℕ) (w : World M) : Prop where
  kept : Kept lan w
  made : w.creates[g]? = some cr
  apart : cr.Apart lan
  own : ∀ m ∈ cr.places lan, ∀ f, w.file m = some f → f.origin = g
  bare : ∀ m ∈ cr.places lan, w.units m = none

/-- The other hosts come first, the operator last. -/
lemma targetHosts_eq (c : Cluster) :
    ∃ l, targetHosts c = remoteHosts c ++ l ∧ (∀ id ∈ l, id = none) ∧ l ≠ [] := by
  cases hh : c.spec.hosts with
  | none => exact ⟨[none], by simp [targetHosts, remoteHosts, hh], by simp, by simp⟩
  | some hosts =>
      simp only [targetHosts, hh]
      refine ⟨_, rfl, fun id hid => ?_, ?_⟩
      · split at hid
        · simpa using hid
        · obtain ⟨host, hhost, rfl⟩ := List.mem_map.mp hid
          simpa using (List.mem_filter.mp hhost).2
      · split
        · simp
        · rename_i hsome
          simpa using hsome

/-- The operator of a file that this machine may delete. -/
lemma operator_eq {f : StateFile} (hinj : Function.Injective lan.hostname)
    (hback : Backed lan w o f cr) (hfits : Fits lan cr c)
    (hhere : managedElsewhere lan o c = false) : cr.operator = o := by
  cases hssh : cr.ssh with
  | none =>
      have hplace := hback.place
      simp only [Creation.places, hssh, Option.getD_none, List.filter_nil, List.map_nil,
        List.mem_singleton] at hplace
      exact hplace.symm
  | some ids =>
      have hmulti : c.multiHost = true := by
        rw [Cluster.multiHost, ← Option.isSome_map, hfits.ssh, hssh]
        rfl
      simp only [managedElsewhere, hmulti, hfits.operator, hssh, Option.map_some, Option.any_some,
        Bool.true_and, decide_eq_false_iff_not, not_not] at hhere
      exact hinj hhere

/-- Another host is not the operator. -/
lemma remote_ne_operator (hfits : Fits lan cr c) (hapart : cr.Apart lan) {id : MachineId}
    (hid : id ∈ remoteHosts c) : lan.machine cr.operator id ≠ cr.operator := by
  obtain ⟨host, hhost, rfl⟩ := List.mem_map.mp hid
  obtain ⟨hin, hsome⟩ := List.mem_filter.mp hhost
  obtain ⟨t, ht⟩ := Option.isSome_iff_exists.mp hsome
  rw [ht]
  refine hapart t ?_
  rw [← hfits.ssh]
  cases hh : c.spec.hosts with
  | none => simp [hh] at hin
  | some hosts =>
      rw [hh, Option.getD_some] at hin
      simpa using ⟨host, hin, ht⟩

/-- A cluster that leaves its mesh fits the same create. -/
lemma Fits.withoutPeer (h : Fits lan cr c) (peer : String) :
    Fits lan cr (Delete.withoutPeer c peer) := by
  have hst := h.status
  rw [Delete.withoutPeer, Delete.withPeers]
  cases hs : c.status with
  | none => exact h
  | some st => exact h.recorded rfl rfl (by simp [operatorOf, hs])

/-- A delete whose copies get through, on hosts that hold no other operator's cluster. -/
structure CarefulDelete (lan : Lan M) (o : M) (cuts : Cuts M) (w : World M) : Prop where
  whole : ∀ m, cuts m = none
  own : ∀ f ∈ w.file o, ∀ c ∈ f.reads, ∀ id ∈ targetHosts c, ∀ f' ∈ w.file (lan.machine o id),
    ∃ c' ∈ f'.reads, operatorOf c' = operatorOf c

/-- The create that a delete undoes. -/
lemma working_of_careful {f : StateFile} (hinj : Function.Injective lan.hostname)
    (hkept : Kept lan w) (hcareful : CarefulDelete lan cr.operator cuts w)
    (hf : w.file cr.operator = some f) (hc : f.reads = some c)
    (hback : Backed lan w cr.operator f cr) (hfits : Fits lan cr c) :
    Working lan cr f.origin w := by
  refine ⟨hkept, hback.made, hback.apart, fun m hm f' hf' => ?_, Or.inl ⟨f, hf, rfl⟩⟩
  rw [hfits.remotes] at hm
  cases List.mem_cons.mp hm with
  | inl he => rw [Option.some_inj.mp (hf.symm.trans (he ▸ hf'))]
  | inr hmem =>
      obtain ⟨id, hid, rfl⟩ := List.mem_map.mp hmem
      obtain ⟨l, htargets, -⟩ := targetHosts_eq c
      have htarget : id ∈ targetHosts c := by
        rw [htargets]
        exact List.mem_append_left _ hid
      obtain ⟨c', hc', hop⟩ := hcareful.own f hf c hc id htarget f' hf'
      obtain ⟨ids, hids⟩ : ∃ ids, cr.ssh = some ids := by
        cases hh : c.spec.hosts with
        | none => simp [remoteHosts, hh] at hid
        | some hosts => exact ⟨_, by rw [← hfits.ssh, hh]; rfl⟩
      have hname : operatorOf c' = some (lan.hostname cr.operator) := by
        rw [hop, hfits.operator, hids]
        rfl
      obtain ⟨f'', hf'', ho⟩ := hkept.of_named hinj hf' hc' hname
      rw [← ho, Option.some_inj.mp (hf.symm.trans hf'')]

variable [DecidableEq M]

/-- A file of the create goes: another host's, or the operator's once the others are gone. -/
lemma Clearing.dropFile (h : Clearing lan cr g w) (hm : m ∈ cr.places lan)
    (hlast : m = cr.operator → ∀ m' ∈ cr.places lan, m' ≠ m → w.file m' = none) :
    Clearing lan cr g (w.putFile m none) := by
  refine ⟨h.kept.dropFile (fun g' hu => ?_) fun m' hm' f cr' hf hback he => ?_, h.made, h.apart,
    fun m' hm' f hf => ?_, h.bare⟩
  · exact absurd ((h.bare m hm).symm.trans hu) (by simp)
  · obtain ⟨f', hf', ho⟩ := he ▸ hback.operator
    have hg : f.origin = g := ho ▸ h.own m hm f' hf'
    obtain rfl : cr' = cr := by
      have hmade := hback.made
      rw [hg, h.made] at hmade
      exact (Option.some_inj.mp hmade).symm
    exact absurd ((hlast he.symm m' hback.place hm').symm.trans hf) (by simp)
  · by_cases he : m' = m
    · simp [World.putFile, he] at hf
    · exact h.own m' hm' f (by simpa [World.putFile, he] using hf)

/-- The unit directories go first, on every host. -/
lemma spec_dropUnits {ms : List M} :
    Script.Spec (Working lan cr g) (Script.each ms fun m => Script.command fun w => w.putUnits m none)
      (Kept lan) fun w => Working lan cr g w ∧ ∀ m ∈ ms, w.units m = none := by
  let inv (rest : List M) (w : World M) : Prop :=
    Working lan cr g w ∧ ∀ m ∈ ms, m ∈ rest ∨ w.units m = none
  have hloop : Script.Spec (inv ms)
      (Script.each ms fun m => Script.command fun w => w.putUnits m none) (Kept lan) (inv []) := by
    refine Script.Spec.each (fun m rest => Script.Spec.command fun w hw => ?_) fun w hw =>
      hw.1.kept
    have hstarted : (w.putUnits m none).From cr.operator g ∨
        ∀ m', (w.putUnits m none).units m' ≠ some g := by
      refine hw.1.started.imp (fun h => h) fun h m' => ?_
      by_cases he : m' = m
      · simp [World.putUnits, he]
      · simpa [World.putUnits, he] using h m'
    refine ⟨hw.1.kept, hw.1.kept.dropUnits, ⟨hw.1.kept.dropUnits, hw.1.made, hw.1.apart,
      hw.1.own, hstarted⟩, fun m' hm' => ?_⟩
    by_cases he : m' = m
    · exact Or.inr (by simp [World.putUnits, he])
    · refine (hw.2 m' hm').imp (fun h => (List.mem_cons.mp h).resolve_left he) fun h => ?_
      simpa [World.putUnits, he] using h
  refine hloop.weaken (fun w hw => ⟨hw, fun m hm => Or.inl hm⟩) (fun _ h => h) fun w hw => ?_
  exact ⟨hw.1, fun m hm => (hw.2 m hm).resolve_left (by simp)⟩

/-- The copies are gone, but for those to come. -/
def CopiesGone (lan : Lan M) (cr : Creation M) (g : ℕ) (c : Cluster) (rest : List MachineId)
    (w : World M) : Prop :=
  Clearing lan cr g w ∧ ∀ id ∈ remoteHosts c, id ∈ rest ∨ w.file (lan.machine cr.operator id) = none

/-- Then the copies. -/
lemma spec_dropCopies (hfits : Fits lan cr c) :
    Script.Spec (CopiesGone lan cr g c (remoteHosts c))
      (Script.each (remoteHosts c) fun id =>
        Script.command fun w => w.putFile (lan.machine cr.operator id) none)
      (Kept lan) (CopiesGone lan cr g c []) := by
  refine Script.Spec.each_split (fun before id rest hsplit => ?_) fun w hw => hw.1.kept
  refine Script.Spec.command fun w hw => ?_
  have hid : id ∈ remoteHosts c := by simp [hsplit]
  have hplace : lan.machine cr.operator id ∈ cr.places lan := by
    rw [hfits.remotes]
    exact List.mem_cons_of_mem _ (List.mem_map_of_mem hid)
  have hdrop := hw.1.dropFile hplace fun he =>
    absurd he (remote_ne_operator hfits hw.1.apart hid)
  refine ⟨hw.1.kept, hdrop.kept, hdrop, fun id' hid' => ?_⟩
  by_cases he : lan.machine cr.operator id' = lan.machine cr.operator id
  · exact Or.inr (by simp [World.putFile, he])
  · refine (hw.2 id' hid').imp (fun h => ?_) fun h => by simpa [World.putFile, he] using h
    exact (List.mem_cons.mp h).resolve_left fun hi => he (congrArg _ hi)

/-- The operator's own file goes last of all. -/
lemma spec_dropOwn (hfits : Fits lan cr c) {l : List MachineId} (hl : ∀ id ∈ l, id = none) :
    Script.Spec (CopiesGone lan cr g c [])
      (Script.each l fun id =>
        Script.command fun w => w.putFile (lan.machine cr.operator id) none)
      (Kept lan) (CopiesGone lan cr g c []) := by
  refine Script.Spec.each_mem (fun id hid => Script.Spec.command fun w hw => ?_) fun w hw =>
    hw.1.kept
  have hself : lan.machine cr.operator id = cr.operator := by rw [hl id hid]; rfl
  rw [hself]
  have hdrop := hw.1.dropFile cr.operator_mem fun _ m' hm' hne => by
    rw [hfits.remotes] at hm'
    obtain ⟨id', hid', rfl⟩ := List.mem_map.mp ((List.mem_cons.mp hm').resolve_left hne)
    exact (hw.2 id' hid').resolve_left (by simp)
  refine ⟨hw.1.kept, hdrop.kept, hdrop, fun id' hid' => Or.inr ?_⟩
  have hne := remote_ne_operator hfits hw.1.apart hid'
  simpa [World.putFile, hne] using (hw.2 id' hid').resolve_left (by simp)

/-- **What clearing the hosts keeps**, stopped anywhere. -/
theorem spec_clear (hfits : Fits lan cr c) :
    Script.Spec (Working lan cr g) (clear ((targetHosts c).map (lan.machine cr.operator)))
      (Kept lan) (Kept lan) := by
  obtain ⟨l, htargets, hl, hne⟩ := targetHosts_eq c
  have hall : ∀ m ∈ cr.places lan, m ∈ (targetHosts c).map (lan.machine cr.operator) := by
    intro m hm
    rw [hfits.remotes] at hm
    rw [htargets, List.map_append, List.mem_append]
    cases List.mem_cons.mp hm with
    | inr hr => exact Or.inl hr
    | inl he =>
        obtain ⟨id, hid⟩ := List.exists_mem_of_ne_nil l hne
        exact Or.inr (List.mem_map.mpr ⟨id, hid, by rw [hl id hid, he]; rfl⟩)
  have hfiles : Script.Spec (CopiesGone lan cr g c (remoteHosts c))
      (Script.each ((targetHosts c).map (lan.machine cr.operator)) fun m =>
        Script.command fun w => w.putFile m none) (Kept lan) (Kept lan) := by
    have heach : Script.each ((targetHosts c).map (lan.machine cr.operator))
        (fun m => Script.command fun w : World M => w.putFile m none) =
          Script.each (targetHosts c) fun id =>
            Script.command fun w => w.putFile (lan.machine cr.operator id) none := by
      rw [Script.each, Script.each, List.foldr_map]
    rw [heach, htargets, Script.each_append]
    exact ((spec_dropCopies hfits).seq (spec_dropOwn hfits hl)).weaken (fun _ h => h) (fun _ h => h)
      fun w hw => hw.1.kept
  refine spec_dropUnits.seq (hfiles.weaken (fun w hw => ?_) (fun _ h => h) fun _ h => h)
  exact ⟨⟨hw.1.kept, hw.1.made, hw.1.apart, hw.1.own, fun m hm => hw.2 m (hall m hm)⟩,
    fun id hid => Or.inl hid⟩

lemma spec_leaveMesh (hwhole : ∀ m, cuts m = none) (hfits : Fits lan cr c) {peers : List String} :
    Script.Spec (Working lan cr g) (leaveMesh lan cr.operator cuts g c peers) (Working lan cr g)
      (Working lan cr g) := by
  induction peers generalizing c with
  | nil => exact Script.Spec.skip fun w h => ⟨h, h⟩
  | cons peer rest ih =>
      have hsave := spec_saveCluster (g := g) (hfits.withoutPeer peer) hwhole
      exact (hsave.weaken (fun _ h => h) (fun _ h => h) fun _ h => h.1).seq
        (ih (hfits.withoutPeer peer))

/-- **What a careful delete keeps**, stopped anywhere. -/
theorem spec_deleteCluster (hinj : Function.Injective lan.hostname) :
    Script.Spec (fun w => Kept lan w ∧ CarefulDelete lan o cuts w) (deleteCluster lan o cuts)
      (Kept lan) (Kept lan) := by
  refine Script.Spec.ask fun w hw => ?_
  have hstop : ∀ w', w' = w → Kept lan w' := fun w' he => he ▸ hw.1
  cases hf : w.file o with
  | none =>
      have hbare : ∀ m f, w.file m = some f → ∀ cr, Backed lan w m f cr → cr.operator ≠ o := by
        intro m f hm cr hback he
        obtain ⟨f', hf', -⟩ := he ▸ hback.operator
        exact absurd (hf.symm.trans hf') (by simp)
      have hdrop : Kept lan ((w.putUnits o none).putFile o none) := by
        refine hw.1.dropUnits.dropFile (fun g hu => ?_) fun m _ f cr hm hback => ?_
        · simp [World.putUnits] at hu
        · exact hbare m f hm cr ⟨hback.made, hback.reads, hback.place, hback.operator, hback.apart⟩
      have hunits : Script.Spec (fun w' => w' = w)
          (Script.each [o] fun m => Script.command fun w => w.putUnits m none) (Kept lan)
          fun w' => w' = w.putUnits o none := by
        constructor
        · rintro _ w' rfl ht
          simp only [Script.each_cons, Script.each_nil, Script.reaches_seq, Script.reaches_command,
            Script.ends_command, Script.reaches_skip, exists_eq_left] at ht
          obtain (rfl | rfl) | rfl := ht
          · exact hw.1
          · exact hw.1.dropUnits
          · exact hw.1.dropUnits
        · rintro _ w' rfl ht
          simpa [Script.each_cons, Script.ends_seq] using ht
      have hfile : Script.Spec (fun w' => w' = w.putUnits o none)
          (Script.each [o] fun m => Script.command fun w => w.putFile m none) (Kept lan)
          (Kept lan) := by
        constructor
        · rintro _ w' rfl ht
          simp only [Script.each_cons, Script.each_nil, Script.reaches_seq, Script.reaches_command,
            Script.ends_command, Script.reaches_skip, exists_eq_left] at ht
          obtain (rfl | rfl) | rfl := ht
          · exact hw.1.dropUnits
          · exact hdrop
          · exact hdrop
        · rintro _ w' rfl ht
          simp only [Script.each_cons, Script.each_nil, Script.ends_seq, Script.ends_command,
            Script.ends_skip, exists_eq_left] at ht
          exact ht ▸ hdrop
      exact hunits.seq hfile
  | some f =>
      cases hc : f.reads with
      | none =>
          simp only [hc]
          exact Script.Spec.fail hstop
      | some c =>
          simp only [hc]
          by_cases hhere : managedElsewhere lan o c = true
          · rw [if_pos hhere]
            exact Script.Spec.fail hstop
          rw [if_neg hhere]
          rw [Bool.not_eq_true] at hhere
          obtain ⟨cr, hback⟩ := hw.1.files hf
          obtain ⟨c', hc', hfits⟩ := hback.reads
          obtain rfl := Option.some_inj.mp (hc.symm.trans hc')
          obtain rfl := operator_eq hinj hback hfits hhere
          have hworking := working_of_careful hinj hw.1 hw.2 hf hc hback hfits
          have hmesh : Script.Spec (fun w' => w' = w)
              (leaveMesh lan cr.operator cuts f.origin c (meshOf c)) (Kept lan)
              (Working lan cr f.origin) := by
            refine (spec_leaveMesh hw.2.whole hfits).weaken ?_ (fun _ h => h.kept) fun _ h => h
            rintro _ rfl
            exact hworking
          exact hmesh.seq (spec_clear hfits)

end Delete

/-! ### What preflight promises -/

/-- A create on several hosts that finds no `cluster.yaml` passes preflight only where no host holds
a unit directory or a state file. -/
def FreshIsFree (W : Type) (lan : Lan M) (w : World M) : Prop :=
  ∀ (o : M) (i : Order M W) (j j' : Job M W), i.start lan o w = .ok j →
    j.cluster.multiHost = true → w.file o = none →
      (preflightPhase lan o i.call.rest).run.Ends j j' → ∀ h ∈ hostsOf j.cluster,
        w.file (lan.machine o h.ssh) = none ∧ w.units (lan.machine o h.ssh) = none

/-- A rerun is not refused on a host that holds nothing but what this create left there. -/
def RerunAccepted (W : Type) (lan : Lan M) (w : World M) : Prop :=
  ∀ (o : M) (i : Order M W) (j : Job M W) (f : StateFile), i.start lan o w = .ok j →
    w.file o = some f → ∀ h ∈ hostsOf j.cluster,
      (∀ f' ∈ w.file (lan.machine o h.ssh), f'.origin = f.origin) →
        (∀ g ∈ w.units (lan.machine o h.ssh), g = f.origin) →
          checkNameFree j.cluster j.world h.name.text (lan.machine o h.ssh) = .ok ()

structure Guarded (W : Type) (lan : Lan M) (w : World M) : Prop where
  fresh : FreshIsFree W lan w
  rerun : RerunAccepted W lan w

/-- The files of a create without a `cluster.yaml` are those of the world. -/
lemma First.untouched {o : M} {i : Order M W} {w : World M} {j : Job M W}
    (h : First lan o i w j) : j.world.file = w.file ∧ j.world.units = w.units := by
  rw [h.world]
  exact ⟨rfl, rfl⟩

/-- Preflight ends only on hosts it accepts. -/
lemma accepted_of_preflight {o : M} {rest : Rest W} {j j' : Job M W}
    (h : (preflightPhase lan o rest).run.Ends j j') : ∀ h ∈ hostsOf j.cluster,
      checkNameFree j.cluster j.world h.name.text (lan.machine o h.ssh) = .ok () := by
  obtain ⟨mid, hcheck, -⟩ := Script.ends_seq.mp h
  exact (spec_checkNames.ends rfl hcheck).2

lemma freshIsFree_of_kept (hinj : Function.Injective lan.hostname) {w : World M}
    (hkept : Kept lan w) : FreshIsFree W lan w := by
  intro o i j j' hj hmulti hfile hends h hh
  have hfirst := first_of_start hfile hj
  obtain ⟨hfiles, hunits⟩ := hfirst.untouched
  have haccepted := accepted_of_preflight hends h hh
  rw [checkNameFree_eq_ok, hfiles, hunits] at haccepted
  obtain hfree | ⟨f, c, st, hf, hc, hst, hop⟩ := haccepted
  · exact hfree
  · have hname : operatorOf c = some (lan.hostname o) := by
      have hsome : i.call.user.spec.hosts.isSome = true := by
        have hs := congrArg Option.isSome hfirst.cluster
        rw [sshOf, Option.isSome_map, Option.isSome_map] at hs
        exact hs ▸ hmulti
      obtain ⟨hosts, hhosts⟩ := Option.isSome_iff_exists.mp hsome
      rw [operatorOf, hst, Option.bind_some, hop, hfirst.operator, hhosts]
      rfl
    obtain ⟨f', hf', -⟩ := hkept.of_named hinj hf hc hname
    exact absurd (hfile.symm.trans hf') (by simp)

lemma rerunAccepted_of_kept {w : World M} (hkept : Kept lan w) : RerunAccepted W lan w := by
  intro o i j f hj hfile h hh hfiles hunits
  obtain ⟨c, hres⟩ := resumed_of_start hfile hj
  obtain ⟨cr, hback⟩ := hkept.files hfile
  obtain ⟨c', hc', hfits⟩ := hback.reads
  obtain rfl := Option.some_inj.mp (hres.reads.symm.trans hc')
  rw [checkNameFree_eq_ok, hres.world]
  cases hf : w.file (lan.machine o h.ssh) with
  | some f' =>
      obtain ⟨cr', hback'⟩ := hkept.files hf
      obtain ⟨c', hc', hfits'⟩ := hback'.reads
      obtain rfl : cr = cr' := by
        have hmade := hback'.made
        rw [hfiles f' hf, hback.made] at hmade
        exact Option.some_inj.mp hmade
      obtain ⟨st, hst⟩ := Option.isSome_iff_exists.mp hfits'.status
      refine Or.inr ⟨f', c', st, rfl, hc', hst, ?_⟩
      calc st.operator = operatorOf c' := by rw [operatorOf, hst, Option.bind_some]
        _ = operatorOf c := hfits'.operator.trans hfits.operator.symm
        _ = operatorOf j.cluster := by rw [operatorOf, operatorOf, hres.status]
  | none =>
      refine Or.inl ⟨rfl, Option.eq_none_iff_forall_not_mem.mpr fun g hg => ?_⟩
      obtain ⟨f', hf', -⟩ := (hkept.units hg).2 o ⟨f, hfile, (hunits g hg).symm⟩
      exact absurd (hf.symm.trans hf') (by simp)

/-! ### Histories of careful steps -/

section History


lemma kept_start {o : M} {i : Order M W} {w : World M} {j : Job M W} (hkept : Kept lan w)
    (h : i.start lan o w = .ok j) : Kept lan j.world := by
  cases hfile : w.file o with
  | none =>
      rw [(first_of_start hfile h).world]
      exact hkept.begin _
  | some f =>
      obtain ⟨c, hres⟩ := resumed_of_start hfile h
      exact hres.world ▸ hkept

variable [DecidableEq M]

/-- A step that cuts off no copy, skips no look at the hosts, touches no other operator's hosts and
loses no `cluster.yaml` that another host still has a copy of. -/
def Careful (lan : Lan M) (t : Trace.Transition (World M) (Event M W)) : Prop :=
  match t.label with
  | .create o i => i.call.dryRun = true ∨ CarefulCreate lan o i t.source
  | .delete o cuts => CarefulDelete lan o cuts t.source
  | .lose o => ∀ f ∈ t.source.file o, ∀ c ∈ f.reads, ∀ s ∈ operatorOf c, ∀ m ≠ o,
      ∀ f' ∈ t.source.file m, ∀ c' ∈ f'.reads, operatorOf c' ≠ some s

lemma kept_lose {o : M} {w : World M} (hkept : Kept lan w)
    (h : ∀ f ∈ w.file o, ∀ c ∈ f.reads, ∀ s ∈ operatorOf c, ∀ m ≠ o,
      ∀ f' ∈ w.file m, ∀ c' ∈ f'.reads, operatorOf c' ≠ some s) :
    Kept lan (w.putFile o none) := by
  -- no file of the create is left on another machine
  have halone : ∀ m ≠ o, ∀ f f', w.file o = some f → w.file m = some f' →
      f'.origin ≠ f.origin := by
    intro m hm f f' hf hf' he
    obtain ⟨cr, hback⟩ := hkept.files hf
    obtain ⟨cr', hback'⟩ := hkept.files hf'
    obtain rfl : cr = cr' := by
      have hmade := hback'.made
      rw [he, hback.made] at hmade
      exact Option.some_inj.mp hmade
    obtain ⟨c, hc, hfits⟩ := hback.reads
    obtain ⟨c', hc', hfits'⟩ := hback'.reads
    cases hssh : cr.ssh with
    | none =>
        have hplace := hback.place
        have hplace' := hback'.place
        simp only [Creation.places, hssh, Option.getD_none, List.filter_nil, List.map_nil,
          List.mem_singleton] at hplace hplace'
        exact hm (hplace'.trans hplace.symm)
    | some ids =>
        have hname := hfits.operator
        have hname' := hfits'.operator
        rw [hssh, Option.map_some] at hname hname'
        exact h f hf c hc _ hname m hm f' hf' c' hc' hname'
  refine hkept.dropFile (fun g hu m hm hfrom => ?_) fun m hm f cr hf hback he => ?_
  · obtain ⟨f', hf', ho'⟩ := hfrom
    obtain ⟨f, hf, ho⟩ := (hkept.units hu).2 m ⟨f', hf', ho'⟩
    exact halone m hm f f' hf hf' (ho'.trans ho.symm)
  · obtain ⟨f', hf', ho⟩ := he ▸ hback.operator
    exact halone m hm f' f hf' hf ho.symm

/-- **A careful step keeps whose files they are.** -/
theorem kept_of_careful {t : Trace.Transition (World M) (Event M W)}
    (hinj : Function.Injective lan.hostname) (hstep : History lan t) (hcareful : Careful lan t)
    (hkept : Kept lan t.source) : Kept lan t.target := by
  obtain ⟨w, event, w'⟩ := t
  cases event with
  | lose o =>
      obtain rfl : w' = w.putFile o none := hstep
      exact kept_lose hkept hcareful
  | delete o cuts => exact (spec_deleteCluster hinj).stops ⟨hkept, hcareful⟩ hstep
  | create o i =>
      obtain he | ⟨j, j', hj, hreach, rfl⟩ : w' = w ∨ ∃ j j', i.start lan o w = .ok j ∧
        (i.script lan o).Reaches j j' ∧ w' = j'.world := hstep
      · exact he ▸ hkept
      obtain hdry | hcareful : i.call.dryRun = true ∨ CarefulCreate lan o i w := hcareful
      · rw [Order.script, if_pos hdry, Script.reaches_skip] at hreach
        exact hreach ▸ kept_start hkept hj
      · obtain ⟨cr, g, rfl, hfresh⟩ := fresh_of_start hkept hinj hcareful hj
        exact (spec_script hinj hcareful.whole hcareful.only hcareful.skip).stops hfresh hreach

end History

/-! ### Two machines -/

/-- Machines that are reached under their hostnames. -/
def plainLan : Lan String where
  hostname m := m
  ssh _ target := target

/-- `create cluster dev` on the machine `a` and the host `b`. -/
def createDev (cuts : Cuts String) : Order String Unit where
  call :=
    { user := twoHosts ⟨"192.168.1.64-79", range_lan⟩
      facts := twoHostsFacts
      rest := willing }
  other := ()
  cuts := cuts

/-- The states a create of `dev` on `a` passes through. -/
def passed (cuts : Cuts String) (w : World String) : Except Raised (List (Job String Unit)) := do
  let j ← (createDev cuts).start plainLan "a" w
  return (((createDev cuts).script plainLan "a") j).passed

lemma history_of_passed {cuts : Cuts String} {w : World String} {l : List (Job String Unit)}
    {j : Job String Unit} (hl : passed cuts w = .ok l) (hj : j ∈ l) :
    History plainLan ⟨w, .create "a" (createDev cuts), j.world⟩ := by
  simp only [passed, Checked.bind_eq_ok, Checked.pure_eq_ok] at hl
  obtain ⟨j₀, hj₀, rfl⟩ := hl
  exact Or.inr ⟨j₀, j, hj₀, Or.inr hj, rfl⟩

/-- Whether a create with no `cluster.yaml` passes preflight. -/
def passes (w : World String) : Bool :=
  match (createDev fun _ => none).start plainLan "a" w with
  | .error _ => false
  | .ok j => j.cluster.multiHost && (w.file "a").isNone &&
      ((preflightPhase plainLan "a" willing).run.result j).isSome &&
        (hostsOf j.cluster).any fun h => plainLan.machine "a" h.ssh = "b"

/-- Whether a rerun is refused on `b`, which holds nothing but what the create left there. -/
def refuses (w : World String) : Bool :=
  match (createDev fun _ => none).start plainLan "a" w, w.file "a", w.file "b" with
  | .ok j, some f, some f' => decide (f'.origin = f.origin) && (w.units "b").isNone &&
      (hostsOf j.cluster).any fun h => decide (plainLan.machine "a" h.ssh = "b") &&
        !(checkNameFree j.cluster j.world h.name.text "b").isOk
  | _, _, _ => false

end Tk8s.Namesakes
