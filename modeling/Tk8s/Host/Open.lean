import Tk8s.Host.Established

/-!
Where nothing stops `establish`.

* `Open`: no file stands above the paths, no directory where it is an error, and none is called `cpuN`
  where such entries are removed.
* `get_run`: what one step changes.
* `ends_establish`: **then it gets to its end**.
-/

namespace Tk8s.HostFs

open FileTree

variable {k : Kind} {xs : List Share} {x : Share} {t t' : Tree} {a : Step} {p q target : Path}
  {text : String} {asRoot : Bool}

/-- What stops no step. -/
structure Open (k : Kind) (xs : List Share) (t : Tree) : Prop where
  above : ∀ a ∈ allSteps xs, ∀ q, q ≠ [] → q <+: a.path.dropLast →
    (t.get q).all Entry.passable = true
  installed : ∀ f ∈ allFiles xs, installs k f.asRoot = true → t.get (f.path ++ ["stdin"]) ≠ some .dir
  replaced : ∀ f ∈ allFiles xs, installs k f.asRoot = false → t.get f.path ≠ some .dir
  entries : ∀ n0 ∈ allDirs xs, ∀ s, isCpu s = true → t.get (n0 ++ [s]) ≠ some .dir

/-! ### What a step changes -/

/-- A path is as it was, or a directory above the step's, or below it and no directory. -/
def Changes (t : Tree) (p : Path) (t' : Tree) : Prop :=
  ∀ q, t'.get q = t.get q ∨ (t'.get q = some .dir ∧ q <+: p.dropLast) ∨
    (p <+: q ∧ t'.get q ≠ some .dir)

lemma file_ne_dir : Entry.file text ≠ .dir := by simp

lemma link_ne_dir {behind : Option String} : Entry.link text behind ≠ .dir := by simp

lemma changes_mkdirs (h : t.mkdirs [] p.dropLast = some t') : Changes t p t' := by
  intro q
  rcases Tree.mkdirs_get h q with heq | ⟨-, hdir, hpre⟩
  · exact Or.inl heq
  · exact Or.inr (Or.inl ⟨hdir, hpre⟩)

/-- A file or a link, at the path or below. -/
lemma Changes.put {e : Entry} (h : Changes t p t') (hq : p <+: q) (he : e ≠ .dir) :
    Changes t p (t'.put q e) := by
  intro r
  by_cases hr : r = q
  · rw [hr, Tree.get_put_self]
    exact Or.inr (Or.inr ⟨hq, fun heq => he (Option.some.inj heq)⟩)
  · rw [Tree.get_put_of_ne hr]
    exact h r

lemma Changes.eraseAll (h : Changes t p t') : Changes t p (t'.eraseAll p) := by
  intro r
  rw [Tree.get_eraseAll]
  split_ifs with hr
  · exact Or.inr (Or.inr ⟨hr, by simp⟩)
  · exact h r

lemma Changes.refl (t : Tree) (p : Path) : Changes t p t := fun _ => Or.inl rfl

lemma changes_install (h : install t p text = some t') : Changes t p t' := by
  rw [install] at h
  split_ifs at h with hdir hstdin
  · rw [← Option.some.inj h]
    exact (Changes.refl t p).put (List.prefix_append _ _) file_ne_dir
  · obtain ⟨t₁, hmk, rfl⟩ := Option.map_eq_some_iff.mp h
    exact (changes_mkdirs hmk).put List.prefix_rfl file_ne_dir

lemma changes_write (h : write k t p text asRoot = some t') : Changes t p t' := by
  rw [write] at h
  split_ifs at h with hinst
  · exact changes_install h
  · obtain ⟨t₁, hmk, h⟩ := Option.bind_eq_some_iff.mp h
    split_ifs at h
    rw [← Option.some.inj h]
    exact (changes_mkdirs hmk).put List.prefix_rfl file_ne_dir

lemma changes_symlink (h : symlink k t p target = some t') : Changes t p t' := by
  cases k with
  | here =>
      obtain ⟨t₁, hmk, rfl⟩ := Option.map_eq_some_iff.mp h
      split_ifs
      · exact changes_mkdirs hmk
      · exact (changes_mkdirs hmk).eraseAll.put List.prefix_rfl link_ne_dir
  | ssh =>
      rw [symlink] at h
      split_ifs at h
      · rw [← Option.some.inj h]
        exact Changes.refl t p
      · obtain ⟨t₁, hmk, rfl⟩ := Option.map_eq_some_iff.mp h
        exact (changes_mkdirs hmk).eraseAll.put List.prefix_rfl link_ne_dir

/-- **What one step changes.** -/
lemma changes_run (h : a.run k t = some t') : Changes t a.path t' := by
  cases a with
  | file f => exact changes_write h
  | link l => exact changes_symlink h

/-- A path that is not above the step's holds no directory it did not hold. -/
lemma Changes.not_dir (h : Changes t p t') (hq : ¬ q <+: p.dropLast) (hdir : t.get q ≠ some .dir) :
    t'.get q ≠ some .dir := by
  rcases h q with heq | ⟨-, hpre⟩ | ⟨-, hnot⟩
  · rwa [heq]
  · exact absurd hpre hq
  · exact hnot

/-! ### A step that is not stopped -/

lemma exists_run (hopen : Open k xs t) (ha : a ∈ allSteps xs) (hne : a.path ≠ []) :
    ∃ t', a.run k t = some t' := by
  obtain ⟨t₁, hmk⟩ : ∃ t₁, t.mkdirs [] a.path.dropLast = some t₁ :=
    Tree.exists_mkdirs (hopen.above a ha)
  cases a with
  | file f =>
      have hf := file_mem_steps.mp ha
      have hmk' : t.mkdirs [] f.path.dropLast = some t₁ := hmk
      show ∃ t', write k t f.path f.text f.asRoot = some t'
      rw [write]
      split_ifs with hinst
      · rw [install, if_neg (hopen.installed f hf hinst), hmk']
        split_ifs <;> exact ⟨_, rfl⟩
      · have hdir : t₁.get f.path ≠ some .dir :=
          (changes_mkdirs hmk').not_dir (not_prefix_dropLast hne · List.prefix_rfl)
            (hopen.replaced f hf (by simpa using hinst))
        rw [hmk', Option.bind_some, if_neg hdir]
        exact ⟨_, rfl⟩
  | link l =>
      have hmk' : t.mkdirs [] l.1.dropLast = some t₁ := hmk
      show ∃ t', symlink k t l.1 l.2 = some t'
      cases k with
      | here => exact ⟨_, by rw [symlink, hmk', Option.map_some]⟩
      | ssh =>
          rw [symlink, hmk']
          split_ifs <;> exact ⟨_, rfl⟩

/-- A path that a step's is not below, or the path of another step, is not above it. -/
lemma not_above_step (hs : Shaped xs) (ha : a ∈ allSteps xs) {b : Step} (hb : b ∈ allSteps xs)
    (hq : b.path <+: q) : ¬ q <+: a.path.dropLast := by
  intro hpre
  have hpath := hs.apart b hb a ha (hq.trans (hpre.trans (List.dropLast_prefix _)))
  exact not_prefix_dropLast (hs.ne a ha) hpre (hpath ▸ hq)

lemma open_run (hs : Shaped xs) (hopen : Open k xs t) (ha : a ∈ allSteps xs)
    (h : a.run k t = some t') : Open k xs t' := by
  have hchanges := changes_run h
  refine ⟨fun b hb q hne hq => ?_, fun f hf hinst => ?_, fun f hf hinst => ?_, fun n0 hn s hcpu => ?_⟩
  · rcases hchanges q with heq | ⟨hdir, -⟩ | ⟨hbelow, -⟩
    · rw [heq]
      exact hopen.above b hb q hne hq
    · simp [hdir, Entry.passable]
    · have hpath := hs.apart a ha b hb (hbelow.trans (hq.trans (List.dropLast_prefix _)))
      exact absurd (hpath ▸ hbelow) (not_prefix_dropLast (hs.ne b hb) hq)
  · have hbelow : (Step.file f).path <+: f.path ++ ["stdin"] := List.prefix_append _ _
    exact hchanges.not_dir (not_above_step hs ha (file_mem_steps.mpr hf) hbelow)
      (hopen.installed f hf hinst)
  · exact hchanges.not_dir (not_above_step hs ha (file_mem_steps.mpr hf) List.prefix_rfl)
      (hopen.replaced f hf hinst)
  · refine hchanges.not_dir (fun hpre => ?_) (hopen.entries n0 hn s hcpu)
    obtain ⟨l, rfl, hpath⟩ := (hs.names n0 hn a ha s (hpre.trans (List.dropLast_prefix _))).2 hcpu
    exact not_prefix_dropLast (hs.ne _ ha) hpre (hpath ▸ List.prefix_rfl)

/-! ### To the end -/

lemma total_writes (hs : Shaped xs) :
    Script.Total (Open k xs) (Script.each xs (writeShare k)) (Open k xs) := by
  rw [writeAll_eq]
  refine Script.Total.each_mem fun a ha t hopen => ?_
  obtain ⟨t', hrun⟩ := exists_run hopen ha (hs.ne a ha)
  exact ⟨t', ends_call.mpr hrun, open_run hs hopen ha hrun⟩

/-- No directory is removed. -/
def Removable (xs : List Share) (t : Tree) : Prop :=
  ∀ n0 ∈ allDirs xs, ∀ s, isCpu s = true → t.get (n0 ++ [s]) ≠ some .dir

lemma total_dropStale (hx : x ∈ xs) :
    Script.Total (Removable xs) (dropStale k x) (Removable xs) := by
  refine Script.Total.ask fun t hopen => ?_
  have hdrops : Script.Total (Removable xs) (dropAll (stale k x t)) (Removable xs) := by
    refine Script.Total.each_mem fun p hp u hu => ?_
    obtain ⟨n0, hn, s, -, hcpu, -, rfl⟩ := mem_stale.mp hp
    refine ⟨u.erase (n0 ++ [s]), ends_call.mpr (remove_eq_some.mpr ⟨?_, rfl⟩), ?_⟩
    · exact hu n0 (dir_mem hx hn) s hcpu
    · intro n1 hn1 s' hcpu'
      rw [Tree.get_erase]
      split_ifs
      · simp
      · exact hu n1 hn1 s' hcpu'
  exact hdrops.weaken (fun u hu => hu ▸ hopen) fun u hu => hu

/-- **`establish` gets to its end** where nothing stops it. -/
theorem ends_establish (hs : Shaped xs) (hopen : Open k xs t) :
    ∃ t', (establish k xs).Ends t t' := by
  have hdrops : Script.Total (Removable xs) (Script.each xs (dropStale k)) (Removable xs) :=
    Script.Total.each_mem fun _ hx => total_dropStale hx
  have hall := (total_writes (k := k) hs).seq (hdrops.weaken (fun t h => h.entries) fun t h => h)
  obtain ⟨t', hends, -⟩ := hall t hopen
  exact ⟨t', hends⟩

end Tk8s.HostFs
