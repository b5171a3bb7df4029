import Mathlib.Data.List.Infix

/-!
File trees, as lists of what stands at which path.

* `Path`, `Entry`, `Tree`: a path by its components; a file, a symbolic link or a directory.
* `Tree.get`, `put`, `erase`, `eraseAll`, `mkdirs`, `names`: what stands at a path; to put something
  there, to remove it, with all below or not; to make a directory with those above; to list one.
* `mkdirs_get`, `grounded_of_mkdirs`, `mkdirs_of_grounded`: **what making directories does**.
* `Frames`: a step at one path leaves alone what stands neither above nor below it, and every
  directory that is not below it.
-/

namespace FileTree

/-- A path, by its components; the first one is the directory it starts from. -/
abbrev Path := List String

/-- `str(path)`. -/
def Path.text (p : Path) : String := "/".intercalate p

/-- Paths below one directory are told apart by what stands below it. -/
@[simp] lemma append_beq (dir a b : Path) : (dir ++ a == dir ++ b) = (a == b) := by
  rw [Bool.eq_iff_iff, beq_iff_eq, beq_iff_eq, List.append_cancel_left_eq]

/-- What stands at a path. A link has the text it holds and, when it leads to a file, what is read
through it. -/
inductive Entry where
  | file (text : String)
  | link (target : String) (behind : Option String)
  | dir
deriving DecidableEq, Repr

/-- A path goes on below: through a directory, or a link in the place of one. -/
def Entry.passable : Entry → Bool
  | file _ => false
  | _ => true

abbrev Tree := List (Path × Entry)

namespace Tree

variable {t t' : Tree} {p q base : Path} {e : Entry}

/-- What `lstat` finds. -/
def get (t : Tree) (p : Path) : Option Entry := t.lookup p

def put (p : Path) (e : Entry) : Tree → Tree
  | [] => [(p, e)]
  | x :: rest => if x.1 = p then (p, e) :: rest else x :: put p e rest

/-- `unlink`. -/
def erase (t : Tree) (p : Path) : Tree := t.filter fun x => x.1 ≠ p

/-- `rm -rf`. -/
def eraseAll (t : Tree) (p : Path) : Tree := t.filter fun x => ¬ p <+: x.1

/-- `mkdir -p`, from a directory on. -/
def mkdirs (t : Tree) (base : Path) : List String → Option Tree
  | [] => some t
  | c :: cs =>
      match t.get (base ++ [c]) with
      | none => mkdirs (put (base ++ [c]) .dir t) (base ++ [c]) cs
      | some e => if e.passable then mkdirs t (base ++ [c]) cs else none

/-- The names in a directory. -/
def names (t : Tree) (dir : Path) : List String :=
  t.filterMap fun x => if x.1.dropLast = dir then x.1.getLast? else none

@[simp] lemma get_nil : get [] p = none := rfl

lemma get_cons (x : Path × Entry) (t : Tree) :
    get (x :: t) p = if x.1 = p then some x.2 else t.get p := by
  rw [get, List.lookup_cons]
  by_cases h : x.1 = p
  · simp [h]
  · have hne : (p == x.1) = false := by simpa using fun heq => h heq.symm
    rw [hne, if_neg h]
    rfl

lemma get_put (t : Tree) : (put p e t).get q = if q = p then some e else t.get q := by
  induction t with
  | nil =>
      rw [put, get_cons, get_nil]
      exact if_congr eq_comm rfl rfl
  | cons x t ih =>
      rw [put]
      by_cases hx : x.1 = p
      · rw [if_pos hx, get_cons, get_cons, hx]
        by_cases hq : q = p
        · simp [hq]
        · simp [hq, Ne.symm hq]
      · rw [if_neg hx, get_cons, get_cons, ih]
        by_cases hq : q = p
        · simp [hq, hx]
        · simp [hq]

@[simp] lemma get_put_self (t : Tree) : (put p e t).get p = some e := by rw [get_put, if_pos rfl]

lemma get_put_of_ne (h : q ≠ p) : (put p e t).get q = t.get q := by rw [get_put, if_neg h]

/-- Putting what is there changes nothing. -/
lemma put_of_get (h : t.get p = some e) : put p e t = t := by
  induction t with
  | nil => simp at h
  | cons x t ih =>
      rw [get_cons] at h
      rw [put]
      by_cases hx : x.1 = p
      · rw [if_pos hx] at h ⊢
        rw [← Option.some.inj h, ← hx]
      · rw [if_neg hx] at h ⊢
        rw [ih h]

/-- What is left when some of the paths are taken away. -/
lemma get_filter (keep : Path → Bool) :
    get (t.filter fun x => keep x.1) q = if keep q then t.get q else none := by
  induction t with
  | nil => simp
  | cons x t ih =>
      rw [List.filter_cons, get_cons]
      by_cases hx : x.1 = q
      · by_cases hk : keep q = true
        · simp [hx, hk, get_cons]
        · simp [hx, hk, ih]
      · by_cases hk : keep x.1 = true
        · simp [hx, hk, get_cons, ih]
        · simp [hx, hk, ih]

lemma get_erase : (t.erase p).get q = if q = p then none else t.get q := by
  rw [erase, get_filter fun q => decide (q ≠ p)]
  by_cases h : q = p <;> simp [h]

lemma get_eraseAll : (t.eraseAll p).get q = if p <+: q then none else t.get q := by
  rw [eraseAll, get_filter fun q => decide (¬ p <+: q)]
  by_cases h : p <+: q <;> simp [h]

lemma get_eq_none : t.get p = none ↔ ∀ x ∈ t, x.1 ≠ p := by
  induction t with
  | nil => simp
  | cons x t ih =>
      rw [get_cons, List.forall_mem_cons, ← ih]
      by_cases hx : x.1 = p <;> simp [hx]

lemma mem_of_get (h : t.get p = some e) : (p, e) ∈ t := by
  obtain ⟨before, after, rfl, -⟩ := List.lookup_eq_some_iff.mp h
  simp

/-- Removing what is not there changes nothing. -/
lemma erase_of_get (h : t.get p = none) : t.erase p = t := by
  rw [erase, List.filter_eq_self]
  exact fun x hx => by simpa using get_eq_none.mp h x hx

lemma mem_names {dir : Path} {s : String} :
    s ∈ t.names dir ↔ (t.get (dir ++ [s])).isSome = true := by
  have hkey : s ∈ t.names dir ↔ ∃ x ∈ t, x.1 = dir ++ [s] := by
    rw [names, List.mem_filterMap]
    refine exists_congr fun x => and_congr_right fun _ => ?_
    constructor
    · intro h
      split_ifs at h with hdir
      rw [← hdir]
      exact (List.dropLast_append_getLast? s h).symm
    · intro h
      simp [h]
  rw [hkey, ← Option.ne_none_iff_isSome, ne_eq, get_eq_none]
  push Not
  rfl

/-! ### Directories -/

/-- A directory and those above it are there. -/
def Grounded (t : Tree) (p : Path) : Prop :=
  ∀ q, q ≠ [] → q <+: p → (t.get q).any Entry.passable = true

/-- **What making directories changes**: directories where nothing was. -/
lemma mkdirs_get {cs : List String} (h : t.mkdirs base cs = some t') (q : Path) :
    t'.get q = t.get q ∨ t.get q = none ∧ t'.get q = some .dir ∧ q <+: base ++ cs := by
  induction cs generalizing t base with
  | nil => exact Or.inl (by rw [Option.some.inj h])
  | cons c cs ih =>
      have hpath : base ++ [c] ++ cs = base ++ c :: cs := by simp
      rw [mkdirs] at h
      cases hget : t.get (base ++ [c]) with
      | some e =>
          simp only [hget] at h
          split_ifs at h
          rw [← hpath]
          exact ih h
      | none =>
          simp only [hget] at h
          by_cases hq : q = base ++ [c]
          · have hdir : t'.get q = some .dir := by
              cases ih h with
              | inl heq => rw [heq, hq, get_put_self]
              | inr hnew => exact hnew.2.1
            refine Or.inr ⟨hq ▸ hget, hdir, ?_⟩
            rw [hq, ← hpath]
            exact List.prefix_append _ _
          · have hsame : (put (base ++ [c]) .dir t).get q = t.get q := get_put_of_ne hq
            rw [← hpath, ← hsame]
            exact ih h

/-- A directory that was there is there afterwards. -/
lemma passable_of_mkdirs {cs : List String} (h : t.mkdirs base cs = some t')
    (hq : (t.get q).any Entry.passable = true) : (t'.get q).any Entry.passable = true := by
  cases mkdirs_get h q with
  | inl heq => rwa [heq]
  | inr hnew => simp [hnew.1] at hq

/-- The directories that were made are there. -/
lemma passable_prefix_of_mkdirs {cs : List String} (h : t.mkdirs base cs = some t')
    {c : String} {rest : List String} (hrest : c :: rest <+: cs) :
    (t'.get (base ++ c :: rest)).any Entry.passable = true := by
  induction cs generalizing t base c rest with
  | nil => simp at hrest
  | cons d cs ih =>
      obtain ⟨rfl, hcs⟩ := List.cons_prefix_cons.mp hrest
      rw [mkdirs] at h
      cases rest with
      | nil =>
          cases hget : t.get (base ++ [c]) with
          | some e =>
              simp only [hget] at h
              split_ifs at h with he
              exact passable_of_mkdirs h (by simpa [hget] using he)
          | none =>
              simp only [hget] at h
              exact passable_of_mkdirs h (by simp [Entry.passable])
      | cons c' rest =>
          have hpath : base ++ c :: c' :: rest = base ++ [c] ++ c' :: rest := by simp
          rw [hpath]
          cases hget : t.get (base ++ [c]) with
          | some e =>
              simp only [hget] at h
              split_ifs at h
              exact ih h hcs
          | none =>
              simp only [hget] at h
              exact ih h hcs

lemma grounded_of_mkdirs {p : Path} (h : t.mkdirs [] p = some t') : t'.Grounded p := by
  intro q hne hq
  cases q with
  | nil => exact absurd rfl hne
  | cons c rest => exact passable_prefix_of_mkdirs h hq

/-- **Directories that are there are not made again.** -/
lemma mkdirs_of_passable {cs : List String}
    (h : ∀ q, q ≠ [] → q <+: cs → (t.get (base ++ q)).any Entry.passable = true) :
    t.mkdirs base cs = some t := by
  induction cs generalizing base with
  | nil => rfl
  | cons c cs ih =>
      have hc := h [c] (by simp) (by simp)
      obtain ⟨e, he, hpass⟩ := (Option.any_eq_true _ _).mp hc
      rw [mkdirs, he]
      simp only [hpass, if_true]
      refine ih fun q hne hq => ?_
      have hlong := h (c :: q) (by simp) (List.cons_prefix_cons.mpr ⟨rfl, hq⟩)
      simpa using hlong

/-- Where no file stands on the way, the directories are made. -/
lemma exists_mkdirs {cs : List String}
    (h : ∀ q, q ≠ [] → q <+: cs → (t.get (base ++ q)).all Entry.passable = true) :
    ∃ t', t.mkdirs base cs = some t' := by
  induction cs generalizing t base with
  | nil => exact ⟨t, rfl⟩
  | cons c cs ih =>
      have hc := h [c] (by simp) (by simp)
      have hbelow : ∀ q, q ≠ [] → q <+: cs →
          (t.get (base ++ [c] ++ q)).all Entry.passable = true := by
        intro q hne hq
        have hlong := h (c :: q) (by simp) (List.cons_prefix_cons.mpr ⟨rfl, hq⟩)
        simpa using hlong
      rw [mkdirs]
      cases hget : t.get (base ++ [c]) with
      | none =>
          refine ih fun q hne hq => ?_
          rw [get_put_of_ne (by simpa using hne)]
          exact hbelow q hne hq
      | some e =>
          rw [hget, Option.all_some] at hc
          simp only [hc, if_true]
          exact ih hbelow

lemma mkdirs_of_grounded {p : Path} (h : t.Grounded p) : t.mkdirs [] p = some t :=
  mkdirs_of_passable fun q hne hq => h q hne hq

/-! ### Steps at one path -/

/-- A step at `p`: what stands neither above nor below is left alone, and so is every directory that is
not below. -/
structure Frames (t : Tree) (p : Path) (t' : Tree) : Prop where
  apart : ∀ q, ¬ q <+: p → ¬ p <+: q → t'.get q = t.get q
  passable : ∀ q, ¬ p <+: q → (t.get q).any Entry.passable = true →
    (t'.get q).any Entry.passable = true

lemma Frames.refl (t : Tree) (p : Path) : t.Frames p t := ⟨fun _ _ _ => rfl, fun _ _ h => h⟩

lemma Frames.trans {t'' : Tree} (h : t.Frames p t') (h' : t'.Frames p t'') : t.Frames p t'' :=
  ⟨fun q hq hp => (h'.apart q hq hp).trans (h.apart q hq hp),
    fun q hp hq => h'.passable q hp (h.passable q hp hq)⟩

/-- A step that changes nothing but what is at the path, or below. -/
lemma frames_of_below (h : ∀ q, ¬ p <+: q → t'.get q = t.get q) : t.Frames p t' :=
  ⟨fun q _ hp => h q hp, fun _ hp hpass => (h _ hp).symm ▸ hpass⟩

lemma frames_put (t : Tree) (p : Path) (e : Entry) : t.Frames p (put p e t) :=
  frames_of_below fun _ hq => get_put_of_ne fun heq => hq (heq ▸ List.prefix_rfl)

lemma frames_erase (t : Tree) (p : Path) : t.Frames p (t.erase p) :=
  frames_of_below fun q hq => by
    have hne : q ≠ p := fun heq => hq (heq ▸ List.prefix_rfl)
    rw [get_erase, if_neg hne]

lemma frames_eraseAll (t : Tree) (p : Path) : t.Frames p (t.eraseAll p) :=
  frames_of_below fun q hq => by rw [get_eraseAll, if_neg hq]

/-- Making the directories above. -/
lemma frames_mkdirs (h : t.mkdirs [] p.dropLast = some t') : t.Frames p t' := by
  refine ⟨fun q hq _ => ?_, fun q _ hpass => passable_of_mkdirs h hpass⟩
  cases mkdirs_get h q with
  | inl heq => exact heq
  | inr hnew => exact absurd (hnew.2.2.trans (List.dropLast_prefix p)) hq

end Tree

end FileTree
