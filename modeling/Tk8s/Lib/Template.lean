import Mathlib.Data.List.TakeWhile
import Tk8s.Lib.Checked

/-!
Python's `string.Template`: a text with `$name`, `${name}` and `$$`.

* `Part`, `parts`: the text as the pattern cuts it, from the left.
* `names`, `substitute`: the names a text asks for, and the text with the values put in.
* `Fills`: what it is to fill a text, read off the text itself.
* `substitute_eq_ok`: **`substitute` fills the text, and fails exactly where nothing does**.
* `exists_fills`, `mem_names`: **which texts are filled**, and the names without which one is not.
* `Chunk`, `write`: a text written from runs and names; `fills_write`, `mem_names_write`: **it is
  read as it was written**.
* `Fills.plain`, `fills_escape`: a run without a dollar stays, and a text with its dollars doubled
  comes out as it was.
-/

namespace Template

/-! ### Names -/

/-- What a name starts with. -/
def isStart (c : Char) : Bool := c.isAlpha || c = '_'

/-- What a name goes on with. -/
def isPart (c : Char) : Bool := isStart c || c.isDigit

/-- `[_a-z][_a-z0-9]*`, in either case. -/
def IsName (name : List Char) : Prop :=
  ∃ c cs, name = c :: cs ∧ isStart c = true ∧ ∀ d ∈ cs, isPart d = true

/-- `IsName`, computed. -/
def isName : List Char → Bool
  | [] => false
  | c :: cs => isStart c && cs.all isPart

lemma isName_iff {name : List Char} : isName name = true ↔ IsName name := by
  cases name with
  | nil => simp [isName, IsName]
  | cons c cs => simp [isName, IsName]

instance (name : List Char) : Decidable (IsName name) := decidable_of_iff _ isName_iff

/-- A text does not go on with a name. -/
def Stops (rest : List Char) : Prop := ∀ c ∈ rest.head?, isPart c = false

lemma stops_iff {rest : List Char} : (rest.head?.all fun c => !isPart c) = true ↔ Stops rest := by
  cases rest <;> simp [Stops]

instance (rest : List Char) : Decidable (Stops rest) := decidable_of_iff _ stops_iff

/-- The longest name a text starts with, and what follows it. -/
def nameAt : List Char → Option (List Char × List Char)
  | [] => none
  | c :: cs => if isStart c then some (c :: cs.takeWhile isPart, cs.dropWhile isPart) else none

/-- What a dollar asks for: `name` or `{name}`. -/
def placeholder : List Char → Option (List Char × List Char)
  | '{' :: cs =>
      match nameAt cs with
      | some (name, '}' :: rest) => some (name, rest)
      | _ => none
  | cs => nameAt cs

lemma nameAt_eq_some {cs name rest : List Char} :
    nameAt cs = some (name, rest) ↔ IsName name ∧ Stops rest ∧ cs = name ++ rest := by
  constructor
  · intro h
    cases cs with
    | nil => simp [nameAt] at h
    | cons c cs =>
        rw [nameAt] at h
        split_ifs at h with hc
        obtain ⟨rfl, rfl⟩ := Prod.mk.inj (Option.some.inj h)
        refine ⟨⟨c, _, rfl, hc, fun d hd => List.mem_takeWhile_imp hd⟩, ?_, by simp⟩
        intro d hd
        have hdrop := List.head?_dropWhile_not isPart cs
        rw [Option.mem_def.mp hd] at hdrop
        simpa using hdrop
  · rintro ⟨⟨c, cs, rfl, hc, hcs⟩, hstops, rfl⟩
    have htake : (cs ++ rest).takeWhile isPart = cs ∧ (cs ++ rest).dropWhile isPart = rest := by
      cases rest with
      | nil =>
          rw [List.append_nil]
          exact ⟨List.takeWhile_eq_self_iff.mpr hcs, List.dropWhile_eq_nil_iff.mpr hcs⟩
      | cons d rest =>
          have hd : isPart d = false := hstops d rfl
          rw [List.takeWhile_append_of_pos hcs, List.dropWhile_append_of_pos hcs]
          simp [hd]
    rw [List.cons_append, nameAt, if_pos hc, htake.1, htake.2]

lemma placeholder_eq_some {cs name rest : List Char} :
    placeholder cs = some (name, rest) ↔
      IsName name ∧ (Stops rest ∧ cs = name ++ rest ∨ cs = '{' :: name ++ '}' :: rest) := by
  have hbrace : isStart '{' = false := by decide
  have hstop : ∀ r : List Char, Stops ('}' :: r) := by
    intro r c hc
    rw [← Option.some.inj hc]
    decide
  by_cases hcs : cs.head? = some '{'
  · obtain ⟨tail, rfl⟩ : ∃ tail, cs = '{' :: tail := by
      cases cs with
      | nil => simp at hcs
      | cons c tail => exact ⟨tail, by rw [Option.some.inj hcs]⟩
    have hno : ¬ (IsName name ∧ Stops rest ∧ '{' :: tail = name ++ rest) := by
      rintro ⟨⟨c, cs, rfl, hc, -⟩, -, heq⟩
      rw [List.cons_append] at heq
      rw [← (List.cons.inj heq).1, hbrace] at hc
      cases hc
    have hread : placeholder ('{' :: tail) = some (name, rest) ↔
        nameAt tail = some (name, '}' :: rest) := by
      rw [placeholder]
      split
      · rename_i name' rest' hname
        rw [hname]
        simp
      · rename_i hname
        simp only [reduceCtorEq, false_iff]
        exact fun h => hname _ _ h
    rw [hread, nameAt_eq_some]
    constructor
    · rintro ⟨hname, -, rfl⟩
      exact ⟨hname, Or.inr rfl⟩
    · rintro ⟨hname, ⟨hs, heq⟩ | heq⟩
      · exact absurd ⟨hname, hs, heq⟩ hno
      · exact ⟨hname, hstop rest, List.tail_eq_of_cons_eq heq⟩
  · have hread : placeholder cs = nameAt cs := by
      cases cs with
      | nil => rfl
      | cons c tail =>
          have hc : c ≠ '{' := fun h => hcs (by rw [h]; rfl)
          rw [placeholder]
          intro tail' heq
          exact hc (List.head_eq_of_cons_eq heq)
    rw [hread, nameAt_eq_some]
    constructor
    · rintro ⟨hname, hs, heq⟩
      exact ⟨hname, Or.inl ⟨hs, heq⟩⟩
    · rintro ⟨hname, ⟨hs, heq⟩ | rfl⟩
      · exact ⟨hname, hs, heq⟩
      · exact absurd rfl hcs

/-- What follows a placeholder is shorter. -/
lemma length_placeholder {cs name rest : List Char} (h : placeholder cs = some (name, rest)) :
    rest.length ≤ cs.length := by
  obtain ⟨-, ⟨-, rfl⟩ | rfl⟩ := placeholder_eq_some.mp h
  · rw [List.length_append]
    omega
  · simp only [List.cons_append, List.length_cons, List.length_append]
    omega

/-! ### Reading a text -/

/-- A character, or what a dollar starts. -/
inductive Part where
  | char (c : Char)
  /-- `$$`. -/
  | dollar
  | name (cs : List Char)
  /-- A dollar that starts nothing. -/
  | stray
deriving DecidableEq, Repr

/-- The parts of a text, from the left. -/
def parts : List Char → List Part
  | [] => []
  | '$' :: '$' :: rest => .dollar :: parts rest
  | '$' :: cs =>
      match _ : placeholder cs with
      | some (name, rest) => .name name :: parts rest
      | none => .stray :: parts cs
  | c :: rest => .char c :: parts rest
termination_by cs => cs.length
decreasing_by
  · simp only [List.length_cons]
    omega
  · have hlen := length_placeholder ‹placeholder cs = some (name, rest)›
    simp only [List.length_cons]
    omega
  · simp
  · simp

/-- The name a part asks for. -/
def Part.name? : Part → Option (List Char)
  | .name cs => some cs
  | _ => none

/-- The names a text asks for. -/
def names (cs : List Char) : List (List Char) := (parts cs).filterMap Part.name?

/-- What stops a substitution: a name without a value, or a dollar that starts nothing. -/
inductive Fault where
  | missing (name : List Char)
  | invalid
deriving DecidableEq, Repr

section Substitute

variable (value : List Char → Option (List Char))

/-- A part with its value in it. -/
def Part.fill : Part → Except Fault (List Char)
  | .char c => .ok [c]
  | .dollar => .ok ['$']
  | .name cs => Checked.ofOption (.missing cs) (value cs)
  | .stray => .error .invalid

def fillAll : List Part → Except Fault (List Char)
  | [] => .ok []
  | p :: ps => do
      let v ← p.fill value
      let rest ← fillAll ps
      return v ++ rest

/-- The text with the values in the places of the names; the first part that cannot be filled is an
error. -/
def substitute (cs : List Char) : Except Fault (List Char) := fillAll value (parts cs)

/-- **What it is to fill a text**: every placeholder gives way to its value, which is not read
again. -/
inductive Fills : List Char → List Char → Prop
  | nil : Fills [] []
  | char {c : Char} {cs out : List Char} (hc : c ≠ '$') (rest : Fills cs out) :
      Fills (c :: cs) (c :: out)
  | dollar {cs out : List Char} (rest : Fills cs out) : Fills ('$' :: '$' :: cs) ('$' :: out)
  | named {name cs out v : List Char} (hname : IsName name) (hstops : Stops cs)
      (hvalue : value name = some v) (rest : Fills cs out) :
      Fills ('$' :: (name ++ cs)) (v ++ out)
  | braced {name cs out v : List Char} (hname : IsName name) (hvalue : value name = some v)
      (rest : Fills cs out) : Fills ('$' :: '{' :: (name ++ '}' :: cs)) (v ++ out)

end Substitute

variable {value : List Char → Option (List Char)} {cs out : List Char}

lemma substitute_of_parts {p : Part} {rest : List Char} (hcs : parts cs = p :: parts rest) :
    substitute value cs = .ok out ↔
      ∃ v tail, p.fill value = .ok v ∧ substitute value rest = .ok tail ∧ v ++ tail = out := by
  simp only [substitute, hcs, fillAll, Checked.bind_eq_ok, Checked.pure_eq_ok]
  constructor
  · rintro ⟨v, hv, tail, htail, rfl⟩
    exact ⟨v, tail, hv, htail, rfl⟩
  · rintro ⟨v, tail, hv, htail, rfl⟩
    exact ⟨v, hv, tail, htail, rfl⟩

/-- What a text is filled with starts with what its first part gives. -/
lemma fills_char {c : Char} (hc : c ≠ '$') :
    Fills value (c :: cs) out ↔ ∃ tail, Fills value cs tail ∧ c :: tail = out := by
  constructor
  · intro h
    cases h with
    | char _ rest => exact ⟨_, rest, rfl⟩
    | dollar => exact absurd rfl hc
    | named => exact absurd rfl hc
    | braced => exact absurd rfl hc
  · rintro ⟨tail, rest, rfl⟩
    exact Fills.char hc rest

lemma exists_head_of_isName (name rest : List Char) (hname : IsName name) :
    ∃ c cs, name ++ rest = c :: cs ∧ isStart c = true := by
  obtain ⟨c, cs, rfl, hc, -⟩ := hname
  exact ⟨c, cs ++ rest, rfl, hc⟩

lemma fills_dollar :
    Fills value ('$' :: '$' :: cs) out ↔ ∃ tail, Fills value cs tail ∧ '$' :: tail = out := by
  constructor
  · intro h
    generalize hin : '$' :: '$' :: cs = input at h
    cases h with
    | nil => cases hin
    | char hc rest => exact absurd (List.head_eq_of_cons_eq hin).symm hc
    | dollar rest =>
        obtain rfl := List.tail_eq_of_cons_eq (List.tail_eq_of_cons_eq hin)
        exact ⟨_, rest, rfl⟩
    | named hname =>
        obtain ⟨c, tail, heq, hc⟩ := exists_head_of_isName _ _ hname
        have hhead := List.tail_eq_of_cons_eq hin
        rw [heq] at hhead
        rw [← List.head_eq_of_cons_eq hhead] at hc
        exact absurd hc (by decide)
    | braced => exact absurd (List.head_eq_of_cons_eq (List.tail_eq_of_cons_eq hin)) (by decide)
  · rintro ⟨tail, rest, rfl⟩
    exact Fills.dollar rest

/-- A placeholder is filled with its value. -/
lemma fills_placeholder (hcs : cs.head? ≠ some '$') :
    Fills value ('$' :: cs) out ↔ ∃ name rest v tail, placeholder cs = some (name, rest) ∧
      value name = some v ∧ Fills value rest tail ∧ v ++ tail = out := by
  constructor
  · intro h
    generalize hin : '$' :: cs = input at h
    cases h with
    | nil => cases hin
    | char hc rest => exact absurd (List.head_eq_of_cons_eq hin).symm hc
    | dollar rest => exact absurd (congrArg List.head? (List.tail_eq_of_cons_eq hin)) hcs
    | named hname hstops hvalue rest =>
        obtain rfl := List.tail_eq_of_cons_eq hin
        exact ⟨_, _, _, _, placeholder_eq_some.mpr ⟨hname, Or.inl ⟨hstops, rfl⟩⟩, hvalue, rest, rfl⟩
    | braced hname hvalue rest =>
        obtain rfl := List.tail_eq_of_cons_eq hin
        exact ⟨_, _, _, _, placeholder_eq_some.mpr ⟨hname, Or.inr rfl⟩, hvalue, rest, rfl⟩
  · rintro ⟨name, rest, v, tail, hplace, hvalue, hrest, rfl⟩
    obtain ⟨hname, ⟨hstops, rfl⟩ | rfl⟩ := placeholder_eq_some.mp hplace
    · exact Fills.named hname hstops hvalue hrest
    · exact Fills.braced hname hvalue hrest

/-- How a text is read, by what it starts with. -/
lemma parts_eqns : parts [] = [] ∧
    (∀ cs, parts ('$' :: '$' :: cs) = .dollar :: parts cs) ∧
    (∀ c cs, c ≠ '$' → parts (c :: cs) = .char c :: parts cs) ∧
    ∀ cs, cs.head? ≠ some '$' → parts ('$' :: cs) = match placeholder cs with
      | some (name, rest) => .name name :: parts rest
      | none => .stray :: parts cs := by
  refine ⟨?_, fun cs => ?_, fun c cs hc => ?_, fun cs hcs => ?_⟩
  · rw [parts]
  · rw [parts]
  · rw [parts]
    · exact fun rest h => absurd h hc
    · exact hc
  · rw [parts]
    · cases placeholder cs <;> rfl
    · rintro rest rfl
      exact hcs rfl

lemma parts_dollar (cs : List Char) : parts ('$' :: '$' :: cs) = .dollar :: parts cs :=
  parts_eqns.2.1 cs

lemma parts_char {c : Char} (hc : c ≠ '$') (cs : List Char) :
    parts (c :: cs) = .char c :: parts cs := parts_eqns.2.2.1 c cs hc

lemma parts_placeholder (hcs : cs.head? ≠ some '$') :
    parts ('$' :: cs) = match placeholder cs with
      | some (name, rest) => .name name :: parts rest
      | none => .stray :: parts cs := parts_eqns.2.2.2 cs hcs

/-- **`substitute` fills the text, and fails exactly where nothing does.** -/
theorem substitute_eq_ok : substitute value cs = .ok out ↔ Fills value cs out := by
  induction cs using parts.induct generalizing out with
  | case1 =>
      rw [substitute, parts_eqns.1]
      constructor
      · intro h
        rw [← Except.ok.inj h]
        exact Fills.nil
      · intro h
        cases h
        rfl
  | case2 rest ih =>
      rw [substitute_of_parts (parts_dollar rest), fills_dollar]
      simp [Part.fill, ih]
  | case3 cs hcs name rest hplace ih =>
      have hhead : cs.head? ≠ some '$' := fun h => hcs _ (List.head?_eq_some_iff.mp h).choose_spec
      have hparts := parts_placeholder hhead
      rw [hplace] at hparts
      rw [substitute_of_parts hparts, fills_placeholder hhead, hplace]
      constructor
      · rintro ⟨v, tail, hv, htail, rfl⟩
        exact ⟨name, rest, v, tail, rfl, Checked.ofOption_eq_ok.mp hv, ih.mp htail, rfl⟩
      · rintro ⟨_, _, v, tail, hsome, hv, htail, rfl⟩
        obtain ⟨rfl, rfl⟩ := Prod.mk.inj (Option.some.inj hsome)
        exact ⟨v, tail, Checked.ofOption_eq_ok.mpr hv, ih.mpr htail, rfl⟩
  | case4 cs hcs hplace ih =>
      have hhead : cs.head? ≠ some '$' := fun h => hcs _ (List.head?_eq_some_iff.mp h).choose_spec
      have hparts := parts_placeholder hhead
      rw [hplace] at hparts
      rw [substitute_of_parts hparts, fills_placeholder hhead, hplace]
      simp [Part.fill]
  | case5 c rest hno hc ih =>
      rw [substitute_of_parts (parts_char (fun h => hc h) rest), fills_char fun h => hc h]
      simp [Part.fill, ih]

/-- A text is filled in one way. -/
lemma Fills.unique {out' : List Char} (h : Fills value cs out) (h' : Fills value cs out') :
    out = out' :=
  Except.ok.inj ((substitute_eq_ok.mpr h).symm.trans (substitute_eq_ok.mpr h'))

/-! ### The names a text needs -/

lemma exists_fillAll {ps : List Part} : (∃ out, fillAll value ps = .ok out) ↔
    .stray ∉ ps ∧ ∀ name ∈ ps.filterMap Part.name?, (value name).isSome = true := by
  induction ps with
  | nil => simp [fillAll]
  | cons p ps ih =>
      have hstep : (∃ out, fillAll value (p :: ps) = .ok out) ↔
          (∃ v, p.fill value = .ok v) ∧ ∃ out, fillAll value ps = .ok out := by
        simp [fillAll]
      rw [hstep, ih]
      cases p with
      | char c => simp [Part.fill, Part.name?]
      | dollar => simp [Part.fill, Part.name?]
      | name cs => simp [Part.fill, Part.name?, Option.isSome_iff_exists, and_left_comm]
      | stray => simp [Part.fill]

/-- **A text is filled exactly when** no dollar of it is stray and every name has a value. -/
theorem exists_fills : (∃ out, Fills value cs out) ↔
    .stray ∉ parts cs ∧ ∀ name ∈ names cs, (value name).isSome = true := by
  simp only [← substitute_eq_ok]
  exact exists_fillAll

/-- **The names asked for**: those without which the text is not filled. -/
theorem mem_names {name : List Char} (h : Fills value cs out) :
    name ∈ names cs ↔ ¬ ∃ out', Fills (Function.update value name none) cs out' := by
  obtain ⟨hstray, hvalues⟩ := exists_fills.mp ⟨out, h⟩
  rw [exists_fills, not_and, not_forall]
  constructor
  · intro hmem _
    exact ⟨name, by simp [hmem]⟩
  · intro hmissing
    obtain ⟨other, hother⟩ := hmissing hstray
    rw [Classical.not_imp] at hother
    by_contra hno
    have hne : other ≠ name := fun heq => hno (heq ▸ hother.1)
    exact hother.2 (by rw [Function.update_of_ne hne]; exact hvalues other hother.1)

/-! ### Filling run by run -/

/-- A run without a dollar stays. -/
lemma Fills.plain {run : List Char} (hrun : '$' ∉ run) (rest : Fills value cs out) :
    Fills value (run ++ cs) (run ++ out) := by
  induction run with
  | nil => exact rest
  | cons c run ih =>
      rw [List.mem_cons, not_or] at hrun
      exact Fills.char (Ne.symm hrun.1) (ih hrun.2)

/-- A text with its dollars doubled. -/
def escape (cs : List Char) : List Char := cs.flatMap fun c => if c = '$' then ['$', '$'] else [c]

/-- **A text with its dollars doubled comes out as it was.** -/
theorem fills_escape (value : List Char → Option (List Char)) (cs : List Char) :
    Fills value (escape cs) cs := by
  induction cs with
  | nil => exact Fills.nil
  | cons c cs ih =>
      rw [escape, List.flatMap_cons]
      by_cases hc : c = '$'
      · rw [if_pos hc, hc]
        exact Fills.dollar ih
      · rw [if_neg hc]
        exact Fills.char hc ih

/-- What holds of every character of a text and of its values holds of what it is filled to. -/
lemma Fills.forall_mem {p : Char → Prop} (h : Fills value cs out) (hcs : ∀ c ∈ cs, p c)
    (hvalue : ∀ name v, value name = some v → ∀ c ∈ v, p c) : ∀ c ∈ out, p c := by
  induction h with
  | nil => simp
  | char hc rest ih => simp_all
  | dollar rest ih => simp_all
  | named hname hstops hv rest ih =>
      simp only [List.forall_mem_cons, List.forall_mem_append] at hcs
      exact List.forall_mem_append.mpr ⟨hvalue _ _ hv, ih hcs.2.2⟩
  | braced hname hv rest ih =>
      simp only [List.forall_mem_cons, List.forall_mem_append] at hcs
      exact List.forall_mem_append.mpr ⟨hvalue _ _ hv, ih hcs.2.2.2.2⟩

/-! ### Writing a text -/

/-- What a text is written from: a run without a dollar, or a name to put a value for. -/
inductive Chunk where
  | plain (run : String)
  | hole (name : String)
deriving DecidableEq, Repr

def Chunk.source : Chunk → List Char
  | .plain run => run.toList
  | .hole name => '$' :: name.toList

/-- The text of chunks. -/
def write (chunks : List Chunk) : List Char := chunks.flatMap Chunk.source

def Chunk.filled (v : String → List Char) : Chunk → List Char
  | .plain run => run.toList
  | .hole name => v name

/-- Chunks that are read as they were written. -/
def WellWritten : List Chunk → Prop
  | [] => True
  | .plain run :: rest => '$' ∉ run.toList ∧ WellWritten rest
  | .hole name :: rest => IsName name.toList ∧ Stops (write rest) ∧ WellWritten rest

instance decidableWellWritten : (chunks : List Chunk) → Decidable (WellWritten chunks)
  | [] => isTrue trivial
  | .plain run :: rest =>
      have := decidableWellWritten rest
      inferInstanceAs (Decidable ('$' ∉ run.toList ∧ WellWritten rest))
  | .hole name :: rest =>
      have := decidableWellWritten rest
      inferInstanceAs (Decidable (IsName name.toList ∧ Stops (write rest) ∧ WellWritten rest))

/-- What a text does not hold, seen on its characters. -/
lemma notMem_ofList {ch : Char} {l : List Char} (h : ch ∉ l) : ch ∉ (String.ofList l).toList := by
  rwa [String.toList_ofList]

lemma isName_ofList {l : List Char} (h : IsName l) : IsName (String.ofList l).toList := by
  rwa [String.toList_ofList]

lemma stops_ofList {ch : Char} {l : List Char} {rest : List Chunk} (h : isPart ch = false) :
    Stops (write (.plain (String.ofList (ch :: l)) :: rest)) := by
  rw [write, List.flatMap_cons, Chunk.source, String.toList_ofList]
  rintro d hd
  rwa [← Option.some.inj hd]

variable {chunks : List Chunk}

/-- **What was written is filled as it was written.** -/
theorem fills_write {v : String → List Char} (h : WellWritten chunks)
    (hv : ∀ name, .hole name ∈ chunks → value name.toList = some (v name)) :
    Fills value (write chunks) (chunks.flatMap (Chunk.filled v)) := by
  induction chunks with
  | nil => exact Fills.nil
  | cons chunk rest ih =>
      rw [write, List.flatMap_cons, List.flatMap_cons]
      cases chunk with
      | plain run =>
          exact Fills.plain h.1 (ih h.2 fun name hmem => hv name (List.mem_cons_of_mem _ hmem))
      | hole name =>
          exact Fills.named h.1 h.2.1 (hv name (by simp))
            (ih h.2.2 fun other hmem => hv other (List.mem_cons_of_mem _ hmem))

/-- A text is filled behind a run of it. -/
lemma fills_of_plain {run : List Char} (hrun : '$' ∉ run) (h : Fills value (run ++ cs) out) :
    ∃ tail, Fills value cs tail := by
  induction run generalizing out with
  | nil => exact ⟨out, h⟩
  | cons c run ih =>
      rw [List.mem_cons, not_or] at hrun
      obtain ⟨tail, htail, -⟩ := (fills_char (Ne.symm hrun.1)).mp h
      exact ih hrun.2 htail

/-- Every name that was written needs its value. -/
lemma value_of_fills_write (h : WellWritten chunks) (hfills : Fills value (write chunks) out)
    {name : String} (hmem : .hole name ∈ chunks) : value name.toList ≠ none := by
  induction chunks generalizing out with
  | nil => simp at hmem
  | cons chunk rest ih =>
      rw [write, List.flatMap_cons] at hfills
      cases chunk with
      | plain run =>
          obtain ⟨tail, htail⟩ := fills_of_plain h.1 hfills
          exact ih h.2 htail (by simpa using hmem)
      | hole other =>
          have hplace :
              placeholder (other.toList ++ write rest) = some (other.toList, write rest) :=
            placeholder_eq_some.mpr ⟨h.1, Or.inl ⟨h.2.1, rfl⟩⟩
          have hhead : (other.toList ++ write rest).head? ≠ some '$' := by
            obtain ⟨c, tail, heq, hc⟩ := exists_head_of_isName _ (write rest) h.1
            rw [heq, List.head?_cons]
            intro hdollar
            rw [Option.some.inj hdollar] at hc
            exact absurd hc (by decide)
          obtain ⟨_, _, v, tail, hsome, hv, htail, -⟩ := (fills_placeholder hhead).mp hfills
          obtain ⟨rfl, rfl⟩ := Prod.mk.inj (Option.some.inj (hplace.symm.trans hsome))
          rcases List.mem_cons.mp hmem with heq | hrest
          · rw [Chunk.hole.inj heq, hv]
            simp
          · exact ih h.2.2 htail hrest

/-- **Every name that was written is asked for.** -/
theorem mem_names_write (h : WellWritten chunks) {name : String} (hmem : .hole name ∈ chunks) :
    name.toList ∈ names (write chunks) := by
  have hfills : Fills (fun name => some name) (write chunks) _ :=
    fills_write h fun name _ => rfl
  rw [mem_names hfills]
  rintro ⟨other, hother⟩
  exact value_of_fills_write h hother hmem (Function.update_self ..)

end Template
