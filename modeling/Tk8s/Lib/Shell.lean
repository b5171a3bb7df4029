import Mathlib.Data.List.Basic
import Mathlib.Data.List.Infix
import Mathlib.Data.List.Forall2

/-!
How a POSIX shell splits a line into words: token recognition, field splitting and quote removal.

* `Reader`, `step`, `read`: one character at a time. The reader gives up at an unquoted character
  that means more than itself (an operator, an expansion, a pattern, a comment), so `split` answers
  exactly where the text alone determines the words.
* `Reads raw word`: the text `raw`, wherever a word may begin, is the word `word`.
  `split_intercalate`: **texts that read as words, with blanks between them, split into those
  words**.
* `Plain`: a word that stands for itself. `Plain.reads`: it reads as itself, and
  `plain_of_read`: **a text without blanks that a line splits off as itself is plain**.
-/

namespace Shell

/-! ### The reader -/

/-- Where the reader stands: outside quotes, inside them, or behind a backslash. -/
inductive Place where
  | bare
  | single
  | double
  | escape
  | escapeIn
deriving DecidableEq, Repr

/-- The words read so far, and the one that has begun. -/
structure Reader where
  words : List String
  word : Option (List Char)
  place : Place
deriving DecidableEq, Repr

namespace Reader

/-- Before the first word that follows `words`. -/
def after (words : List String) : Reader := ⟨words, none, .bare⟩

/-- The word that has begun, empty when none has. -/
def current (r : Reader) : List Char := r.word.getD []

def push (r : Reader) (c : Char) : Reader := { r with word := some (r.current ++ [c]) }

/-- The quotes alone begin a word. -/
def quote (r : Reader) (place : Place) : Reader := ⟨r.words, some r.current, place⟩

@[simp] lemma words_push {r : Reader} {c : Char} : (r.push c).words = r.words := rfl
@[simp] lemma place_push {r : Reader} {c : Char} : (r.push c).place = r.place := rfl
@[simp] lemma current_push {r : Reader} {c : Char} : (r.push c).current = r.current ++ [c] := rfl

/-- The words once the current one has ended. -/
def closed (r : Reader) : List String :=
  match r.word with
  | none => r.words
  | some word => r.words ++ [String.ofList word]

end Reader

def isBlank (c : Char) : Bool := c = ' ' || c = '\t'

def isQuoting (c : Char) : Bool := c = '\'' || c = '"' || c = '\\'

/-- The characters that, unquoted, are operators or start an expansion or a pattern. -/
def isSpecial (c : Char) : Bool :=
  "\n|&;<>()$`*?[".toList.contains c

/-- What means more than itself only at the start of a word: a comment, a home directory. -/
def isLeading (c : Char) : Bool := c = '#' || c = '~'

/-- What a backslash inside double quotes escapes. -/
def isEscapable (c : Char) : Bool := "$`\"\\".toList.contains c

/-- One character. -/
def step (r : Reader) (c : Char) : Option Reader :=
  match r.place with
  | .bare =>
      if c = '\'' then some (r.quote .single)
      else if c = '"' then some (r.quote .double)
      else if c = '\\' then some { r with place := .escape }
      else if isBlank c then some (Reader.after r.closed)
      else if isSpecial c || r.word.isNone && isLeading c then none
      else some (r.push c)
  | .single => some (if c = '\'' then r.quote .bare else r.push c)
  | .double =>
      if c = '"' then some (r.quote .bare)
      else if c = '\\' then some { r with place := .escapeIn }
      else if c = '$' ∨ c = '`' then none
      else some (r.push c)
  -- a backslash and the newline behind it are no character of the word
  | .escape => some { (if c = '\n' then r else r.push c) with place := .bare }
  | .escapeIn =>
      some { (if c = '\n' then r else if isEscapable c then r.push c else (r.push '\\').push c)
        with place := .double }

def read (r : Reader) (text : List Char) : Option Reader := text.foldlM step r

/-- The words of a line, where the text alone determines them. -/
def split (line : String) : Option (List String) :=
  (read (.after []) line.toList).bind fun r => if r.place = .bare then some r.closed else none

section Read

variable {r s : Reader} {c : Char} {text rest : List Char} {words : List String}

@[simp] lemma read_nil : read r [] = some r := rfl

@[simp] lemma read_cons : read r (c :: text) = (step r c).bind fun s => read s text := by
  simp [read, List.foldlM_cons]

lemma read_append : read r (text ++ rest) = (read r text).bind fun s => read s rest := by
  simp [read, List.foldlM_append]

lemma read_of_read_append (h : read r (text ++ rest) = some s) :
    ∃ m, read r text = some m ∧ read m rest = some s := by
  rw [read_append] at h
  exact Option.bind_eq_some_iff.mp h

lemma split_eq_some {line : String} :
    split line = some words ↔
      ∃ r, read (.after []) line.toList = some r ∧ r.place = .bare ∧ r.closed = words := by
  rw [split, Option.bind_eq_some_iff]
  refine exists_congr fun r => and_congr_right fun _ => ?_
  by_cases hp : r.place = .bare <;> simp [hp]

/-- A blank outside quotes ends the word. -/
lemma step_blank (hr : r.place = .bare) (hc : isBlank c = true) :
    step r c = some (.after r.closed) := by
  have hne : c ≠ '\'' ∧ c ≠ '"' ∧ c ≠ '\\' := by
    refine ⟨?_, ?_, ?_⟩ <;> rintro rfl <;> exact absurd hc (by decide)
  simp [step, hr, hne, hc]

end Read

/-! ### Texts that read as a word -/

/-- `raw` is the word `word` wherever a word may begin. -/
def Reads (raw word : String) : Prop :=
  ∀ words, read (.after words) raw.toList = some ⟨words, some word.toList, .bare⟩

lemma read_intercalate {raws words : List String} (h : List.Forall₂ Reads raws words)
    (before : List String) :
    ∃ r, read (.after before) (" ".intercalate raws).toList = some r ∧ r.place = .bare ∧
      r.closed = before ++ words := by
  induction h generalizing before with
  | nil => exact ⟨.after before, rfl, rfl, by simp [Reader.after, Reader.closed]⟩
  | @cons raw word raws words hread hrest ih =>
      cases hrest with
      | nil =>
          refine ⟨_, by simpa using hread before, rfl, ?_⟩
          simp [Reader.closed, String.ofList_toList]
      | @cons next word' raws words hnext hrest =>
          obtain ⟨r, hr, hplace, hclosed⟩ := ih (before ++ [word])
          refine ⟨r, ?_, hplace, by simpa using hclosed⟩
          have hjoin : (" ".intercalate (raw :: next :: raws)).toList =
              raw.toList ++ ' ' :: (" ".intercalate (next :: raws)).toList := by
            simp [String.intercalate_cons_cons]
          rw [hjoin, read_append, hread before, Option.bind_some, read_cons,
            step_blank rfl (by decide), Option.bind_some]
          simpa [Reader.closed, String.ofList_toList] using hr

/-- **Texts that read as words, with blanks between them, split into those words**. -/
theorem split_intercalate {raws words : List String} (h : List.Forall₂ Reads raws words) :
    split (" ".intercalate raws) = some words := by
  obtain ⟨r, hr, hplace, hclosed⟩ := read_intercalate h []
  exact split_eq_some.mpr ⟨r, hr, hplace, by simpa using hclosed⟩

/-! ### Plain words -/

/-- A character that, in the middle of a word, stands for itself. -/
def isOrdinary (c : Char) : Bool := !isQuoting c && !isBlank c && !isSpecial c

/-- A word that needs no quotes. -/
structure Plain (word : String) : Prop where
  ordinary : ∀ c ∈ word.toList, isOrdinary c = true
  leading : ∃ c ∈ word.toList.head?, isLeading c = false

section Plain

variable {r s : Reader} {c : Char} {text rest : List Char}

lemma isOrdinary_iff : isOrdinary c = true ↔
    (c ≠ '\'' ∧ c ≠ '"' ∧ c ≠ '\\') ∧ isBlank c = false ∧ isSpecial c = false := by
  simp [isOrdinary, isQuoting, and_assoc]

/-- Outside quotes, what is neither quoting nor blank is pushed, or the reader gives up. -/
lemma step_bare (hr : r.place = .bare) (hq : isQuoting c = false) (hb : isBlank c = false) :
    step r c = if isSpecial c || r.word.isNone && isLeading c then none else some (r.push c) := by
  have hne : c ≠ '\'' ∧ c ≠ '"' ∧ c ≠ '\\' := by simpa [isQuoting, and_assoc] using hq
  simp [step, hr, hne, hb]

lemma read_ordinary (h : ∀ c ∈ text, isOrdinary c = true) {words : List String}
    {word : List Char} :
    read ⟨words, some word, .bare⟩ text = some ⟨words, some (word ++ text), .bare⟩ := by
  induction text generalizing word with
  | nil => simp
  | cons c text ih =>
      have hc := h c List.mem_cons_self
      obtain ⟨hq, hb, hspecial⟩ := isOrdinary_iff.mp hc
      rw [read_cons, step_bare rfl (by simp [isQuoting, hq]) hb, hspecial]
      have hrest : read ⟨words, some (word ++ [c]), .bare⟩ text =
          some ⟨words, some (word ++ [c] ++ text), .bare⟩ :=
        ih fun d hd => h d (List.mem_cons_of_mem c hd)
      simpa [Reader.push, Reader.current] using hrest

/-- A plain word reads as itself. -/
theorem Plain.reads {word : String} (h : Plain word) : Reads word word := by
  intro words
  obtain ⟨c, hhead, hlead⟩ := h.leading
  obtain ⟨text, htext⟩ : ∃ text, word.toList = c :: text := by
    cases hw : word.toList with
    | nil => simp [hw] at hhead
    | cons d text => exact ⟨text, by simp_all⟩
  have hord := h.ordinary
  rw [htext] at hord ⊢
  obtain ⟨hq, hb, hspecial⟩ := isOrdinary_iff.mp (hord c List.mem_cons_self)
  rw [read_cons, step_bare rfl (by simp [isQuoting, hq]) hb, hspecial, hlead]
  exact read_ordinary fun d hd => hord d (List.mem_cons_of_mem c hd)

end Plain

/-! ### What a line has to split off as itself -/

section Split

variable {r s : Reader} {c : Char} {text rest : List Char}

/-- A backslash inside double quotes that the word may still get. -/
def Place.pending (p : Place) : ℕ := if p = .escapeIn then 1 else 0

/-- A word has begun, or a backslash that will begin one. -/
def Reader.Begun (r : Reader) : Prop := r.word.isSome = true ∨ r.place = .escape

/-- The reader has gone on within one word, at most `n` characters further. -/
structure Extends (r : Reader) (n : ℕ) (s : Reader) : Prop where
  words : s.words = r.words
  isSome : r.word.isSome = true → s.word.isSome = true
  grows : ∃ pushed, s.current = r.current ++ pushed ∧
    pushed.length + s.place.pending ≤ r.place.pending + n

lemma Extends.refl (r : Reader) : Extends r 0 r := ⟨rfl, id, [], by simp, by simp⟩

lemma Extends.trans {m : Reader} {i j : ℕ} (h₁ : Extends r i m) (h₂ : Extends m j s) :
    Extends r (i + j) s := by
  obtain ⟨a, ha, hi⟩ := h₁.grows
  obtain ⟨b, hb, hj⟩ := h₂.grows
  refine ⟨h₂.words.trans h₁.words, h₂.isSome ∘ h₁.isSome, a ++ b, ?_, ?_⟩
  · rw [hb, ha, List.append_assoc]
  · rw [List.length_append]; omega

lemma Extends.mono {i j : ℕ} (h : Extends r i s) (hij : i ≤ j) : Extends r j s :=
  ⟨h.words, h.isSome, h.grows.imp fun _ hg => ⟨hg.1, by omega⟩⟩

lemma extends_quote (r : Reader) {place : Place} (h : place ≠ .escapeIn) :
    Extends r 0 (r.quote place) :=
  ⟨rfl, fun _ => rfl, [], by simp [Reader.quote, Reader.current],
    by simp [Reader.quote, Place.pending, h]⟩

lemma extends_push (r : Reader) (c : Char) : Extends r 1 (r.push c) :=
  ⟨rfl, fun _ => rfl, [c], rfl, by simp; omega⟩

/-- The characters that open quotes add nothing to the word. -/
lemma step_quoting (hr : r.place = .bare) (hq : isQuoting c = true) :
    ∃ s, step r c = some s ∧ Extends r 0 s := by
  have hone : c = '\'' ∨ c = '"' ∨ c = '\\' := by simpa [isQuoting, or_assoc] using hq
  obtain rfl | rfl | rfl := hone
  · exact ⟨r.quote .single, by simp [step, hr], extends_quote r (by decide)⟩
  · exact ⟨r.quote .double, by simp [step, hr], extends_quote r (by decide)⟩
  · exact ⟨{ r with place := .escape }, by simp [step, hr], rfl, id, [], by simp [Reader.current],
      by simp [Place.pending]⟩

/-- **One character but a blank outside quotes** goes on within the word. -/
lemma extends_of_step (h : step r c = some s) (hc : ¬ (r.place = .bare ∧ isBlank c = true)) :
    Extends r 1 s := by
  cases hp : r.place with
  | bare =>
      have hb : isBlank c = false := by simpa [hp] using hc
      by_cases hq : isQuoting c = true
      · obtain ⟨s', hs', hext⟩ := step_quoting hp hq
        obtain rfl := Option.some.inj (h.symm.trans hs')
        exact hext.mono (Nat.zero_le 1)
      · rw [step_bare hp (by simpa using hq) hb] at h
        obtain ⟨-, hs⟩ := Option.ite_none_left_eq_some.mp h
        exact Option.some.inj hs ▸ extends_push r c
  | single =>
      simp only [step, hp] at h
      obtain rfl := Option.some.inj h
      by_cases hc : c = '\''
      · rw [if_pos hc]
        exact (extends_quote r (by decide)).mono (Nat.zero_le 1)
      · rw [if_neg hc]
        exact extends_push r c
  | double =>
      simp only [step, hp] at h
      split_ifs at h <;> obtain rfl := Option.some.inj h
      · exact (extends_quote r (by decide)).mono (Nat.zero_le 1)
      · exact ⟨rfl, id, [], by simp [Reader.current], by simp [Place.pending]⟩
      · exact extends_push r c
  | escape =>
      simp only [step, hp] at h
      obtain rfl := Option.some.inj h
      by_cases hc : c = '\n'
      · exact ⟨by simp [hc], by simp [hc], [], by simp [hc, Reader.current],
          by simp [Place.pending]⟩
      · exact ⟨by simp [hc], by simp [hc, Reader.push], [c],
          by simp [hc, Reader.push, Reader.current], by simp [Place.pending, hp]⟩
  | escapeIn =>
      simp only [step, hp] at h
      obtain rfl := Option.some.inj h
      by_cases hc : c = '\n'
      · exact ⟨by simp [hc], by simp [hc], [], by simp [hc, Reader.current],
          by simp [Place.pending]⟩
      by_cases he : isEscapable c = true
      · exact ⟨by simp [hc, he], by simp [hc, he, Reader.push], [c],
          by simp [hc, he, Reader.push, Reader.current], by simp [Place.pending]⟩
      · exact ⟨by simp [hc, he], by simp [hc, he, Reader.push], ['\\', c],
          by simp [hc, he, Reader.push, Reader.current], by simp [Place.pending, hp]⟩

/-- Past the first character of a word that is no newline, the word has begun. -/
lemma begun_of_step (h : step r c = some s) (hr : r.place = .bare ∨ r.Begun)
    (hb : isBlank c = false) (hn : c ≠ '\n') : s.Begun := by
  cases hp : r.place with
  | bare =>
      simp only [step, hp, hb] at h
      split_ifs at h <;> obtain rfl := Option.some.inj h
      · exact Or.inl rfl
      · exact Or.inl rfl
      · exact Or.inr rfl
      · contradiction
      · exact Or.inl rfl
  | escape =>
      simp only [step, hp, if_neg hn] at h
      exact Option.some.inj h ▸ Or.inl rfl
  | _ =>
      have hword : r.word.isSome = true := by simpa [hp, Reader.Begun] using hr
      exact Or.inl ((extends_of_step h (by simp [hp])).isSome hword)

/-- **A text without blanks** goes on within the word, and begins it. -/
lemma extends_of_read (h : read r text = some s) (hr : r.place = .bare ∨ r.Begun)
    (ht : ∀ c ∈ text, isBlank c = false ∧ c ≠ '\n') :
    Extends r text.length s ∧ (text ≠ [] ∨ r.Begun → s.Begun) := by
  induction text generalizing r with
  | nil =>
      obtain rfl := Option.some.inj h
      exact ⟨.refl r, fun hb => hb.resolve_left (by simp)⟩
  | cons c text ih =>
      obtain ⟨hb, hn⟩ := ht c List.mem_cons_self
      obtain ⟨m, hm, hrest⟩ := Option.bind_eq_some_iff.mp (read_cons ▸ h)
      have hbegun : m.Begun := begun_of_step hm hr hb hn
      obtain ⟨hext, hs⟩ := ih hrest (Or.inr hbegun) fun d hd => ht d (List.mem_cons_of_mem c hd)
      refine ⟨?_, fun _ => hs (Or.inr hbegun)⟩
      have hone := (extends_of_step hm (by simp [hb])).trans hext
      exact hone.mono (by simp; omega)

/-- **A text with a quoting character** loses at least that character. -/
lemma short_of_quoting (h : read r text = some s) (hr : r.place = .bare)
    (ht : ∀ c ∈ text, isBlank c = false ∧ c ≠ '\n') (hq : ∃ c ∈ text, isQuoting c = true) :
    Extends r (text.length - 1) s := by
  induction text generalizing r with
  | nil => simp at hq
  | cons c text ih =>
      obtain ⟨hb, hn⟩ := ht c List.mem_cons_self
      have hrest : ∀ d ∈ text, isBlank d = false ∧ d ≠ '\n' :=
        fun d hd => ht d (List.mem_cons_of_mem c hd)
      obtain ⟨m, hm, hread⟩ := Option.bind_eq_some_iff.mp (read_cons ▸ h)
      by_cases hc : isQuoting c = true
      · obtain ⟨m', hm', hext⟩ := step_quoting hr hc
        obtain rfl := Option.some.inj (hm.symm.trans hm')
        have hlong := (extends_of_read hread (Or.inr (begun_of_step hm (Or.inl hr) hb hn)) hrest).1
        exact (hext.trans hlong).mono (by simp)
      · have hlater : ∃ d ∈ text, isQuoting d = true := by
          obtain ⟨d, hd, hdq⟩ := hq
          refine ⟨d, (List.mem_cons.mp hd).resolve_left ?_, hdq⟩
          rintro rfl
          exact hc hdq
        rw [step_bare hr (by simpa using hc) hb] at hm
        obtain ⟨-, hm⟩ := Option.ite_none_left_eq_some.mp hm
        obtain rfl := Option.some.inj hm
        have hpos : 0 < text.length := by
          obtain ⟨d, hd, -⟩ := hlater
          exact List.length_pos_of_mem hd
        exact ((extends_push r c).trans (ih hread hr hrest hlater)).mono (by simp; omega)

/-- **A text with nothing to quote** is read only if nothing in it means more than itself. -/
lemma ordinary_of_read (h : read r text = some s) (hr : r.place = .bare)
    (ht : ∀ c ∈ text, isBlank c = false ∧ isQuoting c = false) :
    ∀ c ∈ text, isOrdinary c = true := by
  induction text generalizing r with
  | nil => simp
  | cons c text ih =>
      obtain ⟨hb, hq⟩ := ht c List.mem_cons_self
      obtain ⟨m, hm, hread⟩ := Option.bind_eq_some_iff.mp (read_cons ▸ h)
      rw [step_bare hr hq hb] at hm
      obtain ⟨hnot, hm⟩ := Option.ite_none_left_eq_some.mp hm
      obtain rfl := Option.some.inj hm
      have hspecial : isSpecial c = false := by simp_all
      refine List.forall_mem_cons.mpr ⟨by simp [isOrdinary, hb, hq, hspecial], ?_⟩
      exact ih hread hr fun d hd => ht d (List.mem_cons_of_mem c hd)

lemma closed_of_isSome (h : r.word.isSome = true) :
    r.closed = r.words ++ [String.ofList r.current] := by
  obtain ⟨word, hword⟩ := Option.isSome_iff_exists.mp h
  simp [Reader.closed, Reader.current, hword]

lemma words_prefix_closed (r : Reader) : r.words <+: r.closed := by
  cases hw : r.word <;> simp [Reader.closed, hw]

/-- Words that have ended stay. -/
lemma words_prefix_of_read (h : read r text = some s) : r.words <+: s.words := by
  induction text generalizing r with
  | nil => exact Option.some.inj h ▸ List.prefix_rfl
  | cons c text ih =>
      obtain ⟨m, hm, hrest⟩ := Option.bind_eq_some_iff.mp (read_cons ▸ h)
      refine List.IsPrefix.trans ?_ (ih hrest)
      by_cases hc : r.place = .bare ∧ isBlank c = true
      · rw [step_blank hc.1 hc.2] at hm
        exact Option.some.inj hm ▸ words_prefix_closed r
      · rw [(extends_of_step hm hc).words]

/-- The word that `start` begins stands behind `words`. -/
def Begins (words : List String) (start : List Char) (r : Reader) : Prop :=
  ∃ more, words ++ [String.ofList (start ++ more)] <+: r.closed

lemma Begins.step {words : List String} {start : List Char} (h : Begins words start r)
    (hs : step r c = some s) : Begins words start s := by
  obtain ⟨more, hmore⟩ := h
  by_cases hc : r.place = .bare ∧ isBlank c = true
  · rw [step_blank hc.1 hc.2] at hs
    obtain rfl := Option.some.inj hs
    exact ⟨more, hmore⟩
  have hext := extends_of_step hs hc
  obtain ⟨pushed, hgrows, -⟩ := hext.grows
  cases hw : r.word with
  | none =>
      have hclosed : r.closed = r.words := by simp [Reader.closed, hw]
      exact ⟨more, (hclosed ▸ hmore).trans (hext.words ▸ words_prefix_closed s)⟩
  | some word =>
      have hsome : r.word.isSome = true := by simp [hw]
      rw [closed_of_isSome hsome] at hmore
      rw [Begins, closed_of_isSome (hext.isSome hsome), hext.words, hgrows]
      cases List.prefix_concat_iff.mp hmore with
      | inl heq =>
          obtain ⟨hwords, hword⟩ := List.append_inj' heq rfl
          have hcur : start ++ more = r.current := String.ofList_injective (by simpa using hword)
          exact ⟨more ++ pushed, by rw [hwords, ← hcur, List.append_assoc]⟩
      | inr hbefore => exact ⟨more, hbefore.trans (List.prefix_append _ _)⟩

lemma Begins.read {words : List String} {start : List Char} (h : Begins words start r)
    (hs : read r text = some s) : Begins words start s := by
  induction text generalizing r with
  | nil => exact Option.some.inj hs ▸ h
  | cons c text ih =>
      obtain ⟨m, hm, hrest⟩ := Option.bind_eq_some_iff.mp (read_cons ▸ hs)
      exact ih (h.step hm) hrest

/-- A line has one word at a place. -/
lemma full_of_extends {words line : List String} {t u : String} (ht : words ++ [t] <+: line)
    (hu : words ++ [u] <+: line) : t = u := by
  have hle : (words ++ [t]).length ≤ (words ++ [u]).length := by simp
  have heq := (List.prefix_of_prefix_length_le ht hu hle).eq_of_length (by simp)
  exact List.singleton_inj.mp (List.append_cancel_left heq)

lemma Begins.extends {words : List String} {start : List Char} {t : String}
    (h : Begins words start r) (ht : words ++ [t] <+: r.closed) : start <+: t.toList := by
  obtain ⟨more, hmore⟩ := h
  rw [full_of_extends ht hmore, String.toList_ofList]
  exact List.prefix_append start more

/-- Inside quotes or behind a backslash a blank belongs to the word. -/
lemma mem_current_of_blank (h : Shell.step r ' ' = some s) (hr : r.place ≠ .bare) :
    s.words = r.words ∧ s.word.isSome = true ∧ ' ' ∈ s.current := by
  cases hp : r.place with
  | bare => exact absurd hp hr
  | _ =>
      simp [Shell.step, hp, isEscapable] at h
      obtain rfl := h
      exact ⟨rfl, rfl, by simp [Reader.push, Reader.current]⟩

/-- **A text without blanks that a line splits off as itself is plain**. -/
theorem plain_of_read {t : String} {words : List String} (hne : t ≠ "")
    (ht : ∀ c ∈ t.toList, isBlank c = false ∧ c ≠ '\n')
    (h : Shell.read (.after words) (t.toList ++ ' ' :: rest) = some r)
    (hw : words ++ [t] <+: r.closed) : Plain t := by
  obtain ⟨m, hm, hrest⟩ := read_of_read_append h
  obtain ⟨m', hblank, hrest⟩ := Option.bind_eq_some_iff.mp (read_cons ▸ hrest)
  have hchars : t.toList ≠ [] := fun hnil => hne (String.toList_eq_nil_iff.mp hnil)
  obtain ⟨hext, hbegun⟩ := extends_of_read hm (Or.inl rfl) ht
  by_cases hq : ∃ q ∈ t.toList, isQuoting q = true
  · exfalso
    by_cases hp : m.place = .bare
    · -- the word has ended, and is too short
      have hsome : m.word.isSome = true := by simpa [Reader.Begun, hp] using hbegun (Or.inl hchars)
      rw [step_blank hp (by decide)] at hblank
      obtain rfl := Option.some.inj hblank
      have hclosed : words ++ [String.ofList m.current] <+: r.closed := by
        have hstay := (words_prefix_of_read hrest).trans (words_prefix_closed r)
        rwa [Reader.after, closed_of_isSome hsome, hext.words] at hstay
      obtain ⟨pushed, hcur, hlen⟩ := (short_of_quoting hm rfl ht hq).grows
      have hword : t.toList = pushed := by
        rw [full_of_extends hw hclosed, String.toList_ofList, hcur]
        rfl
      have hpos := List.length_pos_iff.mpr hchars
      rw [← hword] at hlen
      have hstart : (Reader.after words).place.pending = 0 := rfl
      omega
    · -- the blank went into the word
      obtain ⟨hwords, hsome, hmem⟩ := mem_current_of_blank hblank hp
      have hbegins : Begins words m'.current m' := ⟨[], by
        rw [closed_of_isSome hsome, hwords, hext.words, List.append_nil]
        exact List.prefix_rfl⟩
      have hin := ((hbegins.read hrest).extends hw).subset hmem
      exact absurd (ht ' ' hin).1 (by decide)
  · have hquote : ∀ c ∈ t.toList, isBlank c = false ∧ isQuoting c = false :=
      fun c hc => ⟨(ht c hc).1, Bool.eq_false_iff.mpr fun hqc => hq ⟨c, hc, hqc⟩⟩
    refine ⟨ordinary_of_read hm rfl hquote, ?_⟩
    obtain ⟨c, text, htext⟩ := List.exists_cons_of_ne_nil hchars
    rw [htext] at hm hquote ⊢
    obtain ⟨hb, hqc⟩ := hquote c List.mem_cons_self
    rw [read_cons, step_bare rfl hqc hb] at hm
    obtain ⟨_, hfirst, -⟩ := Option.bind_eq_some_iff.mp hm
    obtain ⟨hnot, -⟩ := Option.ite_none_left_eq_some.mp hfirst
    have hlead : ¬ isLeading c = true := fun hl => hnot (by simp [Reader.after, hl])
    exact ⟨c, rfl, by simpa using hlead⟩

end Split

end Shell
