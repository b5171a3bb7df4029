import Mathlib.Data.List.DropRight
import Mathlib.Data.List.TakeWhile
import Mathlib.Data.List.Infix
import Std.Data.String.ToNat

/-!
Text functions with the meaning Python's `str` gives them, on Lean strings, and the decimal
numerals.

* `splitOn`, `join`, `partition`, `strip`: `str.split(sep)`, `sep.join(...)`, `str.partition(sep)`
  and `str.strip()`. `splitOn_join` is the round trip, `partition_of_notMem` and
  `partition_append` compute a cut at the first separator.
* `removePrefix?`: what stands behind a given start.
* `isDigits`, `number`: `str.isdigit()` and `int(...)` on ASCII digits, `number_repr` the round
  trip through a numeral.
* `append_repr_inj`, `sep_repr_inj`: numerals behind a stem determine stem and number,
  as long as a separator that is not a digit stands between them.
-/

namespace Text

/-! ### Splitting and joining -/

/-- `text.split(sep)`: the pieces between the separators, at least one. -/
def splitOn (sep : Char) (text : String) : List String :=
  (text.toList.splitOn sep).map String.ofList

/-- `sep.join(pieces)`. -/
def join (sep : Char) (pieces : List String) : String :=
  (String.singleton sep).intercalate pieces

/-- `text.partition(sep)` without the middle component: what stands before the first separator
and what stands after it, the whole text and the empty one when there is none. -/
def partition (sep : Char) (text : String) : String × String :=
  (String.ofList (text.toList.takeWhile (· ≠ sep)),
    String.ofList ((text.toList.dropWhile (· ≠ sep)).drop 1))

/-- `text[len(base):] if text.startswith(base)`. -/
def removePrefix? (base text : String) : Option String :=
  if base.toList <+: text.toList then some (String.ofList (text.toList.drop base.toList.length))
  else none

/-- The ASCII characters `str.strip()` takes away. -/
def isSpace (c : Char) : Bool :=
  c = ' ' || c = '\t' || c = '\n' || c = '\r' || c = '\x0b' || c = '\x0c'
    || ('\x1c' ≤ c && c ≤ '\x1f')

/-- `text.strip()`. -/
def strip (text : String) : String :=
  String.ofList (((text.toList.dropWhile isSpace).reverse.dropWhile isSpace).reverse)

/-- `text.split()` on those characters. -/
def words (text : String) : List String :=
  ((text.toList.splitOnP isSpace).map String.ofList).filter (· ≠ "")

/-- Where `str.splitlines()` ends a line. -/
def isLineEnd (c : Char) : Bool :=
  c = '\n' || c = '\r' || c = '\x0b' || c = '\x0c' || ('\x1c' ≤ c && c ≤ '\x1e')
    || c = '\u0085' || c = '\u2028' || c = '\u2029'

/-- The lines from a list of characters on, the current one with `line` in front; a carriage return
and a newline end one line together. -/
def linesFrom (line : List Char) : List Char → List String
  | [] => if line = [] then [] else [String.ofList line]
  | '\r' :: '\n' :: rest => String.ofList line :: linesFrom [] rest
  | c :: rest =>
      if isLineEnd c then String.ofList line :: linesFrom [] rest else linesFrom (line ++ [c]) rest

/-- `text.splitlines()`. -/
def lines (text : String) : List String := linesFrom [] text.toList

lemma toList_join (sep : Char) (pieces : List String) :
    (join sep pieces).toList = [sep].intercalate (pieces.map String.toList) := by
  simp [join]

/-- Splitting undoes joining, when no piece holds the separator. -/
theorem splitOn_join {sep : Char} {pieces : List String} (hne : pieces ≠ [])
    (hsep : ∀ p ∈ pieces, sep ∉ p.toList) : splitOn sep (join sep pieces) = pieces := by
  have hmap : ∀ l ∈ pieces.map String.toList, sep ∉ l := by
    intro l hl
    obtain ⟨p, hp, rfl⟩ := List.mem_map.mp hl
    exact hsep p hp
  rw [splitOn, toList_join, List.splitOn_intercalate sep hmap (by simpa using hne), List.map_map]
  simp

/-- Joining undoes splitting. -/
lemma join_splitOn (sep : Char) (text : String) : join sep (splitOn sep text) = text := by
  rw [← String.toList_inj, toList_join, splitOn, List.map_map]
  simp [Function.comp_def]

/-- A piece between the places where a list is split has none of them. -/
lemma not_of_mem_splitOnP {p : Char → Bool} {cs piece : List Char} (h : piece ∈ cs.splitOnP p) :
    ∀ c ∈ piece, p c = false := by
  induction cs generalizing piece with
  | nil => simp_all
  | cons d cs ih =>
      rw [List.splitOnP_cons_eq_if_modifyHead] at h
      by_cases hd : p d = true
      · rw [if_pos hd, List.mem_cons] at h
        cases h with
        | inl heq => simp [heq]
        | inr hmem => exact ih hmem
      · rw [if_neg hd] at h
        cases hrest : cs.splitOnP p with
        | nil => simp [hrest] at h
        | cons first rest =>
            rw [hrest, List.modifyHead_cons, List.mem_cons] at h
            cases h with
            | inl heq =>
                rw [heq, List.forall_mem_cons]
                exact ⟨by simpa using hd, ih (hrest ▸ List.mem_cons_self)⟩
            | inr hmem => exact ih (hrest ▸ List.mem_cons_of_mem _ hmem)

lemma notMem_splitOn {sep : Char} {text piece : String} (h : piece ∈ splitOn sep text) :
    sep ∉ piece.toList := by
  intro hsep
  obtain ⟨cs, hcs, rfl⟩ := List.mem_map.mp h
  simpa using not_of_mem_splitOnP hcs sep (by simpa using hsep)

/-- The first piece ends at the first separator. -/
lemma splitOn_append {sep : Char} {a : String} (h : sep ∉ a.toList) (b : String) :
    splitOn sep (a ++ String.singleton sep ++ b) = a :: splitOn sep b := by
  simp only [splitOn, String.toList_append, String.toList_singleton, List.append_assoc,
    List.singleton_append, List.splitOn_append_cons_self_of_not_mem h, List.map_cons,
    String.ofList_toList]

lemma removePrefix?_append (base rest : String) : removePrefix? base (base ++ rest) = some rest := by
  rw [removePrefix?, String.toList_append, if_pos (List.prefix_append _ _), List.drop_left,
    String.ofList_toList]

/-- A joined text holds the characters of its pieces and the separator. -/
lemma mem_join {sep c : Char} {pieces : List String} (h : c ∈ (join sep pieces).toList) :
    c = sep ∨ ∃ p ∈ pieces, c ∈ p.toList := by
  rw [toList_join] at h
  induction pieces with
  | nil => simp at h
  | cons p ps ih =>
      cases ps with
      | nil => exact Or.inr ⟨p, by simp, by simpa using h⟩
      | cons q qs =>
          simp only [List.map_cons, List.intercalate_cons_cons, List.append_assoc, List.mem_append,
            List.mem_singleton] at h
          rcases h with h | h | h
          · exact Or.inr ⟨p, by simp, h⟩
          · exact Or.inl h
          · rcases ih h with hc | ⟨r, hr, hcr⟩
            · exact Or.inl hc
            · exact Or.inr ⟨r, List.mem_cons_of_mem p hr, hcr⟩

lemma join_singleton (sep : Char) (p : String) : join sep [p] = p := by simp [join]

lemma join_cons_cons (sep : Char) (p q : String) (ps : List String) :
    join sep (p :: q :: ps) = p ++ String.singleton sep ++ join sep (q :: ps) := by
  simp [join]

/-- A text without the separator is its own head. -/
lemma partition_of_notMem {sep : Char} {text : String} (h : sep ∉ text.toList) :
    partition sep text = (text, "") := by
  have htake : text.toList.takeWhile (· ≠ sep) = text.toList := by
    rw [List.takeWhile_eq_self_iff]
    intro c hc
    simpa using fun hcs : c = sep => h (hcs ▸ hc)
  have hdrop : text.toList.dropWhile (· ≠ sep) = [] := by
    rw [List.dropWhile_eq_nil_iff]
    intro c hc
    simpa using fun hcs : c = sep => h (hcs ▸ hc)
  simp only [partition, htake, hdrop, List.drop_nil, String.ofList_toList,
    String.ofList_nil]

/-- A text cut at its first separator. -/
lemma partition_append {sep : Char} {a : String} (h : sep ∉ a.toList) (b : String) :
    partition sep (a ++ String.singleton sep ++ b) = (a, b) := by
  have ha : ∀ c ∈ a.toList, (c ≠ sep) := fun c hc hcs => h (hcs ▸ hc)
  have hlist : (a ++ String.singleton sep ++ b).toList = a.toList ++ sep :: b.toList := by simp
  have htake : (a.toList ++ sep :: b.toList).takeWhile (· ≠ sep) = a.toList := by
    rw [List.takeWhile_append_of_pos (by simpa using ha)]
    simp
  have hdrop : (a.toList ++ sep :: b.toList).dropWhile (· ≠ sep) = sep :: b.toList := by
    rw [List.dropWhile_append_of_pos (by simpa using ha)]
    simp
  simp only [partition, hlist, htake, hdrop, List.drop_succ_cons, List.drop_zero,
    String.ofList_toList]

/-- The first piece of a split is the head of the cut. -/
lemma headD_splitOn (sep : Char) (text : String) :
    (splitOn sep text).headD "" = (partition sep text).1 := by
  have key : ∀ l : List Char, (l.splitOn sep).head? = some (l.takeWhile (· ≠ sep)) := by
    intro l
    induction l with
    | nil => rfl
    | cons c cs ih =>
        rw [List.splitOn_cons_eq_if_modifyHead]
        by_cases hc : c = sep
        · simp [hc]
        · simp [hc, ih]
  rw [splitOn, List.headD_eq_head?_getD, List.head?_map, key]
  rfl

/-- Stripping leaves a text alone that has no space at either end. -/
lemma strip_of_forall {text : String} (h : ∀ c ∈ text.toList, isSpace c = false) :
    strip text = text := by
  have key : ∀ l : List Char, (∀ c ∈ l, isSpace c = false) → l.dropWhile isSpace = l := by
    intro l hl
    cases l with
    | nil => rfl
    | cons c cs => rw [List.dropWhile_cons_of_neg (by simp [hl c (by simp)])]
  rw [strip, key _ h, key _ (by simpa using h), List.reverse_reverse, String.ofList_toList]

/-- A space behind a stripped text is stripped again. -/
theorem strip_strip_append {c : Char} (hc : isSpace c = true) (text : String) :
    strip (strip text ++ String.singleton c) = strip text := by
  have hstrip : ∀ s, strip s = String.ofList ((s.toList.dropWhile isSpace).rdropWhile isSpace) :=
    fun _ => rfl
  set kept := (text.toList.dropWhile isSpace).rdropWhile isSpace with hkept
  have hstay : kept.rdropWhile isSpace = kept := List.rdropWhile_idempotent _ _
  rw [hstrip text, hstrip, String.toList_append, String.toList_ofList, String.toList_singleton]
  congr 1
  rw [← hkept]
  cases hlist : kept with
  | nil => simp [hc]
  | cons d tail =>
      have hd : isSpace d = false := by
        obtain ⟨rest, hrest⟩ := List.rdropWhile_prefix isSpace (text.toList.dropWhile isSpace)
        have hhead := List.head?_dropWhile_not isSpace text.toList
        rw [← hrest, ← hkept, hlist] at hhead
        simpa using hhead
      rw [List.cons_append, List.dropWhile_cons_of_neg (by simp [hd]), ← List.cons_append,
        List.rdropWhile_concat_pos _ _ _ hc, ← hlist, hstay]
/-! ### Numerals -/

/-- `text.isdigit()` on ASCII: at least one character, all of them digits. -/
def isDigits (text : String) : Bool :=
  !text.toList.isEmpty && text.toList.all Char.isDigit

/-- `int(text)` of a text of digits. -/
def number (text : String) : ℕ := Nat.ofDigitChars 10 text.toList 0

@[simp] lemma isDigits_repr (n : ℕ) : isDigits n.repr = true := by
  have hne : Nat.toDigits 10 n ≠ [] := Nat.toDigits_ne_nil
  simp only [isDigits, Nat.toList_repr, Bool.and_eq_true, Bool.not_eq_true',
    List.isEmpty_eq_false_iff, List.all_eq_true]
  exact ⟨hne, fun c hc => Nat.isDigit_of_mem_toDigits (by omega) (by omega) hc⟩

@[simp] lemma number_repr (n : ℕ) : number n.repr = n := by
  rw [number, Nat.toList_repr, Nat.ofDigitChars_ten_toDigits]

lemma isDigit_of_mem_repr {n : ℕ} {c : Char} (h : c ∈ n.repr.toList) : c.isDigit = true := by
  rw [Nat.toList_repr] at h
  exact Nat.isDigit_of_mem_toDigits (by omega) (by omega) h

lemma notMem_repr {n : ℕ} {c : Char} (h : c.isDigit = false) : c ∉ n.repr.toList :=
  fun hc => by simp [isDigit_of_mem_repr hc] at h

/-- Numerals behind one stem are told apart by their numbers. -/
lemma append_repr_inj (stem : String) {m n : ℕ} : stem ++ m.repr = stem ++ n.repr ↔ m = n := by
  rw [String.append_right_inj, Nat.repr_inj]

/-- Two lists with different last letters from different classes: the tails that lie in the
class agree, and so do the heads. -/
private lemma append_inj_of_class {p : Char → Bool} {s t : List Char} {c d : Char}
    {u v : List Char} (hc : p c = false) (hd : p d = false) (hu : ∀ x ∈ u, p x = true)
    (hv : ∀ x ∈ v, p x = true) (h : s ++ c :: u = t ++ d :: v) : s ++ [c] = t ++ [d] ∧ u = v := by
  have hrev : u.reverse ++ c :: s.reverse = v.reverse ++ d :: t.reverse := by
    simpa using congrArg List.reverse h
  have htake : ∀ (w r : List Char) (e : Char), p e = false → (∀ x ∈ w, p x = true) →
      (w.reverse ++ e :: r).takeWhile p = w.reverse ∧
        (w.reverse ++ e :: r).dropWhile p = e :: r := by
    intro w r e he hw
    have hw' : ∀ x ∈ w.reverse, p x = true := by simpa using hw
    rw [List.takeWhile_append_of_pos hw', List.dropWhile_append_of_pos hw']
    simp [he]
  obtain ⟨hu1, hu2⟩ := htake u s.reverse c hc hu
  obtain ⟨hv1, hv2⟩ := htake v t.reverse d hd hv
  rw [hrev] at hu1 hu2
  have huv : u.reverse = v.reverse := hu1.symm.trans hv1
  have hst : c :: s.reverse = d :: t.reverse := hu2.symm.trans hv2
  have hst' := congrArg List.reverse hst
  simp only [List.reverse_cons, List.reverse_reverse] at hst'
  exact ⟨hst', List.reverse_injective huv⟩

/-- A numeral behind a stem that ends in a separator determines stem and number. -/
theorem sep_repr_inj {sep : Char} (hsep : sep.isDigit = false) {s t : String} {m n : ℕ} :
    s ++ String.singleton sep ++ m.repr = t ++ String.singleton sep ++ n.repr
      ↔ s = t ∧ m = n := by
  refine ⟨fun h => ?_, fun ⟨hs, hn⟩ => by rw [hs, hn]⟩
  have hlist := congrArg String.toList h
  simp only [String.toList_append, String.toList_singleton, List.append_assoc,
    List.singleton_append] at hlist
  obtain ⟨hst, hmn⟩ := append_inj_of_class (p := Char.isDigit) hsep hsep
    (fun x hx => isDigit_of_mem_repr hx) (fun x hx => isDigit_of_mem_repr hx) hlist
  refine ⟨?_, ?_⟩
  · exact String.toList_inj.mp (List.append_cancel_right hst)
  · exact Nat.repr_inj.mp (String.toList_inj.mp hmn)

end Text
