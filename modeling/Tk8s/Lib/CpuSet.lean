import Mathlib
import Tk8s.Lib.Text

/-!
The two notations the kernel has for a set of cpus, and how they are read.

* `readList`: a cpu list, such as `0-3,5`; `readList_range` reads a single range.
* `hex`, `hexValue`: hexadecimal numerals; `hexValue_hex` is the round trip.
* `readWords`, `wordsValue`: a cpu mask, 32-bit words behind each other from the top;
  `readWords_join` is the round trip of the words.
-/

namespace CpuSet

/-- A line of a file, without the newline that ends it. -/
def line (text : String) : Option String :=
  if text.toList.getLast? = some '\n' then some (String.ofList text.toList.dropLast) else none

lemma line_append (s : String) : line (s ++ "\n") = some s := by
  have hlist : (s ++ "\n").toList = s.toList ++ ['\n'] := by simp
  rw [line, hlist, List.getLast?_concat, if_pos rfl, List.dropLast_concat, String.ofList_toList]

/-! ### Lists -/

/-- The first and the last of a range. -/
def rangeOf (first last : String) : Option (List ℕ) :=
  if Text.isDigits first && Text.isDigits last && decide (Text.number first ≤ Text.number last) then
    some (List.range' (Text.number first) (Text.number last + 1 - Text.number first))
  else none

/-- One cpu, or a range of them. -/
def readRange (s : String) : Option (List ℕ) :=
  if '-' ∈ s.toList then rangeOf (Text.partition '-' s).1 (Text.partition '-' s).2
  else if Text.isDigits s then some [Text.number s]
  else none

/-- The cpus of a cpu list. -/
def readList (text : String) : Option (List ℕ) :=
  (line text).bind fun s =>
    if s = "" then some [] else List.flatten <$> (Text.splitOn ',' s).mapM readRange

lemma readRange_repr (a : ℕ) : readRange a.repr = some [a] := by
  have hnot : '-' ∉ a.repr.toList := Text.notMem_repr (by decide)
  rw [readRange, if_neg hnot, if_pos (Text.isDigits_repr a), Text.number_repr]

lemma readRange_range {a b : ℕ} (h : a ≤ b) :
    readRange (a.repr ++ "-" ++ b.repr) = some (List.range' a (b + 1 - a)) := by
  have hcut : Text.partition '-' (a.repr ++ "-" ++ b.repr) = (a.repr, b.repr) :=
    Text.partition_append (Text.notMem_repr (by decide)) b.repr
  have hmem : '-' ∈ (a.repr ++ "-" ++ b.repr).toList := by simp
  rw [readRange, if_pos hmem, hcut]
  simp [rangeOf, h]

/-- A list of a single entry. -/
lemma readList_of_range {s : String} {cpus : List ℕ} (hne : s ≠ "") (hcomma : ',' ∉ s.toList)
    (h : readRange s = some cpus) : readList (s ++ "\n") = some cpus := by
  have hsplit : Text.splitOn ',' s = [s] := by
    have hone : Text.splitOn ',' (Text.join ',' [s]) = [s] :=
      Text.splitOn_join (by simp) (by simpa using hcomma)
    rwa [Text.join_singleton] at hone
  simp [readList, line_append, hne, hsplit, h]

/-! ### Hexadecimal numerals -/

/-- A number as Python's `:x` writes it. -/
def hex (n : ℕ) : String := String.ofList (Nat.toDigits 16 n)

def hexDigit? (c : Char) : Option ℕ :=
  if c.isDigit then some (c.toNat - '0'.toNat)
  else if 'a' ≤ c ∧ c ≤ 'f' then some (c.toNat - 'a'.toNat + 10)
  else if 'A' ≤ c ∧ c ≤ 'F' then some (c.toNat - 'A'.toNat + 10)
  else none

/-- The digits behind a number that was read already. -/
def hexFrom (acc : ℕ) : List Char → Option ℕ
  | [] => some acc
  | c :: cs => (hexDigit? c).bind fun d => hexFrom (16 * acc + d) cs

/-- The value of a hexadecimal numeral. -/
def hexValue (s : String) : Option ℕ := if s = "" then none else hexFrom 0 s.toList

lemma hexDigit?_digitChar {d : ℕ} (h : d < 16) : hexDigit? d.digitChar = some d := by
  revert d
  decide

lemma hexFrom_append (acc : ℕ) (cs ds : List Char) :
    hexFrom acc (cs ++ ds) = (hexFrom acc cs).bind fun v => hexFrom v ds := by
  induction cs generalizing acc with
  | nil => rfl
  | cons c cs ih => cases hc : hexDigit? c <;> simp [hexFrom, hc, ih]

lemma hexFrom_toDigits (n : ℕ) : hexFrom 0 (Nat.toDigits 16 n) = some n := by
  induction n using Nat.strong_induction_on with
  | _ n ih =>
      rw [Nat.toDigits_eq_if (by decide)]
      split_ifs with hn
      · simp [hexFrom, hexDigit?_digitChar hn]
      · have hlast : hexDigit? (n % 16).digitChar = some (n % 16) :=
          hexDigit?_digitChar (Nat.mod_lt _ (by decide))
        rw [hexFrom_append, ih (n / 16) (by omega)]
        simp only [Option.bind_some, hexFrom, hlast, Option.some.injEq]
        omega

@[simp] lemma toList_hex (n : ℕ) : (hex n).toList = Nat.toDigits 16 n := String.toList_ofList

/-- **A numeral is read back.** -/
theorem hexValue_hex (n : ℕ) : hexValue (hex n) = some n := by
  have hne : hex n ≠ "" := by
    intro h
    have hnil : Nat.toDigits 16 n = [] := by rw [← toList_hex, h, String.toList_empty]
    exact Nat.toDigits_ne_nil hnil
  rw [hexValue, if_neg hne, toList_hex, hexFrom_toDigits]

/-- The characters of a numeral. -/
lemma isHex_of_mem_hex {n : ℕ} {c : Char} (h : c ∈ (hex n).toList) : (hexDigit? c).isSome = true := by
  rw [toList_hex] at h
  induction n using Nat.strong_induction_on with
  | _ n ih =>
      rw [Nat.toDigits_eq_if (by decide)] at h
      split_ifs at h with hn
      · rw [List.mem_singleton.mp h, hexDigit?_digitChar hn]
        rfl
      · cases List.mem_append.mp h with
        | inl hc => exact ih (n / 16) (by omega) hc
        | inr hc =>
            rw [List.mem_singleton.mp hc, hexDigit?_digitChar (Nat.mod_lt _ (by decide))]
            rfl

/-! ### Masks -/

/-- A word of a mask: at most eight hexadecimal digits. -/
def readWord (s : String) : Option ℕ := if s.toList.length ≤ 8 then hexValue s else none

/-- The words of a mask, from the top. -/
def readWords (text : String) : Option (List ℕ) :=
  (line text).bind fun s => (Text.splitOn ',' s).mapM readWord

/-- The number the words of a mask are the digits of, to the base `2 ^ 32`. -/
def wordsValue (words : List ℕ) : ℕ := words.foldl (fun acc w => 2 ^ 32 * acc + w) 0

@[simp] lemma wordsValue_concat (words : List ℕ) (w : ℕ) :
    wordsValue (words ++ [w]) = 2 ^ 32 * wordsValue words + w := by
  rw [wordsValue, List.foldl_append]
  rfl

lemma readWord_hex {w : ℕ} (h : w < 2 ^ 32) : readWord (hex w) = some w := by
  have hlen : (Nat.toDigits 16 w).length ≤ 8 := by
    rw [Nat.length_toDigits_le_iff (by decide) (by decide)]
    exact h
  rw [readWord, toList_hex, if_pos hlen, hexValue_hex]

/-- **The words of a mask are read back.** -/
theorem readWords_join {words : List ℕ} (hne : words ≠ []) (h : ∀ w ∈ words, w < 2 ^ 32) :
    readWords (Text.join ',' (words.map hex) ++ "\n") = some words := by
  have hsplit : Text.splitOn ',' (Text.join ',' (words.map hex)) = words.map hex := by
    refine Text.splitOn_join (by simpa using hne) fun p hp hcomma => ?_
    obtain ⟨w, -, rfl⟩ := List.mem_map.mp hp
    exact absurd (isHex_of_mem_hex hcomma) (by decide)
  rw [readWords, line_append, Option.bind_some, hsplit]
  clear hsplit hne
  induction words with
  | nil => rfl
  | cons w words ih =>
      have hw := readWord_hex (h w (by simp))
      have hrest := ih fun w' hw' => h w' (List.mem_cons_of_mem _ hw')
      simp [hw, hrest]

end CpuSet
