import Mathlib.Data.List.Chain
import Mathlib.Data.List.Nodup
import Tk8s.Model

/-!
`create/plan.py`: the text of an address range and the pool it stands for.

* `parseRange`: comma-separated `A-B` segments or lone addresses, no address twice.
* `rangesText`: addresses as such segments, in the given order.
* `splitOn_rangesText`: the segments of the text of a pool are its runs.
* `parseRange_rangesText`: **reading the text of a pool gives the pool back**; `nodup_parseRange`:
  a pool holds no address twice.
* `rangesText_run`, `rangesText_lone`: what the text of a pool starts with.
-/

namespace Tk8s

open Net

/-! ### Reading a range -/

/-- `A` or `A-B`, the end in full or as the last octet. -/
def segmentEnds (seg : String) : Except Raised (IPv4Address × IPv4Address) := do
  let bad : Raised := .planError
    s!"spec.network.range must be A-B[,C-D] (IPv4 addresses, the end may be a last octet): '{seg}'"
  let (aText, bText) := Text.partition '-' seg
  let a ← Checked.ofOption bad (IPv4Address.parse aText)
  let bText :=
    if bText ≠ "" ∧ '.' ∉ bText.toList then
      Text.join '.' ((Text.splitOn '.' aText).take 3 ++ [bText])
    else bText
  let b ← Checked.ofOption bad (IPv4Address.parse (if bText = "" then aText else bText))
  return (a, b)

/-- The inner loop: append addresses one by one, refusing one that is there. -/
def appendAll (pool : List IPv4Address) : List IPv4Address → Except Raised (List IPv4Address)
  | [] => .ok pool
  | ip :: rest =>
      if ip ∈ pool then .error (.planError s!"spec.network.range: {ip.text} is listed twice")
      else appendAll (pool ++ [ip]) rest

/-- The outer loop, over the segments. -/
def parseSegments (pool : List IPv4Address) : List String → Except Raised (List IPv4Address)
  | [] => .ok pool
  | seg :: rest => do
      let seg := Text.strip seg
      let (a, b) ← segmentEnds seg
      Checked.refuseIf (¬ a ≤ b)
        (.planError s!"spec.network.range {seg}: the end is before the start")
      let pool ← appendAll pool (IPv4Address.upTo a b)
      parseSegments pool rest

/-- The address pool a range text stands for. -/
def parseRange (text : String) : Except Raised (List IPv4Address) :=
  parseSegments [] (Text.splitOn ',' text)

lemma appendAll_eq_ok {pool l r : List IPv4Address} (hp : pool.Nodup) :
    appendAll pool l = .ok r ↔ r = pool ++ l ∧ r.Nodup := by
  induction l generalizing pool with
  | nil =>
      rw [appendAll, List.append_nil, Except.ok.injEq]
      exact ⟨fun h => ⟨h.symm, h ▸ hp⟩, fun h => h.1.symm⟩
  | cons ip rest ih =>
      rw [appendAll]
      split
      · rename_i hmem
        constructor
        · intro h; simp at h
        · rintro ⟨rfl, hnd⟩
          exact absurd rfl ((List.nodup_append.mp hnd).2.2 ip hmem ip (by simp))
      · rename_i hmem
        have hnd : (pool ++ [ip]).Nodup := by
          refine List.nodup_append.mpr ⟨hp, by simp, fun a ha b hb hab => hmem ?_⟩
          rwa [← List.mem_singleton.mp hb, ← hab]
        rw [ih hnd, List.append_assoc, List.singleton_append]

lemma nodup_parseSegments {pool r : List IPv4Address} {segs : List String} (hp : pool.Nodup)
    (h : parseSegments pool segs = .ok r) : r.Nodup := by
  induction segs generalizing pool with
  | nil => rw [parseSegments, Except.ok.injEq] at h; exact h ▸ hp
  | cons seg rest ih =>
      simp only [parseSegments, Checked.bind_eq_ok] at h
      obtain ⟨⟨a, b⟩, -, -, -, mid, hmid, hrest⟩ := h
      exact ih ((appendAll_eq_ok hp).mp hmid).2 hrest

/-- A pool holds no address twice. -/
theorem nodup_parseRange {text : String} {pool : List IPv4Address}
    (h : parseRange text = .ok pool) : pool.Nodup :=
  nodup_parseSegments List.nodup_nil h

/-- The loop only appends. -/
lemma prefix_parseSegments {pool r : List IPv4Address} {segs : List String} (hp : pool.Nodup)
    (h : parseSegments pool segs = .ok r) : pool <+: r := by
  induction segs generalizing pool with
  | nil =>
      rw [parseSegments, Except.ok.injEq] at h
      exact h ▸ List.prefix_rfl
  | cons seg rest ih =>
      simp only [parseSegments, Checked.bind_eq_ok] at h
      obtain ⟨⟨a, b⟩, -, -, -, mid, hmid, hrest⟩ := h
      obtain ⟨rfl, hnd⟩ := (appendAll_eq_ok hp).mp hmid
      exact (List.prefix_append _ _).trans (ih hnd hrest)

/-- A pool is not empty. -/
theorem ne_nil_of_parseRange {text : String} {pool : List IPv4Address}
    (h : parseRange text = .ok pool) : pool ≠ [] := by
  rw [parseRange] at h
  cases hsegs : Text.splitOn ',' text with
  | nil => exact absurd hsegs (by simp [Text.splitOn])
  | cons seg rest =>
      simp only [hsegs, parseSegments, Checked.bind_eq_ok, Checked.refuseIf_eq_ok, not_not] at h
      obtain ⟨⟨a, b⟩, -, -, hle, mid, hmid, hrest⟩ := h
      obtain ⟨rfl, hnd⟩ := (appendAll_eq_ok List.nodup_nil).mp hmid
      have hmem : a.toNat ∈ (IPv4Address.upTo a b).map IPv4Address.toNat := by
        rw [IPv4Address.map_toNat_upTo, List.mem_range'_1]
        have hab : a.toNat ≤ b.toNat := hle
        omega
      obtain ⟨a', ha', -⟩ := List.mem_map.mp hmem
      exact List.ne_nil_of_mem ((prefix_parseSegments hnd hrest).subset ha')

/-! ### Writing a range -/

/-- The text of a run of consecutive addresses. -/
def runText (run : List IPv4Address) : String :=
  match run with
  | [] => ""
  | [a] => a.text
  | a :: b :: rest =>
      a.text ++ "-" ++ ((a :: b :: rest).getLast (List.cons_ne_nil _ _)).text

/-- The loop of `ranges_text`: the segments that come out, with the run being read. -/
def segmentTexts (run : List IPv4Address) : List IPv4Address → List String
  | [] => if run = [] then [] else [runText run]
  | ip :: rest =>
      match run.getLast? with
      | none => segmentTexts [ip] rest
      | some last =>
          if ip.toNat ≠ last.toNat + 1 then runText run :: segmentTexts [ip] rest
          else segmentTexts (run ++ [ip]) rest

/-- Addresses as `A-B` segments (a lone address as itself), in the given order. -/
def rangesText (addrs : List IPv4Address) : String :=
  Text.join ',' (segmentTexts [] addrs)

/-- Consecutive addresses, at least one. -/
structure IsRun (run : List IPv4Address) : Prop where
  ne_nil : run ≠ []
  chain : run.IsChain fun x y => y.toNat = x.toNat + 1

lemma isRun_singleton (a : IPv4Address) : IsRun [a] := ⟨by simp, by simp⟩

/-- The loop cuts the addresses into runs and writes each of them. -/
lemma exists_runs {run : List IPv4Address} (hrun : IsRun run) (addrs : List IPv4Address) :
    ∃ runs : List (List IPv4Address), segmentTexts run addrs = runs.map runText ∧
      runs.flatten = run ++ addrs ∧ ∀ r ∈ runs, IsRun r := by
  induction addrs generalizing run with
  | nil => exact ⟨[run], by simp [segmentTexts, hrun.ne_nil], by simp, by simpa using hrun⟩
  | cons ip rest ih =>
      obtain ⟨last, hlast⟩ : ∃ last, run.getLast? = some last :=
        ⟨_, List.getLast?_eq_getLast_of_ne_nil hrun.ne_nil⟩
      rw [segmentTexts, hlast]
      by_cases hip : ip.toNat = last.toNat + 1
      · have hrun' : IsRun (run ++ [ip]) := by
          refine ⟨by simp, ?_⟩
          rw [List.isChain_append]
          refine ⟨hrun.chain, List.isChain_singleton _, fun x hx y hy => ?_⟩
          rw [hlast, Option.mem_some_iff] at hx
          simp only [List.head?_cons, Option.mem_some_iff] at hy
          rw [← hx, ← hy]
          exact hip
        obtain ⟨runs, htext, hflat, hall⟩ := ih hrun'
        refine ⟨runs, ?_, ?_, hall⟩
        · simpa [hip] using htext
        · rw [hflat, List.append_assoc, List.singleton_append]
      · obtain ⟨runs, htext, hflat, hall⟩ := ih (isRun_singleton ip)
        refine ⟨run :: runs, ?_, ?_, ?_⟩
        · simp [hip, htext]
        · rw [List.flatten_cons, hflat, List.singleton_append]
        · exact List.forall_mem_cons.mpr ⟨hrun, hall⟩

/-- The characters of a range text: those of the addresses, and the dash. -/
lemma charIn_of_mem_runText {run : List IPv4Address} {c : Char} (h : c ∈ (runText run).toList) :
    IPv4Address.CharIn c ∨ c = '-' := by
  unfold runText at h
  split at h
  · simp at h
  · exact Or.inl (IPv4Address.charIn_of_mem_text h)
  · simp only [String.toList_append, List.mem_append] at h
    rcases h with (h | h) | h
    · exact Or.inl (IPv4Address.charIn_of_mem_text h)
    · exact Or.inr (by simpa using h)
    · exact Or.inl (IPv4Address.charIn_of_mem_text h)

lemma isSpace_eq_false {c : Char} (h : IPv4Address.CharIn c ∨ c = '-') :
    Text.isSpace c = false := by
  rcases h with (h | rfl) | rfl
  · by_contra hs
    simp only [Text.isSpace, Bool.not_eq_false, Bool.or_eq_true, decide_eq_true_eq,
      Bool.and_eq_true] at hs
    rcases hs with (((((rfl | rfl) | rfl) | rfl) | rfl) | rfl) | ⟨h1, h2⟩
    all_goals first | exact absurd h (by decide) | skip
    simp only [Char.isDigit, Bool.and_eq_true, decide_eq_true_eq] at h
    have hlow : c.val ≤ '\x1f'.val := h2
    have hdig : ('0' : Char).val ≤ c.val := h.1
    exact absurd (UInt32.le_trans hdig hlow) (by decide)
  · decide
  · decide

/-! ### The round trip -/

lemma dash_notMem_text (a : IPv4Address) : '-' ∉ a.text.toList :=
  a.notMem_text (by decide) (by decide)

/-- Two addresses with a dash read back as the two. -/
lemma segmentEnds_pair (a b : IPv4Address) : segmentEnds (a.text ++ "-" ++ b.text) = .ok (a, b) := by
  have hne : b.text ≠ "" := fun h => by
    have := IPv4Address.parse_text b
    rw [h] at this
    exact absurd this (by simp [show IPv4Address.parse "" = none by decide])
  have hdot : '.' ∈ b.text.toList := by
    rw [IPv4Address.text, Text.toList_join]
    simp [IPv4Address.octets]
  have hpart : Text.partition '-' (a.text ++ "-" ++ b.text) = (a.text, b.text) :=
    Text.partition_append (dash_notMem_text a) _
  simp only [segmentEnds, hpart, hdot, hne, not_true_eq_false, and_false, if_false,
    IPv4Address.parse_text, Checked.ofOption, bind, Except.bind, pure, Except.pure]

/-- A written run reads back as its first and last address. -/
lemma segmentEnds_runText {a : IPv4Address} {l : List IPv4Address} :
    segmentEnds (runText (a :: l)) =
      .ok (a, (a :: l).getLast (List.cons_ne_nil a l)) := by
  cases l with
  | nil =>
      simp only [segmentEnds, runText, Text.partition_of_notMem (dash_notMem_text a), ne_eq,
        not_true_eq_false, false_and, if_false, if_true, IPv4Address.parse_text,
        Checked.ofOption, bind, Except.bind, pure, Except.pure, List.getLast_singleton]
  | cons b rest => exact segmentEnds_pair a _

lemma parseSegments_runs {runs : List (List IPv4Address)} (hruns : ∀ r ∈ runs, IsRun r)
    {pool : List IPv4Address} (hnd : (pool ++ runs.flatten).Nodup) :
    parseSegments pool (runs.map runText) = .ok (pool ++ runs.flatten) := by
  induction runs generalizing pool with
  | nil => simp [parseSegments]
  | cons r runs ih =>
      obtain ⟨hr, hrest⟩ := List.forall_mem_cons.mp hruns
      obtain ⟨a, l, rfl⟩ := List.exists_cons_of_ne_nil hr.ne_nil
      have hstrip : Text.strip (runText (a :: l)) = runText (a :: l) :=
        Text.strip_of_forall fun c hc => isSpace_eq_false (charIn_of_mem_runText hc)
      have hup := IPv4Address.upTo_getLast hr.chain
      have hle : a ≤ (a :: l).getLast (List.cons_ne_nil a l) := by
        by_contra hlt
        rw [IPv4Address.le_def] at hlt
        have hmap := IPv4Address.map_toNat_upTo a ((a :: l).getLast (List.cons_ne_nil a l))
        rw [hup, show ((a :: l).getLast (List.cons_ne_nil a l)).toNat + 1 - a.toNat = 0 by omega]
          at hmap
        simp at hmap
      rw [List.flatten_cons, ← List.append_assoc] at hnd ⊢
      have hhead : (pool ++ (a :: l)).Nodup := (List.nodup_append.mp hnd).1
      have happ : appendAll pool (a :: l) = .ok (pool ++ (a :: l)) :=
        (appendAll_eq_ok (List.nodup_append.mp hhead).1).mpr ⟨rfl, hhead⟩
      rw [List.map_cons, parseSegments]
      simp only [hstrip, segmentEnds_runText]
      change (do
        Checked.refuseIf _ _
        let pool ← appendAll pool (IPv4Address.upTo a _)
        parseSegments pool _) = _
      rw [hup, happ]
      simp only [Checked.refuseIf, hle, not_true_eq_false, if_false]
      exact ih hrest hnd

/-- **The segments of the text of a pool** are its runs. -/
lemma splitOn_rangesText {pool : List IPv4Address} (hne : pool ≠ []) :
    ∃ runs : List (List IPv4Address), Text.splitOn ',' (rangesText pool) = runs.map runText ∧
      runs.flatten = pool ∧ ∀ r ∈ runs, IsRun r := by
  obtain ⟨a, l, rfl⟩ := List.exists_cons_of_ne_nil hne
  obtain ⟨runs, htext, hflat, hall⟩ := exists_runs (isRun_singleton a) l
  have hruns : runs ≠ [] := by rintro rfl; simp at hflat
  have hcomma : ∀ p ∈ runs.map runText, ',' ∉ p.toList := by
    intro p hp hc
    obtain ⟨r, -, rfl⟩ := List.mem_map.mp hp
    rcases charIn_of_mem_runText hc with (h | h) | h
    all_goals exact absurd h (by decide)
  have hseg : segmentTexts [] (a :: l) = runs.map runText := by
    rw [segmentTexts]; exact htext
  refine ⟨runs, ?_, hflat, hall⟩
  rw [rangesText, hseg, Text.splitOn_join (by simpa using hruns) hcomma]

/-- **The text of a pool reads back as the pool.** -/
theorem parseRange_rangesText {pool : List IPv4Address} (hne : pool ≠ []) (hnd : pool.Nodup) :
    parseRange (rangesText pool) = .ok pool := by
  obtain ⟨runs, hsplit, hflat, hall⟩ := splitOn_rangesText hne
  rw [parseRange, hsplit, parseSegments_runs hall (by simpa [hflat] using hnd), hflat]
  rfl

/-- **The text of an interval reads as its addresses.** -/
theorem parseRange_interval {a b : IPv4Address} (h : a ≤ b) :
    parseRange (a.text ++ "-" ++ b.text) = .ok (IPv4Address.upTo a b) := by
  have hchar : ∀ c ∈ (a.text ++ "-" ++ b.text).toList, IPv4Address.CharIn c ∨ c = '-' := by
    intro c hc
    simp only [String.toList_append, List.mem_append] at hc
    rcases hc with (hc | hc) | hc
    · exact Or.inl (IPv4Address.charIn_of_mem_text hc)
    · exact Or.inr (by simpa using hc)
    · exact Or.inl (IPv4Address.charIn_of_mem_text hc)
  have hcomma : ',' ∉ (a.text ++ "-" ++ b.text).toList := by
    intro hc
    rcases hchar _ hc with (hc | hc) | hc
    all_goals exact absurd hc (by decide)
  have hsplit : Text.splitOn ',' (a.text ++ "-" ++ b.text) = [a.text ++ "-" ++ b.text] := by
    have hjoin := @Text.splitOn_join ',' [a.text ++ "-" ++ b.text] (by simp) (by simpa using hcomma)
    rwa [Text.join_singleton] at hjoin
  have hstrip : Text.strip (a.text ++ "-" ++ b.text) = a.text ++ "-" ++ b.text :=
    Text.strip_of_forall fun c hc => isSpace_eq_false (hchar c hc)
  have hnd : (IPv4Address.upTo a b).Nodup := by
    refine List.Nodup.of_map IPv4Address.toNat ?_
    rw [IPv4Address.map_toNat_upTo]
    exact List.nodup_range'
  have happ : appendAll [] (IPv4Address.upTo a b) = .ok (IPv4Address.upTo a b) :=
    (appendAll_eq_ok List.nodup_nil).mpr ⟨rfl, hnd⟩
  rw [parseRange, hsplit, parseSegments]
  simp only [hstrip, segmentEnds_pair, Checked.ok_bind, Checked.refuseIf, h, not_true_eq_false,
    if_false, happ, parseSegments]

/-! ### How a range text starts -/

/-- The pool is one address, or its second follows its first. -/
def StartsInRun (pool : List IPv4Address) : Prop :=
  ∀ a b rest, pool = a :: b :: rest → b.toNat = a.toNat + 1

lemma segmentTexts_of_two {a b : IPv4Address} {l : List IPv4Address} (rest : List IPv4Address) :
    ∃ x tl, segmentTexts (a :: b :: l) rest = (a.text ++ String.singleton '-' ++ x) :: tl := by
  induction rest generalizing l with
  | nil => exact ⟨_, [], by simp only [segmentTexts, List.cons_ne_nil, if_false]; rfl⟩
  | cons ip rest ih =>
      obtain ⟨last, hlast⟩ : ∃ last, (a :: b :: l).getLast? = some last :=
        ⟨_, List.getLast?_eq_getLast_of_ne_nil (List.cons_ne_nil _ _)⟩
      rw [segmentTexts, hlast]
      by_cases hip : ip.toNat = last.toNat + 1
      · simpa [hip] using ih (l := l ++ [ip])
      · exact ⟨_, _, by simp only [ne_eq, hip, not_false_eq_true, if_true]; rfl⟩

/-- A pool whose second address follows its first starts with a segment `A-B`. -/
lemma rangesText_run {a b : IPv4Address} (h : b.toNat = a.toNat + 1) (rest : List IPv4Address) :
    ∃ x, rangesText (a :: b :: rest) = a.text ++ String.singleton '-' ++ x := by
  obtain ⟨x, tl, hx⟩ := segmentTexts_of_two (a := a) (b := b) (l := []) rest
  have hseg : segmentTexts [] (a :: b :: rest) = (a.text ++ String.singleton '-' ++ x) :: tl := by
    simpa [segmentTexts, h] using hx
  rw [rangesText, hseg]
  cases tl with
  | nil => exact ⟨x, Text.join_singleton _ _⟩
  | cons q qs =>
      refine ⟨x ++ String.singleton ',' ++ Text.join ',' (q :: qs), ?_⟩
      rw [Text.join_cons_cons]
      simp only [String.append_assoc]

/-- A pool whose first address stands alone starts with it and a comma. -/
lemma rangesText_lone {a b : IPv4Address} (h : b.toNat ≠ a.toNat + 1) (rest : List IPv4Address) :
    ∃ x, rangesText (a :: b :: rest) = a.text ++ String.singleton ',' ++ x := by
  have hseg : segmentTexts [] (a :: b :: rest) = a.text :: segmentTexts [b] rest := by
    simp [segmentTexts, h, runText]
  obtain ⟨runs, htext, hflat, -⟩ := exists_runs (isRun_singleton b) rest
  rw [rangesText, hseg, htext]
  cases runs with
  | nil => simp at hflat
  | cons r runs => exact ⟨_, Text.join_cons_cons _ _ _ _⟩

end Tk8s
