import Mathlib.Data.Int.Notation
import Mathlib.Data.List.Nodup
import Tk8s.Lib.Checked

/-!
Documents as a YAML loader gives them, and records read from them field by field.

* `Yaml`: nulls, scalars, lists and mappings; `Yaml.Distinct`: no mapping has a key twice.
* `assign`: an assignment to a key; `truthy`: what counts as true.
* `Decoder`: reads a value, or says where the document does not fit and why (`Fault`). `required`,
  `defaulted`, `onlyFields` read the fields of a record in order; `nullable`, `listOf`, `dictOf` lift
  a decoder.
* `record`: the mapping of some fields, those without a value left out; `lookup_entriesOf_cons`,
  `getD_within`, `onlyFields_record`: **what a decoder finds in a record**, as a `simp` set.
* `listOf_map`, `dictOf_map`: the same for lists and mappings of any keys.
-/

/-- A document; a float by its text. `other` is a scalar nobody here looks into: a date, bytes. -/
inductive Yaml where
  | null
  | bool (b : Bool)
  | int (n : ℤ)
  | float (text : String)
  | str (s : String)
  | other (text : String)
  | list (items : List Yaml)
  | map (entries : List (Yaml × Yaml))
deriving Repr

namespace Yaml

/-- No mapping of the document has a key twice. -/
inductive Distinct : Yaml → Prop
  | null : Distinct .null
  | bool (b : Bool) : Distinct (.bool b)
  | int (n : ℤ) : Distinct (.int n)
  | float (text : String) : Distinct (.float text)
  | str (s : String) : Distinct (.str s)
  | other (text : String) : Distinct (.other text)
  | list {items : List Yaml} (items_distinct : ∀ t ∈ items, Distinct t) : Distinct (.list items)
  | map {entries : List (Yaml × Yaml)} (keys : (entries.map Prod.fst).Nodup)
      (keys_distinct : ∀ e ∈ entries, Distinct e.1) (values_distinct : ∀ e ∈ entries, Distinct e.2) :
      Distinct (.map entries)

/-- The value under a text key. -/
def lookup (name : String) : List (Yaml × Yaml) → Option Yaml
  | [] => none
  | (.str s, v) :: rest => if s = name then some v else lookup name rest
  | _ :: rest => lookup name rest

/-- `bool(value)`; an empty `other` has an empty text. -/
def truthy : Yaml → Bool
  | null => false
  | bool b => b
  | int n => n ≠ 0
  | float text => text ≠ "0.0" && text ≠ "-0.0"
  | str s => s ≠ ""
  | other text => text ≠ ""
  | list items => !items.isEmpty
  | map entries => !entries.isEmpty

/-- `d[key] = value`: in place, or at the end. -/
def assign (key : String) (value : Yaml) : List (Yaml × Yaml) → List (Yaml × Yaml)
  | [] => [(.str key, value)]
  | (.str k, v) :: rest =>
      if k = key then (.str k, value) :: rest else (.str k, v) :: assign key value rest
  | e :: rest => e :: assign key value rest

@[simp] lemma lookup_assign_self (key : String) (value : Yaml) (l : List (Yaml × Yaml)) :
    lookup key (assign key value l) = some value := by
  induction l with
  | nil => simp [assign, lookup]
  | cons e rest ih =>
      obtain ⟨k, v⟩ := e
      cases k with
      | str k =>
          by_cases hk : k = key
          · simp [assign, lookup, hk]
          · simp [assign, lookup, hk, ih]
      | _ => simp [assign, lookup, ih]

lemma lookup_assign_of_ne {key other : String} (h : key ≠ other) (value : Yaml)
    (l : List (Yaml × Yaml)) : lookup other (assign key value l) = lookup other l := by
  induction l with
  | nil => simp [assign, lookup, h]
  | cons e rest ih =>
      obtain ⟨k, v⟩ := e
      cases k with
      | str k =>
          by_cases hk : k = key
          · simp [assign, lookup, hk, h]
          · simp [assign, lookup, hk, ih]
      | _ => simp [assign, lookup, ih]

/-- Assigning what is there changes nothing. -/
lemma assign_of_lookup {key : String} {value : Yaml} {l : List (Yaml × Yaml)}
    (h : lookup key l = some value) : assign key value l = l := by
  induction l with
  | nil => simp [lookup] at h
  | cons e rest ih =>
      obtain ⟨k, v⟩ := e
      cases k with
      | str k =>
          by_cases hk : k = key
          · rw [lookup, if_pos hk, Option.some_inj] at h
            rw [assign, if_pos hk, h]
          · rw [lookup, if_neg hk] at h
            rw [assign, if_neg hk, ih h]
      | _ =>
          simp only [lookup] at h
          simp only [assign, ih h]

/-! ### Decoders -/

/-- Where a document does not fit: the way there, the reason, and what stands there. -/
structure Fault where
  loc : List String
  message : String
  given : Option Yaml

/-- Reads a value out of a document. -/
abbrev Decoder (α : Type) := Yaml → Except Fault α

variable {α β : Type}

/-- The document itself does not fit. -/
def mismatch (message : String) (given : Yaml) : Except Fault α :=
  .error { loc := [], message := message, given := some given }

/-- What is read under a key. -/
def within (key : String) : Except Fault α → Except Fault α
  | .ok a => .ok a
  | .error e => .error { e with loc := key :: e.loc }

@[simp] lemma within_ok {key : String} {a : α} : within key (.ok a) = .ok a := rfl

/-- The fields of a record called `model`. -/
def fieldsOf (model : String) : Decoder (List (Yaml × Yaml))
  | .map entries => .ok entries
  | t => mismatch s!"Input should be a valid dictionary or instance of {model}" t

/-- A field that has to be there. -/
def required (fields : List (Yaml × Yaml)) (name : String) (dec : Decoder α) : Except Fault α :=
  match lookup name fields with
  | none => .error { loc := [name], message := "Field required", given := none }
  | some v => within name (dec v)

/-- A field with a default. -/
def defaulted (fields : List (Yaml × Yaml)) (name : String) (default : α) (dec : Decoder α) :
    Except Fault α :=
  ((lookup name fields).map fun v => within name (dec v)).getD (.ok default)

/-- The first field that is not one of these is refused. -/
def onlyFields (names : List String) : List (Yaml × Yaml) → Except Fault Unit
  | [] => .ok ()
  | (.str s, v) :: rest =>
      if s ∈ names then onlyFields names rest
      else .error { loc := [s], message := "Extra inputs are not permitted", given := some v }
  | (k, _) :: _ => .error { loc := [], message := "Keys should be strings", given := some k }

/-- A value that may be null. -/
def nullable (dec : Decoder α) : Decoder (Option α)
  | .null => .ok none
  | t => some <$> dec t

/-- The entries of a list from number `i` on. -/
def itemsFrom (dec : Decoder α) (i : ℕ) : List Yaml → Except Fault (List α)
  | [] => .ok []
  | t :: rest => do
      let a ← within (toString i) (dec t)
      let l ← itemsFrom dec (i + 1) rest
      return a :: l

def listOf (dec : Decoder α) : Decoder (List α)
  | .list items => itemsFrom dec 0 items
  | t => mismatch "Input should be a valid list" t

/-- A list of at least one entry. -/
def nonEmptyOf (dec : Decoder α) : Decoder (List α)
  | .list [] => mismatch "List should have at least 1 item after validation, not 0" (.list [])
  | t => listOf dec t

/-- The entries of a mapping. -/
def entriesFrom (key : Decoder String) (dec : Decoder α) :
    List (Yaml × Yaml) → Except Fault (List (String × α))
  | [] => .ok []
  | (k, v) :: rest => do
      let name ← key k
      let a ← within name (dec v)
      let l ← entriesFrom key dec rest
      return (name, a) :: l

def dictOf (key : Decoder String) (dec : Decoder α) : Decoder (List (String × α))
  | .map entries => entriesFrom key dec entries
  | t => mismatch "Input should be a valid dictionary" t

/-! ### Records -/

/-- The entries of some fields, those without a value left out. -/
def entriesOf (fields : List (String × Option Yaml)) : List (Yaml × Yaml) :=
  fields.filterMap fun f => f.2.map fun v => (.str f.1, v)

def record (fields : List (String × Option Yaml)) : Yaml := .map (entriesOf fields)

variable {fields : List (String × Option Yaml)} {name : String} {v : Yaml} {dec : Decoder α} {a : α}

@[simp] lemma fieldsOf_record {model : String} :
    fieldsOf model (record fields) = .ok (entriesOf fields) := rfl

lemma entriesOf_cons {f : String × Option Yaml} :
    entriesOf (f :: fields) = (f.2.map fun v => (.str f.1, v)).toList ++ entriesOf fields := by
  cases h : f.2 <;> simp [entriesOf, h]

@[simp] lemma lookup_entriesOf_nil : lookup name (entriesOf []) = none := rfl

/-- **What stands under a field's name**: the field's value, if it has one. -/
@[simp] theorem lookup_entriesOf_cons {key : String} {o : Option Yaml} :
    lookup name (entriesOf ((key, o) :: fields)) =
      if key = name then o.or (lookup name (entriesOf fields)) else lookup name (entriesOf fields) := by
  rw [entriesOf_cons]
  cases o with
  | none => simp
  | some v =>
      by_cases hk : key = name
      · simp [lookup, hk]
      · simp [lookup, hk]

@[simp] lemma nullable_of_ne {t : Yaml} (h : t ≠ .null) : nullable dec t = some <$> dec t := by
  cases t with
  | null => exact absurd rfl h
  | _ => rfl

/-- **A field that may be left out** reads back, there or not. -/
theorem getD_within_of_mem {enc : α → Yaml} {dec : Decoder (Option α)} {o : Option α}
    (h : ∀ b ∈ o, dec (enc b) = .ok (some b)) :
    (o.map ((fun v => within name (dec v)) ∘ enc)).getD (.ok none) = .ok o := by
  cases o with
  | none => rfl
  | some b => simp [h b rfl]

@[simp] lemma getD_within {enc : α → Yaml} {dec : Decoder (Option α)} {o : Option α}
    (h : ∀ b, dec (enc b) = .ok (some b)) :
    (o.map ((fun v => within name (dec v)) ∘ enc)).getD (.ok none) = .ok o :=
  getD_within_of_mem fun b _ => h b

/-- A record has its own fields alone. -/
@[simp] lemma onlyFields_record {names : List String} (h : ∀ f ∈ fields, f.1 ∈ names) :
    onlyFields names (entriesOf fields) = .ok () := by
  induction fields with
  | nil => rfl
  | cons f rest ih =>
      obtain ⟨hf, hrest⟩ := List.forall_mem_cons.mp h
      rw [entriesOf_cons]
      cases hv : f.2 with
      | none => simpa using ih hrest
      | some v => simpa [onlyFields, hf] using ih hrest

/-- **A list reads back** entry by entry. -/
theorem listOf_map {enc : α → Yaml} {l : List α} (h : ∀ b ∈ l, dec (enc b) = .ok b) :
    listOf dec (.list (l.map enc)) = .ok l := by
  have hfrom : ∀ i, itemsFrom dec i (l.map enc) = .ok l := by
    induction l with
    | nil => exact fun _ => rfl
    | cons b l ih =>
        intro i
        obtain ⟨hb, hl⟩ := List.forall_mem_cons.mp h
        rw [List.map_cons, itemsFrom, hb, within_ok, Checked.ok_bind, ih hl]
        rfl
  exact hfrom 0

lemma nonEmptyOf_map {enc : α → Yaml} {l : List α} (hne : l ≠ [])
    (h : ∀ b ∈ l, dec (enc b) = .ok b) : nonEmptyOf dec (.list (l.map enc)) = .ok l := by
  cases l with
  | nil => exact absurd rfl hne
  | cons b l => exact listOf_map h

/-- **A mapping reads back** entry by entry. -/
theorem dictOf_map {key : Decoder String} (enc : α → Yaml) {l : List (String × α)}
    (hkey : ∀ s, key (.str s) = .ok s) (h : ∀ e ∈ l, dec (enc e.2) = .ok e.2) :
    dictOf key dec (.map (l.map fun e => (.str e.1, enc e.2))) = .ok l := by
  rw [dictOf]
  induction l with
  | nil => rfl
  | cons e l ih =>
      obtain ⟨he, hl⟩ := List.forall_mem_cons.mp h
      rw [List.map_cons, entriesFrom, hkey, Checked.ok_bind, he, within_ok, Checked.ok_bind, ih hl]
      rfl

/-! ### No key twice -/

lemma distinct_record (hnd : (fields.map Prod.fst).Nodup)
    (h : ∀ f ∈ fields, ∀ v ∈ f.2, Distinct v) : Distinct (record fields) := by
  have hsub : (entriesOf fields).map Prod.fst = (fields.filter (·.2.isSome)).map (.str ·.1) := by
    clear hnd h
    induction fields with
    | nil => rfl
    | cons f rest ih =>
        rw [entriesOf_cons, List.map_append, ih]
        cases hf : f.2 <;> simp [hf]
  refine Distinct.map ?_ (fun e he => ?_) fun e he => ?_
  · rw [hsub]
    have hkeys : ((fields.filter (·.2.isSome)).map Prod.fst).Nodup :=
      (List.filter_sublist.map _).nodup hnd
    have hmap : (fields.filter (·.2.isSome)).map (.str ·.1) =
        ((fields.filter (·.2.isSome)).map Prod.fst).map Yaml.str := by
      rw [List.map_map]
      rfl
    rw [hmap]
    exact List.Nodup.map (fun a b hab => Yaml.str.inj hab) hkeys
  · obtain ⟨f, -, hv⟩ := List.mem_filterMap.mp he
    obtain ⟨v, -, rfl⟩ := Option.map_eq_some_iff.mp hv
    exact Distinct.str f.1
  · obtain ⟨f, hf, hfield⟩ := List.mem_filterMap.mp he
    obtain ⟨v, hv, rfl⟩ := Option.map_eq_some_iff.mp hfield
    exact h f hf v hv

lemma distinct_list {enc : α → Yaml} {l : List α} (h : ∀ b, Distinct (enc b)) :
    Distinct (.list (l.map enc)) := by
  refine Distinct.list fun t ht => ?_
  obtain ⟨b, -, rfl⟩ := List.mem_map.mp ht
  exact h b

lemma distinct_dict (enc : α → Yaml) {l : List (String × α)} (hnd : (l.map Prod.fst).Nodup)
    (h : ∀ b, Distinct (enc b)) : Distinct (.map (l.map fun e => (.str e.1, enc e.2))) := by
  refine Distinct.map ?_ (fun e he => ?_) fun e he => ?_
  · rw [List.map_map]
    have hkeys : (l.map fun e => Yaml.str e.1) = (l.map Prod.fst).map Yaml.str := by
      rw [List.map_map]
      rfl
    exact hkeys ▸ List.Nodup.map (fun a b hab => Yaml.str.inj hab) hnd
  · obtain ⟨b, -, rfl⟩ := List.mem_map.mp he
    exact Distinct.str b.1
  · obtain ⟨b, -, rfl⟩ := List.mem_map.mp he
    exact h b.2

end Yaml
