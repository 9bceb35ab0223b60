import Mathlib.Data.List.Basic
import Mathlib.Data.List.Nodup

/-! Insertion-ordered dictionaries: a key keeps its place when its value is
replaced, and a new key goes last. Distinctness of the keys is a field. -/

set_option autoImplicit false

structure Dict (K V : Type*) where
  entries : List (K × V)
  unique : (entries.map Prod.fst).Nodup

namespace Dict

variable {K V : Type*}

def empty : Dict K V := ⟨[], List.nodup_nil⟩

instance : EmptyCollection (Dict K V) := ⟨empty⟩

def keys (d : Dict K V) : List K := d.entries.map Prod.fst

instance : Membership K (Dict K V) := ⟨fun d key => key ∈ d.keys⟩

theorem mem_iff {d : Dict K V} {key : K} : key ∈ d ↔ ∃ value, (key, value) ∈ d.entries := by
  change key ∈ d.keys ↔ _
  simp [keys]

@[simp] theorem notMem_empty (key : K) : key ∉ (∅ : Dict K V) := List.not_mem_nil

variable [DecidableEq K]

instance (d : Dict K V) (key : K) : Decidable (key ∈ d) := inferInstanceAs (Decidable (key ∈ d.keys))

def get (d : Dict K V) (key : K) : Option V :=
  (d.entries.find? fun entry => entry.1 = key).map Prod.snd

theorem get_eq_some_iff {d : Dict K V} {key : K} {value : V} :
    d.get key = some value ↔ (key, value) ∈ d.entries := by
  constructor
  · intro found
    obtain ⟨⟨k, v⟩, search, same⟩ := Option.map_eq_some_iff.mp found
    have here : k = key := by simpa using List.find?_some search
    cases here; cases same
    exact List.mem_of_find?_eq_some search
  · intro member
    have some : (d.entries.find? fun entry => entry.1 = key).isSome :=
      List.find?_isSome.mpr ⟨(key, value), member, by simp⟩
    obtain ⟨entry, search⟩ := Option.isSome_iff_exists.mp some
    have here : entry.1 = key := by simpa using List.find?_some search
    have only : entry = (key, value) :=
      List.inj_on_of_nodup_map d.unique (List.mem_of_find?_eq_some search) member here
    simp [get, search, only]

theorem mem_iff_get {d : Dict K V} {key : K} : key ∈ d ↔ ∃ value, d.get key = some value := by
  simp only [mem_iff, get_eq_some_iff]

theorem get_eq_none_iff {d : Dict K V} {key : K} : d.get key = none ↔ key ∉ d := by
  rw [mem_iff_get, Option.eq_none_iff_forall_ne_some, not_exists]

@[simp] theorem get_empty (key : K) : (∅ : Dict K V).get key = none := rfl

private theorem map_replace_fst (entries : List (K × V)) (key : K) (value : V) :
    (entries.map fun entry => if entry.1 = key then (key, value) else entry).map Prod.fst =
      entries.map Prod.fst := by
  simp only [List.map_map]
  apply List.map_congr_left
  intro entry _
  by_cases same : entry.1 = key <;> simp [same]

def set (d : Dict K V) (key : K) (value : V) : Dict K V :=
  if present : key ∈ d then
    { entries := d.entries.map fun entry => if entry.1 = key then (key, value) else entry
      unique := by rw [map_replace_fst]; exact d.unique }
  else
    { entries := d.entries ++ [(key, value)]
      unique := by
        rw [List.map_append]
        refine List.Nodup.append d.unique (List.nodup_singleton _) ?_
        simp only [List.map_cons, List.map_nil, List.disjoint_singleton]
        exact present }

def erase (d : Dict K V) (key : K) : Dict K V where
  entries := d.entries.filter fun entry => entry.1 ≠ key
  unique := List.Nodup.sublist (List.filter_sublist.map Prod.fst) d.unique

omit [DecidableEq K] in
def restrict (d : Dict K V) (keep : K → Bool) : Dict K V where
  entries := d.entries.filter fun entry => keep entry.1
  unique := List.Nodup.sublist (List.filter_sublist.map Prod.fst) d.unique

/-- A dictionary display `{**d, ...}`: later entries win. -/
def update (d : Dict K V) (entries : List (K × V)) : Dict K V :=
  entries.foldl (fun d entry => d.set entry.1 entry.2) d

theorem get_set (d : Dict K V) (key other : K) (value : V) :
    (d.set key value).get other = if other = key then some value else d.get other := by
  by_cases present : key ∈ d
  -- the entry is replaced where it stands
  · obtain ⟨old, stored⟩ := mem_iff.mp present
    ext v
    simp only [set, dif_pos present, get_eq_some_iff, List.mem_map]
    by_cases same : other = key
    · subst same
      simp only [if_true, Option.some.injEq]
      constructor
      · rintro ⟨entry, member, equal⟩
        by_cases here : entry.1 = other
        · rw [if_pos here] at equal; exact (Prod.mk.inj equal).2
        · rw [if_neg here] at equal; exact absurd (congrArg Prod.fst equal) here
      · rintro rfl
        exact ⟨(other, old), stored, by simp⟩
    · rw [if_neg same, get_eq_some_iff]
      constructor
      · rintro ⟨entry, member, equal⟩
        by_cases here : entry.1 = key
        · rw [if_pos here] at equal; exact absurd (congrArg Prod.fst equal).symm same
        · rw [if_neg here] at equal; exact equal ▸ member
      · intro member
        exact ⟨(other, v), member, by simp [same]⟩
  -- a new entry goes last
  · ext v
    simp only [set, dif_neg present, get_eq_some_iff, List.mem_append, List.mem_singleton, Prod.mk.injEq]
    by_cases same : other = key
    · subst same
      have missing : (other, v) ∉ d.entries := fun member => present (mem_iff.mpr ⟨v, member⟩)
      simp [missing, eq_comm]
    · simp [same, get_eq_some_iff]

@[simp] theorem get_set_self (d : Dict K V) (key : K) (value : V) : (d.set key value).get key = some value := by
  simp [get_set]

theorem get_set_of_ne {d : Dict K V} {key other : K} (value : V) (apart : other ≠ key) :
    (d.set key value).get other = d.get other := by
  simp [get_set, apart]

theorem get_erase (d : Dict K V) (key other : K) :
    (d.erase key).get other = if other = key then none else d.get other := by
  ext v
  by_cases same : other = key <;> simp [erase, get_eq_some_iff, same]

theorem keys_set_of_notMem {d : Dict K V} {key : K} (missing : key ∉ d) (value : V) :
    (d.set key value).keys = d.keys ++ [key] := by
  rw [set, dif_neg missing]
  exact List.map_append

theorem keys_set_of_mem {d : Dict K V} {key : K} (member : key ∈ d) (value : V) : (d.set key value).keys = d.keys := by
  rw [set, dif_pos member]
  exact map_replace_fst d.entries key value

theorem keys_erase (d : Dict K V) (key : K) : (d.erase key).keys = d.keys.erase key := by
  rw [keys, keys, List.Nodup.erase_eq_filter d.unique, erase, List.filter_map]
  congr 1
  apply List.filter_congr
  intro entry _
  by_cases same : entry.1 = key <;> simp [same]

theorem length_keys_erase {d : Dict K V} {key : K} (member : key ∈ d) :
    (d.erase key).keys.length + 1 = d.keys.length := by
  rw [keys_erase, List.length_erase_of_mem member]
  have filled := List.length_pos_of_mem member
  omega

omit [DecidableEq K] in
theorem keys_eq_nil_iff {d : Dict K V} : d.keys = [] ↔ ∀ key, key ∉ d :=
  List.eq_nil_iff_forall_not_mem

@[simp] theorem mem_set {d : Dict K V} {key other : K} {value : V} :
    other ∈ d.set key value ↔ other = key ∨ other ∈ d := by
  simp only [mem_iff_get, get_set]
  by_cases same : other = key <;> simp [same]

@[simp] theorem mem_erase {d : Dict K V} {key other : K} : other ∈ d.erase key ↔ other ≠ key ∧ other ∈ d := by
  simp only [mem_iff_get, get_erase]
  by_cases same : other = key <;> simp [same]

theorem get_update_of_notMem (d : Dict K V) (entries : List (K × V)) (key : K)
    (absent : key ∉ entries.map Prod.fst) : (d.update entries).get key = d.get key := by
  induction entries generalizing d with
  | nil => rfl
  | cons entry rest ih =>
      simp only [List.map_cons, List.mem_cons, not_or] at absent
      rw [update, List.foldl_cons]
      exact (ih (d.set entry.1 entry.2) absent.2).trans (get_set_of_ne _ absent.1)

theorem mem_update {d : Dict K V} {entries : List (K × V)} {key : K} (member : key ∈ d.update entries) :
    key ∈ d ∨ key ∈ entries.map Prod.fst := by
  by_contra neither
  rw [not_or] at neither
  obtain ⟨value, found⟩ := mem_iff_get.mp member
  rw [get_update_of_notMem d entries key neither.2] at found
  exact neither.1 (mem_iff_get.mpr ⟨value, found⟩)

theorem get_update_of_mem (d : Dict K V) {entries : List (K × V)} (unique : (entries.map Prod.fst).Nodup)
    {key : K} {value : V} (member : (key, value) ∈ entries) : (d.update entries).get key = some value := by
  induction entries generalizing d with
  | nil => cases member
  | cons entry rest ih =>
      rw [List.map_cons, List.nodup_cons] at unique
      rw [update, List.foldl_cons]
      rcases List.mem_cons.mp member with rfl | later
      · exact (get_update_of_notMem (d.set key value) rest key unique.1).trans (get_set_self d key value)
      · exact ih (d.set entry.1 entry.2) unique.2 later

theorem entries_update {d : Dict K V} {entries : List (K × V)} (unique : (entries.map Prod.fst).Nodup)
    (apart : ∀ key ∈ entries.map Prod.fst, key ∉ d) : (d.update entries).entries = d.entries ++ entries := by
  induction entries generalizing d with
  | nil => exact (List.append_nil _).symm
  | cons entry rest ih =>
      rw [List.map_cons, List.nodup_cons] at unique
      have missing : entry.1 ∉ d := apart entry.1 (by simp)
      have added : (d.set entry.1 entry.2).entries = d.entries ++ [entry] := by rw [set, dif_neg missing]
      rw [update, List.foldl_cons]
      refine (ih unique.2 fun key member inside => ?_).trans (by rw [added, List.append_assoc]; rfl)
      rcases mem_set.mp inside with rfl | old
      · exact unique.1 member
      · exact apart key (List.mem_cons_of_mem _ member) old

omit [DecidableEq K] in
theorem eq_of_entries {d other : Dict K V} (same : d.entries = other.entries) : d = other := by
  cases d
  cases other
  cases same
  rfl

theorem update_entries (d : Dict K V) : (∅ : Dict K V).update d.entries = d := by
  apply eq_of_entries
  exact (entries_update d.unique fun key _ => notMem_empty key).trans (List.nil_append _)

section

variable {U : Type*}

def mapValues (f : V → U) (d : Dict K V) : Dict K U where
  entries := d.entries.map fun entry => (entry.1, f entry.2)
  unique := by simpa [Function.comp_def] using d.unique

omit [DecidableEq K] in
@[simp] theorem keys_mapValues (f : V → U) (d : Dict K V) : (d.mapValues f).keys = d.keys := by
  simp [keys, mapValues]

@[simp] theorem get_mapValues (f : V → U) (d : Dict K V) (key : K) : (d.mapValues f).get key = (d.get key).map f := by
  simp [get, mapValues, List.find?_map, Function.comp_def]

theorem entries_set (d : Dict K V) (key : K) (value : V) : (d.set key value).entries =
    if key ∈ d then d.entries.map fun entry => if entry.1 = key then (key, value) else entry
    else d.entries ++ [(key, value)] := by
  unfold set
  split <;> rfl

theorem mapValues_set (f : V → U) (d : Dict K V) (key : K) (value : V) :
    (d.set key value).mapValues f = (d.mapValues f).set key (f value) := by
  have same : key ∈ d.mapValues f ↔ key ∈ d := by
    change key ∈ (d.mapValues f).keys ↔ key ∈ d.keys
    rw [keys_mapValues]
  apply eq_of_entries
  rw [entries_set]
  simp only [same]
  by_cases present : key ∈ d
  · simp only [mapValues, entries_set, if_pos present, List.map_map]
    apply List.map_congr_left
    intro entry _
    by_cases here : entry.1 = key <;> simp [here]
  · simp only [mapValues, entries_set, if_neg present, List.map_append, List.map_cons, List.map_nil]

theorem mapValues_update (f : V → U) (d : Dict K V) (entries : List (K × V)) :
    (d.update entries).mapValues f = (d.mapValues f).update (entries.map fun entry => (entry.1, f entry.2)) := by
  induction entries generalizing d with
  | nil => rfl
  | cons entry rest ih =>
      rw [update, List.foldl_cons, ← update, ih, mapValues_set]
      rfl

end

end Dict
