import KuhlHausMdp.Library.Dict
import Mathlib.Data.List.Forall2

/-! `helpers/serde.py`: articles of the news feed are objects of a client
library, and `to_dict` turns them into data that can be written as JSON. -/

set_option autoImplicit false

namespace KuhlHausMdp.Serde

/-- What `to_dict` can be handed, as a finite tree. An object has the entries
of its `__dict__`, a leaf has no `__dict__` and is known by its `str()`. -/
inductive Obj (F : Type*) where
  | none
  | str (text : String)
  | int (number : Int)
  | float (number : F)
  | bool (truth : Bool)
  | list (items : List (Obj F))
  | tuple (items : List (Obj F))
  | dict (items : List (String × Obj F))
  | object (attributes : List (String × Obj F))
  | leaf (text : String)

variable {F : Type*}

namespace Obj

/-- A dictionary holds a key once, and so does the `__dict__` of an object. -/
inductive Keyed : Obj F → Prop where
  | none : Keyed .none
  | str (text : String) : Keyed (.str text)
  | int (number : Int) : Keyed (.int number)
  | float (number : F) : Keyed (.float number)
  | bool (truth : Bool) : Keyed (.bool truth)
  | list {items : List (Obj F)} : (∀ item ∈ items, Keyed item) → Keyed (.list items)
  | tuple {items : List (Obj F)} : (∀ item ∈ items, Keyed item) → Keyed (.tuple items)
  | dict {items : List (String × Obj F)} : (items.map Prod.fst).Nodup →
      (∀ item ∈ items, Keyed item.2) → Keyed (.dict items)
  | object {attributes : List (String × Obj F)} : (attributes.map Prod.fst).Nodup →
      (∀ entry ∈ attributes, Keyed entry.2) → Keyed (.object attributes)
  | leaf (text : String) : Keyed (.leaf text)

/-- Nothing but `None`, strings, numbers, booleans, lists and dictionaries. -/
inductive Plain : Obj F → Prop where
  | none : Plain .none
  | str (text : String) : Plain (.str text)
  | int (number : Int) : Plain (.int number)
  | float (number : F) : Plain (.float number)
  | bool (truth : Bool) : Plain (.bool truth)
  | list {items : List (Obj F)} : (∀ item ∈ items, Plain item) → Plain (.list items)
  | dict {items : List (String × Obj F)} : (items.map Prod.fst).Nodup →
      (∀ item ∈ items, Plain item.2) → Plain (.dict items)

/-- The second tree has the elements of the first in their order and its keys
and attribute names. Only tuples, objects and leaves change their kind. -/
inductive SameShape : Obj F → Obj F → Prop where
  | none : SameShape .none .none
  | str (text : String) : SameShape (.str text) (.str text)
  | int (number : Int) : SameShape (.int number) (.int number)
  | float (number : F) : SameShape (.float number) (.float number)
  | bool (truth : Bool) : SameShape (.bool truth) (.bool truth)
  | list {items others : List (Obj F)} : List.Forall₂ SameShape items others →
      SameShape (.list items) (.list others)
  | tuple {items others : List (Obj F)} : List.Forall₂ SameShape items others →
      SameShape (.tuple items) (.list others)
  | dict {items others : List (String × Obj F)} : items.map Prod.fst = others.map Prod.fst →
      List.Forall₂ SameShape (items.map Prod.snd) (others.map Prod.snd) → SameShape (.dict items) (.dict others)
  | object {attributes others : List (String × Obj F)} : attributes.map Prod.fst = others.map Prod.fst →
      List.Forall₂ SameShape (attributes.map Prod.snd) (others.map Prod.snd) →
      SameShape (.object attributes) (.dict others)
  | leaf (text : String) : SameShape (.leaf text) (.str text)

end Obj

/-- `{key: value for ...}`: a later pair replaces an earlier one of its key. -/
def comprehension (pairs : List (String × Obj F)) : List (String × Obj F) :=
  ((∅ : Dict String (Obj F)).update pairs).entries

mutual

/-- The tests in the source's order. The kinds exclude each other, except that
a boolean is an integer; both are returned by the same test. -/
def toDict : Obj F → Obj F
  | .none => .none
  | .str text => .str text
  | .int number => .int number
  | .float number => .float number
  | .bool truth => .bool truth
  | .list items => .list (toDictItems items)
  | .tuple items => .list (toDictItems items)
  | .dict items => .dict (comprehension (toDictPairs items))
  | .object attributes => .dict (comprehension (toDictPairs attributes))
  | .leaf text => .str text

def toDictItems : List (Obj F) → List (Obj F)
  | [] => []
  | item :: rest => toDict item :: toDictItems rest

def toDictPairs : List (String × Obj F) → List (String × Obj F)
  | [] => []
  | (key, value) :: rest => (key, toDict value) :: toDictPairs rest

end

theorem toDictItems_eq (items : List (Obj F)) : toDictItems items = items.map toDict := by
  induction items with
  | nil => rfl
  | cons item rest ih => rw [toDictItems, ih, List.map_cons]

theorem toDictPairs_eq (pairs : List (String × Obj F)) :
    toDictPairs pairs = pairs.map fun pair => (pair.1, toDict pair.2) := by
  induction pairs with
  | nil => rfl
  | cons pair rest ih => rw [toDictPairs, ih, List.map_cons]

theorem keys_toDictPairs (pairs : List (String × Obj F)) :
    (toDictPairs pairs).map Prod.fst = pairs.map Prod.fst := by
  rw [toDictPairs_eq, List.map_map]
  rfl

theorem comprehension_of_nodup {pairs : List (String × Obj F)} (unique : (pairs.map Prod.fst).Nodup) :
    comprehension pairs = pairs :=
  congrArg Dict.entries (Dict.update_entries ⟨pairs, unique⟩)

theorem comprehension_toDictPairs {pairs : List (String × Obj F)} (unique : (pairs.map Prod.fst).Nodup) :
    comprehension (toDictPairs pairs) = toDictPairs pairs :=
  comprehension_of_nodup (by rwa [keys_toDictPairs])

theorem forall_toDictItems {P : Obj F → Prop} {items : List (Obj F)} (each : ∀ item ∈ items, P (toDict item)) :
    ∀ item ∈ toDictItems items, P item := by
  rw [toDictItems_eq]
  exact List.forall_mem_map.mpr each

theorem forall_toDictPairs {P : Obj F → Prop} {pairs : List (String × Obj F)}
    (each : ∀ pair ∈ pairs, P (toDict pair.2)) : ∀ pair ∈ toDictPairs pairs, P pair.2 := by
  rw [toDictPairs_eq]
  exact List.forall_mem_map.mpr each

theorem forall₂_toDictItems {R : Obj F → Obj F → Prop} {items : List (Obj F)}
    (each : ∀ item ∈ items, R item (toDict item)) : List.Forall₂ R items (toDictItems items) := by
  rw [toDictItems_eq, List.forall₂_map_right_iff]
  exact List.forall₂_same.mpr each

theorem forall₂_toDictPairs {R : Obj F → Obj F → Prop} {pairs : List (String × Obj F)}
    (each : ∀ pair ∈ pairs, R pair.2 (toDict pair.2)) :
    List.Forall₂ R (pairs.map Prod.snd) ((toDictPairs pairs).map Prod.snd) := by
  rw [toDictPairs_eq, List.map_map, List.forall₂_map_left_iff, List.forall₂_map_right_iff]
  exact List.forall₂_same.mpr each

namespace Obj

theorem Keyed.plain_toDict {obj : Obj F} (keyed : Keyed obj) : Plain (toDict obj) := by
  induction keyed with
  | none => exact .none
  | str text => exact .str text
  | int number => exact .int number
  | float number => exact .float number
  | bool truth => exact .bool truth
  | list _ ih => exact .list (forall_toDictItems ih)
  | tuple _ ih => exact .list (forall_toDictItems ih)
  | dict unique _ ih =>
      rw [toDict, comprehension_toDictPairs unique]
      exact .dict (by rwa [keys_toDictPairs]) (forall_toDictPairs ih)
  | object unique _ ih =>
      rw [toDict, comprehension_toDictPairs unique]
      exact .dict (by rwa [keys_toDictPairs]) (forall_toDictPairs ih)
  | leaf text => exact .str text

theorem Keyed.sameShape_toDict {obj : Obj F} (keyed : Keyed obj) : SameShape obj (toDict obj) := by
  induction keyed with
  | none => exact .none
  | str text => exact .str text
  | int number => exact .int number
  | float number => exact .float number
  | bool truth => exact .bool truth
  | list _ ih => exact .list (forall₂_toDictItems ih)
  | tuple _ ih => exact .tuple (forall₂_toDictItems ih)
  | dict unique _ ih =>
      rw [toDict, comprehension_toDictPairs unique]
      exact .dict (keys_toDictPairs _).symm (forall₂_toDictPairs ih)
  | object unique _ ih =>
      rw [toDict, comprehension_toDictPairs unique]
      exact .object (keys_toDictPairs _).symm (forall₂_toDictPairs ih)
  | leaf text => exact .leaf text

theorem Plain.toDict_eq {obj : Obj F} (plain : Plain obj) : toDict obj = obj := by
  induction plain with
  | none => rfl
  | str text => rfl
  | int number => rfl
  | float number => rfl
  | bool truth => rfl
  | @list items _ ih =>
      have same : toDictItems items = items := by
        rw [toDictItems_eq]
        exact (List.map_congr_left ih).trans (List.map_id items)
      rw [toDict, same]
  | @dict items unique _ ih =>
      have same : toDictPairs items = items := by
        rw [toDictPairs_eq]
        refine (List.map_congr_left fun pair member => ?_).trans (List.map_id items)
        rw [ih pair member]
        rfl
      rw [toDict, comprehension_toDictPairs unique, same]

end Obj

/-- A value that Python can build: every dictionary in it holds a key once. -/
structure Tree (F : Type*) where
  obj : Obj F
  keyed : obj.Keyed

/-- The result is plain data of the same shape, and a second call changes
nothing. -/
theorem toDict_faithful (tree : Tree F) :
    (toDict tree.obj).Plain ∧ tree.obj.SameShape (toDict tree.obj) ∧ toDict (toDict tree.obj) = toDict tree.obj :=
  ⟨tree.keyed.plain_toDict, tree.keyed.sameShape_toDict, tree.keyed.plain_toDict.toDict_eq⟩

/-- An article with a list of companies, one of them with a listing of its own. -/
def article : Tree Empty where
  obj := .object [
    ("title", .str "Apple"), ("publishDate", .leaf "2024-01-02"), ("tickers", .tuple [.str "AAPL", .leaf "Nasdaq"]),
    ("companies", .list [.object [("listing", .dict [("exchange", .leaf "XNAS"), ("primary", .bool true)])]])]
  keyed := by
    have listing : (Obj.dict (F := Empty) [("exchange", .leaf "XNAS"), ("primary", .bool true)]).Keyed :=
      .dict (by decide) (by simp [Obj.Keyed.leaf, Obj.Keyed.bool])
    have company : (Obj.object (F := Empty) [("listing", _)]).Keyed := .object (by simp) (by simpa using listing)
    have tickers : (Obj.tuple (F := Empty) [.str "AAPL", .leaf "Nasdaq"]).Keyed :=
      .tuple (by simp [Obj.Keyed.str, Obj.Keyed.leaf])
    have companies : (Obj.list (F := Empty) [_]).Keyed := .list (by simpa using company)
    exact .object (by decide) (by simp [Obj.Keyed.str, Obj.Keyed.leaf, tickers, companies])

theorem toDict_faithful_article :
    toDict article.obj = .dict [
      ("title", .str "Apple"), ("publishDate", .str "2024-01-02"), ("tickers", .list [.str "AAPL", .str "Nasdaq"]),
      ("companies", .list [.dict [("listing", .dict [("exchange", .str "XNAS"), ("primary", .bool true)])]])] ∧
      (toDict article.obj).Plain ∧ article.obj.SameShape (toDict article.obj) :=
  ⟨rfl, (toDict_faithful article).1, (toDict_faithful article).2.1⟩

end KuhlHausMdp.Serde
