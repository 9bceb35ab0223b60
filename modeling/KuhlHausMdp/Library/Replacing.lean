import Mathlib.Data.List.Count
import Mathlib.Data.List.Perm.Basic

/-! A list in which one item is replaced, as when one of many tasks moves on. -/

set_option autoImplicit false

namespace Replacing

variable {A B : Type*} {items : List A} {i : Nat} {old : A}

theorem perm_set (at_ : items[i]? = some old) (new : A) :
    ∃ rest, items.Perm (old :: rest) ∧ (items.set i new).Perm (new :: rest) := by
  obtain ⟨inside, same⟩ := List.getElem?_eq_some_iff.mp at_
  have before := (List.getElem_cons_eraseIdx_perm inside).symm
  rw [same] at before
  exact ⟨items.eraseIdx i, before, List.set_perm_cons_eraseIdx inside new⟩

theorem flatMap_set_perm (f : A → List B) {new : A} {more : List B} (at_ : items[i]? = some old)
    (grown : f new = f old ++ more) : ((items.set i new).flatMap f).Perm (items.flatMap f ++ more) := by
  obtain ⟨rest, before, after⟩ := perm_set at_ new
  have fewer : (items.flatMap f ++ more).Perm (f old ++ rest.flatMap f ++ more) :=
    (before.flatMap_right f).append_right more
  have all : ((items.set i new).flatMap f).Perm (f old ++ more ++ rest.flatMap f) := grown ▸ after.flatMap_right f
  apply all.trans
  apply List.Perm.trans _ fewer.symm
  rw [List.append_assoc, List.append_assoc]
  exact List.perm_append_comm.append_left _

theorem filterMap_set_perm {f : A → Option B} (at_ : items[i]? = some old) (blank : f old = none) (new : A) :
    ((items.set i new).filterMap f).Perm (items.filterMap f ++ (f new).toList) := by
  obtain ⟨rest, before, after⟩ := perm_set at_ new
  have same := before.filterMap f
  rw [List.filterMap_cons_none blank] at same
  apply (after.filterMap f).trans
  apply List.Perm.trans _ (same.append_right _).symm
  cases found : f new with
  | none => rw [List.filterMap_cons_none found, Option.toList_none, List.append_nil]
  | some b =>
      rw [List.filterMap_cons_some found, Option.toList_some]
      exact (List.perm_append_singleton b _).symm

theorem countP_set (p : A → Bool) (at_ : items[i]? = some old) (new : A) :
    (items.set i new).countP p + (p old).toNat = items.countP p + (p new).toNat := by
  obtain ⟨rest, before, after⟩ := perm_set at_ new
  rw [before.countP_eq, after.countP_eq, List.countP_cons, List.countP_cons]
  cases p old <;> cases p new <;> simp

theorem map_set_of_same (f : A → B) {new : A} (at_ : items[i]? = some old) (same : f new = f old) :
    (items.set i new).map f = items.map f := by
  obtain ⟨inside, found⟩ := List.getElem?_eq_some_iff.mp at_
  rw [List.map_set, same, ← found, ← List.map_set, List.set_getElem_self]

end Replacing
