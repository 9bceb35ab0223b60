import Mathlib.Data.List.Basic
import Mathlib.Data.List.Induction

/-! The part of a history that begins with its last marked entry, and what its
last entry of a kind is. -/

set_option autoImplicit false

namespace List

variable {α β : Type*}

/-- The entries from the last marked one on, all of them when none is marked. -/
def since (mark : α → Bool) : List α → List α
  | [] => []
  | entry :: rest => if rest.any mark then since mark rest else entry :: rest

theorem since_append (mark : α → Bool) (entries : List α) (last : α) :
    (entries ++ [last]).since mark = if mark last then [last] else entries.since mark ++ [last] := by
  induction entries with
  | nil => simp [since]
  | cons entry rest ih =>
      simp only [cons_append, since, any_append, any_cons, any_nil, Bool.or_false, ih]
      cases marked : mark last with
      | true => simp
      | false =>
          -- an unmarked last entry leaves the cut where it was
          cases rest.any mark <;> simp

/-- The last entry is never cut off. -/
theorem last_mem_since (mark : α → Bool) (entries : List α) (last : α) : last ∈ (entries ++ [last]).since mark := by
  rw [since_append]
  split <;> simp

theorem since_map (f : β → α) (mark : α → Bool) (entries : List β) :
    (entries.map f).since mark = (entries.since fun entry => mark (f entry)).map f := by
  induction entries with
  | nil => rfl
  | cons entry rest ih =>
      simp only [map_cons, since, any_map, Function.comp_def, ih]
      split <;> rfl

theorem getLast?_filterMap_eq {f : α → Option β} {entries : List α} {answer : Option β}
    (only : ∀ entry ∈ entries, ∀ value, f entry = some value → answer = some value)
    (given : ∀ value, answer = some value → ∃ entry ∈ entries, f entry = some value) :
    (entries.filterMap f).getLast? = answer := by
  cases last : (entries.filterMap f).getLast? with
  | some value =>
      obtain ⟨entry, member, found⟩ := mem_filterMap.mp (mem_of_getLast? last)
      exact (only entry member value found).symm
  | none =>
      have nothing := filterMap_eq_nil_iff.mp (getLast?_eq_none_iff.mp last)
      cases answer with
      | none => rfl
      | some value =>
          obtain ⟨entry, member, found⟩ := given value rfl
          cases (nothing entry member).symm.trans found

theorem forall_getLast?_filterMap_iff (f : α → Option β) (good : β → Prop) (entries : List α) :
    (∀ answer, (entries.filterMap f).getLast? = some answer → good answer) ↔
      ∀ early entry late, entries = early ++ entry :: late → ∀ answer, f entry = some answer → ¬good answer →
        ∃ later ∈ late, ∃ other, f later = some other ∧ good other := by
  induction entries using List.reverseRecOn with
  | nil => simp
  | append_singleton entries last ih =>
      rw [filterMap_append, getLast?_append]
      constructor
      · intro all early entry late split answer found bad
        rcases eq_nil_or_concat late with rfl | ⟨others, final, rfl⟩
        · -- a bad last entry would be the last answer
          obtain ⟨rfl, same⟩ := append_inj' split rfl
          obtain rfl := (List.cons.inj same).1
          exact absurd (all answer (by simp [found])) bad
        · rw [concat_eq_append, ← cons_append, ← append_assoc] at split
          obtain ⟨rfl, same⟩ := append_inj' split rfl
          obtain rfl := (List.cons.inj same).1
          cases here : f last with
          | some other => exact ⟨last, by simp, other, here, all other (by simp [here])⟩
          | none =>
              have before := ih.mp fun answer found => all answer (by simpa [here] using found)
              obtain ⟨later, member, other, rest⟩ := before early entry others rfl answer found bad
              exact ⟨later, by simp [member], other, rest⟩
      · intro follows answer found
        by_contra bad
        cases here : f last with
        | some other =>
            obtain rfl : other = answer := by simpa [here] using found
            obtain ⟨later, member, _⟩ := follows entries last [] rfl other here bad
            cases member
        | none =>
            refine bad (ih.mpr (fun early entry late split answer found bad => ?_) answer (by simpa [here] using found))
            obtain ⟨later, member, other, isGood⟩ :=
              follows early entry (late ++ [last]) (by simp [split]) answer found bad
            rcases mem_append.mp member with old | new
            · exact ⟨later, old, other, isGood⟩
            · obtain rfl := mem_singleton.mp new
              simp [here] at isGood

end List
