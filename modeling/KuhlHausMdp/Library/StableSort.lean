import Mathlib.Data.List.Basic

/-! Stable sorting beside dropping and cutting: the sort of what is kept is
what is kept of the sort. -/

set_option autoImplicit false

namespace List

variable {α : Type*}

/-- A list is cut in one way only into a part that passes a test and a part
that begins with a failure of it. -/
theorem append_inj_of_test {test : α → Bool} {first second other rest : List α}
    (same : first ++ second = other ++ rest) (passes : ∀ a ∈ first, test a = true)
    (passes' : ∀ a ∈ other, test a = true) (fails : ∀ a ∈ second, test a = false)
    (fails' : ∀ a ∈ rest, test a = false) : first = other ∧ second = rest := by
  induction first generalizing other with
  | nil =>
      cases other with
      | nil => exact ⟨rfl, same⟩
      | cons a others =>
          have inside : a ∈ second := by
            rw [nil_append] at same
            rw [same]
            exact mem_cons_self
          cases (passes' a mem_cons_self).symm.trans (fails a inside)
  | cons a first ih =>
      cases other with
      | nil =>
          have inside : a ∈ rest := by
            rw [nil_append] at same
            rw [← same]
            exact mem_cons_self
          cases (passes a mem_cons_self).symm.trans (fails' a inside)
      | cons b others =>
          obtain ⟨rfl, tails⟩ := cons.inj same
          obtain ⟨rfl, rfl⟩ := ih tails (fun b member => passes b (mem_cons_of_mem _ member))
            fun b member => passes' b (mem_cons_of_mem _ member)
          exact ⟨rfl, rfl⟩

variable {le : α → α → Bool}

theorem filter_mergeSort (trans : ∀ a b c, le a b → le b c → le a c) (total : ∀ a b, le a b || le b a)
    (keep : α → Bool) (items : List α) : (items.mergeSort le).filter keep = (items.filter keep).mergeSort le := by
  induction items with
  | nil => simp
  | cons a rest ih =>
      obtain ⟨before, after, sorted, parts, above⟩ := mergeSort_cons trans total a rest
      rw [sorted, filter_append]
      rw [parts, filter_append] at ih
      by_cases kept : keep a = true
      · obtain ⟨before', after', sorted', parts', above'⟩ := mergeSort_cons trans total a (rest.filter keep)
        have below : ∀ b ∈ after, le a b := by
          have falling := pairwise_mergeSort trans total (a :: rest)
          rw [sorted] at falling
          exact (pairwise_cons.mp (pairwise_append.mp falling).2.1).1
        have below' : ∀ b ∈ after', le a b := by
          have falling := pairwise_mergeSort trans total (a :: rest.filter keep)
          rw [sorted'] at falling
          exact (pairwise_cons.mp (pairwise_append.mp falling).2.1).1
        -- both sorts put the element before the first one that it may stand before
        obtain ⟨same, same'⟩ := append_inj_of_test (ih.trans parts')
          (fun b member => above b (mem_of_mem_filter member)) above'
          (fun b member => by simp [below b (mem_of_mem_filter member)]) fun b member => by simp [below' b member]
        rw [filter_cons_of_pos kept, filter_cons_of_pos kept, sorted', same, same']
      · rw [filter_cons_of_neg kept, filter_cons_of_neg kept, ih]

theorem filter_take_isPrefix (keep : α → Bool) (count : ℕ) (items : List α) :
    (items.take count).filter keep <+: (items.filter keep).take count := by
  apply prefix_take_iff.mpr
  have front : items.take count <+: items := take_prefix count items
  refine ⟨front.filter keep, ?_⟩
  exact Nat.le_trans (length_filter_le _ _) (length_take_le _ _)

theorem filterMap_eq_of_prefix {β : Type*} {f : α → Option β} {front items : List α} (isPrefix : front <+: items)
    (distinct : items.Nodup) :
    front.filterMap f = items.filterMap f ↔ ∀ a ∈ items, (f a).isSome = true → a ∈ front := by
  obtain ⟨rest, rfl⟩ := isPrefix
  obtain ⟨-, -, apart⟩ := nodup_append.mp distinct
  rw [filterMap_append, self_eq_append_right, filterMap_eq_nil_iff]
  constructor
  · intro undefined a member defined
    rcases mem_append.mp member with here | later
    · exact here
    · rw [undefined a later] at defined
      cases defined
  · intro inside a later
    by_contra defined
    have here := inside a (mem_append_right _ later) (Option.isSome_iff_ne_none.mpr defined)
    exact apart a here a later rfl

end List
