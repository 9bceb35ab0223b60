import Mathlib.Data.Finset.Max
import Mathlib.Data.Finset.Card

/-! The k greatest elements of a finite set of a linear order, and when they
can be kept up to date from themselves alone. -/

set_option autoImplicit false

namespace Finset

variable {α : Type*} [LinearOrder α]

def above (S : Finset α) (bound : α) : Finset α := S.filter (bound < ·)

def top (k : Nat) (S : Finset α) : Finset α := S.filter fun e => (S.above e).card < k

theorem mem_above {S : Finset α} {bound e : α} : e ∈ S.above bound ↔ e ∈ S ∧ bound < e := mem_filter

theorem mem_top {k : Nat} {S : Finset α} {e : α} : e ∈ S.top k ↔ e ∈ S ∧ (S.above e).card < k := mem_filter

theorem top_subset (k : Nat) (S : Finset α) : S.top k ⊆ S := filter_subset _ S

theorem above_subset_above {S T : Finset α} (sub : S ⊆ T) (bound : α) : S.above bound ⊆ T.above bound :=
  filter_subset_filter _ sub

theorem top_eq_self {k : Nat} {S : Finset α} (few : S.card ≤ k) : S.top k = S := by
  apply filter_true_of_mem
  intro e member
  have fewer : (S.above e).card < S.card := by
    apply card_lt_card
    exact filter_ssubset.mpr ⟨e, member, lt_irrefl e⟩
  omega

theorem above_insert_of_lt {S : Finset α} {least e : α} (below : least < e) :
    (insert least S).above e = S.above e := by
  rw [above, filter_insert, if_neg (lt_asymm below), above]

theorem top_insert_min {k : Nat} {S : Finset α} {least : α} (below : ∀ e ∈ S, least < e) :
    (insert least S).top k = if S.card < k then insert least (S.top k) else S.top k := by
  have others : S.filter (fun e => ((insert least S).above e).card < k) = S.top k := by
    apply filter_congr
    intro e member
    rw [above_insert_of_lt (below e member)]
  have all : (insert least S).above least = S := by
    ext e
    simp only [mem_above, mem_insert]
    constructor
    · rintro ⟨rfl | member, more⟩
      · exact absurd more (lt_irrefl e)
      · exact member
    · exact fun member => ⟨.inr member, below e member⟩
  rw [top, filter_insert, others, all]

theorem card_top (k : Nat) (S : Finset α) : (S.top k).card = min k S.card := by
  induction S using induction_on_min with
  | empty => simp [top]
  | insert least S below ih =>
      have fresh : least ∉ S := fun member => lt_irrefl least (below least member)
      rw [top_insert_min below, card_insert_of_notMem fresh]
      split
      case isTrue room =>
        rw [card_insert_of_notMem fun member => fresh (top_subset k S member), ih]
        omega
      case isFalse full =>
        rw [ih]
        omega

theorem le_card_above_top {k : Nat} {S : Finset α} {e : α} (many : k ≤ (S.above e).card) :
    k ≤ ((S.top k).above e).card := by
  have upper : (S.above e).top k ⊆ (S.top k).above e := by
    intro d member
    obtain ⟨high, fewer⟩ := mem_top.mp member
    obtain ⟨inside, more⟩ := mem_above.mp high
    -- what is above d is above e too, so d ranks among these as in S
    have same : (S.above e).above d = S.above d := by
      ext c
      simp only [mem_above]
      exact ⟨fun h => ⟨h.1.1, h.2⟩, fun h => ⟨⟨h.1, more.trans h.2⟩, h.2⟩⟩
    rw [same] at fewer
    exact mem_above.mpr ⟨mem_top.mpr ⟨inside, fewer⟩, more⟩
  have enough := card_le_card upper
  rw [card_top] at enough
  omega

theorem mem_top_or_outranked {k : Nat} {S : Finset α} {e : α} (member : e ∈ S) :
    e ∈ S.top k ∨ k ≤ ((S.top k).above e).card := by
  rcases Nat.lt_or_ge (S.above e).card k with few | many
  · exact .inl (mem_top.mpr ⟨member, few⟩)
  · exact .inr (le_card_above_top many)

theorem top_eq_of_between {k : Nat} {S T : Finset α} (contains : S.top k ⊆ T) (inside : T ⊆ S) :
    T.top k = S.top k := by
  apply Subset.antisymm
  · intro e member
    obtain ⟨here, fewer⟩ := mem_top.mp member
    apply mem_top.mpr
    refine ⟨inside here, ?_⟩
    -- k elements of the top outrank e, and all of them are in T
    by_contra many
    have outranked := le_card_above_top (not_lt.mp many)
    have sub := card_le_card (above_subset_above contains e)
    omega
  · intro e member
    have fewer := card_le_card (above_subset_above inside e)
    exact mem_top.mpr ⟨contains member, fewer.trans_lt (mem_top.mp member).2⟩

theorem top_insert (k : Nat) (S : Finset α) (new : α) : (insert new (S.top k)).top k = (insert new S).top k := by
  apply top_eq_of_between
  · intro e member
    obtain ⟨inside, fewer⟩ := mem_top.mp member
    rcases mem_insert.mp inside with rfl | before
    · exact mem_insert_self e _
    · have rank := card_le_card (above_subset_above (subset_insert new S) e)
      exact mem_insert_of_mem (mem_top.mpr ⟨before, rank.trans_lt fewer⟩)
  · exact insert_subset_insert new (top_subset k S)

theorem lt_of_notMem_top {k : Nat} {S : Finset α} {e high : α} (member : e ∈ S) (outside : e ∉ S.top k)
    (inside : high ∈ S.top k) : e < high := by
  by_contra above
  obtain ⟨here, fewer⟩ := mem_top.mp inside
  apply outside
  have sub : S.above e ⊆ S.above high := by
    intro d more
    obtain ⟨there, greater⟩ := mem_above.mp more
    exact mem_above.mpr ⟨there, (not_lt.mp above).trans_lt greater⟩
  exact mem_top.mpr ⟨member, (card_le_card sub).trans_lt fewer⟩

theorem card_top_of_notMem {k : Nat} {S : Finset α} {e : α} (member : e ∈ S) (outside : e ∉ S.top k) :
    (S.top k).card = k := by
  have many : ¬S.card ≤ k := fun few => outside (by rwa [top_eq_self few])
  rw [card_top]
  omega

/-- Something outside the top that outranks what was put in place of a top element
should have come back. -/
theorem top_replace_iff {k : Nat} {S : Finset α} {old new : α} (inside : old ∈ S.top k) (fresh : new ∉ S.erase old) :
    (insert new ((S.top k).erase old)).top k = (insert new (S.erase old)).top k ↔ ∀ e ∈ S, e ∉ S.top k → e < new := by
  have absent : new ∉ (S.top k).erase old := fun member => fresh (erase_subset_erase old (top_subset k S) member)
  constructor
  · intro exact e member outside
    by_contra above
    have full := card_top_of_notMem member outside
    have apart : e ≠ old := fun same => outside (same ▸ inside)
    have below : new < e := by
      apply lt_of_le_of_ne (not_lt.mp above)
      rintro rfl
      exact fresh (mem_erase.mpr ⟨apart, member⟩)
    have positive : 0 < k := full ▸ card_pos.mpr ⟨old, inside⟩
    have kept : new ∈ (insert new ((S.top k).erase old)).top k := by
      rw [top_eq_self]
      · exact mem_insert_self _ _
      · rw [card_insert_of_notMem absent, card_erase_of_mem inside, full]
        omega
    rw [exact] at kept
    -- the rest of the top and e, which are k in all, are above new
    have sub : insert e ((S.top k).erase old) ⊆ (insert new (S.erase old)).above new := by
      intro d high
      rcases mem_insert.mp high with rfl | rest
      · exact mem_above.mpr ⟨mem_insert_of_mem (mem_erase.mpr ⟨apart, member⟩), below⟩
      · obtain ⟨other, top⟩ := mem_erase.mp rest
        apply mem_above.mpr
        exact ⟨mem_insert_of_mem (mem_erase.mpr ⟨other, top_subset k S top⟩),
          below.trans (lt_of_notMem_top member outside top)⟩
    have enough := card_le_card sub
    rw [card_insert_of_notMem fun member => outside (mem_of_mem_erase member), card_erase_of_mem inside, full] at enough
    have few := (mem_top.mp kept).2
    omega
  · intro lower
    apply top_eq_of_between
    · intro e member
      obtain ⟨here, fewer⟩ := mem_top.mp member
      rcases mem_insert.mp here with rfl | rest
      · exact mem_insert_self e _
      · obtain ⟨other, before⟩ := mem_erase.mp rest
        apply mem_insert_of_mem
        by_contra out
        have outside : e ∉ S.top k := fun top => out (mem_erase.mpr ⟨other, top⟩)
        -- new has taken the place of old among the k above e
        have sub : insert new ((S.top k).erase old) ⊆ (insert new (S.erase old)).above e := by
          intro d high
          rcases mem_insert.mp high with rfl | rest
          · exact mem_above.mpr ⟨mem_insert_self _ _, lower e before outside⟩
          · obtain ⟨apart, top⟩ := mem_erase.mp rest
            apply mem_above.mpr
            exact ⟨mem_insert_of_mem (mem_erase.mpr ⟨apart, top_subset k S top⟩), lt_of_notMem_top before outside top⟩
        have enough := card_le_card sub
        have positive := card_pos.mpr ⟨old, inside⟩
        rw [card_insert_of_notMem absent, card_erase_of_mem inside] at enough
        have full := card_top_of_notMem before outside
        omega
    · exact insert_subset_insert new (erase_subset_erase old (top_subset k S))

theorem top_erase {k : Nat} {S : Finset α} {old : α} (outside : old ∉ S.top k) : (S.erase old).top k = S.top k := by
  apply top_eq_of_between _ (erase_subset old S)
  intro e member
  exact mem_erase.mpr ⟨fun same => outside (same ▸ member), top_subset k S member⟩

theorem top_replace_of_notMem {k : Nat} {S : Finset α} {old : α} (outside : old ∉ S.top k) (new : α) :
    (insert new ((S.top k).erase old)).top k = (insert new (S.erase old)).top k := by
  rw [erase_eq_of_notMem outside, ← top_erase outside, top_insert]

end Finset
