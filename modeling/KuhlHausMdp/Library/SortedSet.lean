import Mathlib.Data.List.Sort
import Mathlib.Data.Prod.Lex
import KuhlHausMdp.Library.Redis
import KuhlHausMdp.Library.TopK

/-! Redis sorted sets: members with a score each, ordered by score and then by
member. Order and uniqueness are fields. -/

set_option autoImplicit false

structure SortedSet (S M : Type*) [LinearOrder S] [LinearOrder M] where
  entries : List (S ×ₗ M)
  sorted : entries.Pairwise (· < ·)
  unique : (entries.map fun entry => (ofLex entry).2).Nodup

namespace SortedSet

variable {S M : Type*} [LinearOrder S] [LinearOrder M]

def empty : SortedSet S M := ⟨[], .nil, List.nodup_nil⟩

instance : EmptyCollection (SortedSet S M) := ⟨empty⟩

def toFinset (z : SortedSet S M) : Finset (S ×ₗ M) := z.entries.toFinset

theorem mem_toFinset {z : SortedSet S M} {entry : S ×ₗ M} : entry ∈ z.toFinset ↔ entry ∈ z.entries :=
  List.mem_toFinset

def others (z : SortedSet S M) (member : M) : List (S ×ₗ M) :=
  z.entries.filter fun entry => (ofLex entry).2 ≠ member

theorem unique_orderedInsert (z : SortedSet S M) (member : M) (score : S) :
    (((z.others member).orderedInsert (· ≤ ·) (toLex (score, member))).map
      fun entry => (ofLex entry).2).Nodup := by
  have perm := (List.perm_orderedInsert (· ≤ ·) (toLex (score, member)) (z.others member)).map
    fun entry => (ofLex entry).2
  apply perm.nodup_iff.mpr
  rw [List.map_cons, List.nodup_cons]
  constructor
  · intro present
    obtain ⟨entry, kept, same⟩ := List.mem_map.mp present
    exact of_decide_eq_true (List.mem_filter.mp kept).2 same
  · exact z.unique.sublist (List.filter_sublist.map _)

/-- The member is taken out if it is there and put in at its place. -/
def zadd (z : SortedSet S M) (member : M) (score : S) : SortedSet S M where
  entries := (z.others member).orderedInsert (· ≤ ·) (toLex (score, member))
  sorted := by
    have ordered : (z.others member).Pairwise (· ≤ ·) := (z.sorted.filter _).imp le_of_lt
    -- sorted without repetition is strictly sorted
    have apart : ((z.others member).orderedInsert (· ≤ ·) (toLex (score, member))).Nodup :=
      (z.unique_orderedInsert member score).of_map _
    exact (ordered.orderedInsert (toLex (score, member)) _).imp₂ (fun _ _ => lt_of_le_of_ne) apart
  unique := z.unique_orderedInsert member score

/-- Negative ranks count from the end. -/
def resolve (z : SortedSet S M) (rank : ℤ) : ℤ := if rank < 0 then rank + z.entries.length else rank

/-- A range that is empty, or begins past the end, removes nothing. -/
def zremrangebyrank (z : SortedSet S M) (start stop : ℤ) : SortedSet S M :=
  let first := (z.resolve start).toNat
  let next := (z.resolve stop + 1).toNat
  if range : first < next ∧ first < z.entries.length then
    have sub : (z.entries.take first ++ z.entries.drop next).Sublist z.entries := by
      have tail := (List.Sublist.refl (z.entries.take first)).append
        (List.drop_sublist_drop_left z.entries range.1.le)
      rwa [List.take_append_drop] at tail
    { entries := z.entries.take first ++ z.entries.drop next
      sorted := z.sorted.sublist sub
      unique := z.unique.sublist (sub.map _) }
  else z

/-- The greatest entry has rank 0. -/
def zrevrange (z : SortedSet S M) (start stop : ℤ) : List (S ×ₗ M) := Redis.range start stop z.entries.reverse

/-! What is left of a sorted set. -/

theorem mem_zadd {z : SortedSet S M} {member : M} {score : S} {entry : S ×ₗ M} :
    entry ∈ (z.zadd member score).entries ↔
      entry = toLex (score, member) ∨ entry ∈ z.entries ∧ (ofLex entry).2 ≠ member := by
  simp [zadd, others, List.mem_orderedInsert]

theorem toFinset_zadd (z : SortedSet S M) (member : M) (score : S) :
    (z.zadd member score).toFinset =
      insert (toLex (score, member)) (z.toFinset.filter fun entry => (ofLex entry).2 ≠ member) := by
  ext entry
  simp only [mem_toFinset, mem_zadd, Finset.mem_insert, Finset.mem_filter]

theorem entries_zremrangebyrank (z : SortedSet S M) (k : Nat) :
    (z.zremrangebyrank 0 (-(k + 1))).entries = z.entries.drop (z.entries.length - k) := by
  have first : (z.resolve 0).toNat = 0 := rfl
  have next : (z.resolve (-(k + 1)) + 1).toNat = z.entries.length - k := by
    rw [resolve, if_pos (by omega)]
    omega
  simp only [zremrangebyrank, first, next]
  split
  case isTrue => exact List.nil_append _
  case isFalse empty =>
    have few : z.entries.length - k = 0 := by omega
    rw [few, List.drop_zero]

theorem toFinset_drop (entries : List (S ×ₗ M)) (sorted : entries.Pairwise (· < ·)) (k : Nat) :
    (entries.drop (entries.length - k)).toFinset = entries.toFinset.top k := by
  -- from the greatest down: the least entry stays only while there is room
  induction entries with
  | nil =>
      rw [List.drop_nil]
      exact (Finset.top_eq_self (by simp)).symm
  | cons least rest ih =>
      obtain ⟨below, rest_sorted⟩ := List.pairwise_cons.mp sorted
      have card : rest.toFinset.card = rest.length :=
        List.toFinset_card_of_nodup (rest_sorted.imp ne_of_lt)
      have lower : ∀ entry ∈ rest.toFinset, least < entry :=
        fun entry member => below entry (List.mem_toFinset.mp member)
      rw [List.toFinset_cons, Finset.top_insert_min lower, card, ← ih rest_sorted, List.length_cons]
      split
      case isTrue room =>
        have none : rest.length + 1 - k = 0 := by omega
        have all : rest.length - k = 0 := by omega
        rw [none, all, List.drop_zero, List.drop_zero, List.toFinset_cons]
      case isFalse full =>
        have one : rest.length + 1 - k = (rest.length - k) + 1 := by omega
        rw [one, List.drop_succ_cons]

theorem toFinset_trim (z : SortedSet S M) (k : Nat) :
    (z.zremrangebyrank 0 (-(k + 1))).toFinset = z.toFinset.top k := by
  rw [toFinset, entries_zremrangebyrank, toFinset_drop z.entries z.sorted, toFinset]

end SortedSet
