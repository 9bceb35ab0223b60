import Mathlib.Data.List.Basic
import Mathlib.Data.List.Range

/-! Regular expressions as a backtracking matcher tries them, and the scan for
matches that do not overlap. The ways to match are listed in the order in which
they are tried, so the first of them is the match. -/

set_option autoImplicit false

inductive Regex (α : Type*) where
  | empty
  | one (accepts : α → Bool)
  | run (accepts : α → Bool) (low : Nat) (high : Option Nat)
  | seq (first second : Regex α)
  | alt (first second : Regex α)
  | group (body : Regex α)

namespace Regex

variable {α : Type*}

structure Match (α : Type*) where
  consumed : List α
  groups : List (List α)
  rest : List α

inductive Accepts : Regex α → List α → List (List α) → Prop where
  | empty : Accepts .empty [] []
  | one {accepts : α → Bool} {c : α} (fits : accepts c = true) : Accepts (.one accepts) [c] []
  | run {accepts : α → Bool} {low : Nat} {high : Option Nat} {word : List α}
      (fits : ∀ c ∈ word, accepts c = true) (enough : low ≤ word.length) (within : ∀ most ∈ high, word.length ≤ most) :
      Accepts (.run accepts low high) word []
  | seq {first second : Regex α} {left right : List α} {before after : List (List α)}
      (one : Accepts first left before) (two : Accepts second right after) :
      Accepts (.seq first second) (left ++ right) (before ++ after)
  | left {first second : Regex α} {word : List α} {groups : List (List α)}
      (one : Accepts first word groups) : Accepts (.alt first second) word groups
  | right {first second : Regex α} {word : List α} {groups : List (List α)}
      (two : Accepts second word groups) : Accepts (.alt first second) word groups
  | group {body : Regex α} {word : List α} {groups : List (List α)}
      (inner : Accepts body word groups) : Accepts (.group body) word (word :: groups)

def concat (patterns : List (Regex α)) : Regex α := patterns.foldr .seq .empty

@[simp] theorem accepts_empty {word : List α} {groups : List (List α)} :
    Accepts .empty word groups ↔ word = [] ∧ groups = [] := by
  constructor
  · rintro ⟨⟩; exact ⟨rfl, rfl⟩
  · rintro ⟨rfl, rfl⟩; exact .empty

@[simp] theorem accepts_one {accepts : α → Bool} {word : List α} {groups : List (List α)} :
    Accepts (.one accepts) word groups ↔ ∃ c, accepts c = true ∧ word = [c] ∧ groups = [] := by
  constructor
  · rintro ⟨⟩; exact ⟨_, ‹_›, rfl, rfl⟩
  · rintro ⟨c, fits, rfl, rfl⟩; exact .one fits

@[simp] theorem accepts_run {accepts : α → Bool} {low : Nat} {high : Option Nat} {word : List α}
    {groups : List (List α)} :
    Accepts (.run accepts low high) word groups ↔ (∀ c ∈ word, accepts c = true) ∧ low ≤ word.length ∧
      (∀ most ∈ high, word.length ≤ most) ∧ groups = [] := by
  constructor
  · rintro ⟨⟩; exact ⟨‹_›, ‹_›, ‹_›, rfl⟩
  · rintro ⟨fits, enough, within, rfl⟩; exact .run fits enough within

@[simp] theorem accepts_alt {first second : Regex α} {word : List α} {groups : List (List α)} :
    Accepts (.alt first second) word groups ↔ Accepts first word groups ∨ Accepts second word groups := by
  constructor
  · intro accepted
    cases accepted with
    | left one => exact .inl one
    | right two => exact .inr two
  · rintro (one | two)
    · exact .left one
    · exact .right two

@[simp] theorem accepts_group {body : Regex α} {word : List α} {groups : List (List α)} :
    Accepts (.group body) word groups ↔ ∃ inner, Accepts body word inner ∧ groups = word :: inner := by
  constructor
  · rintro ⟨⟩; exact ⟨_, ‹_›, rfl⟩
  · rintro ⟨inner, accepted, rfl⟩; exact .group accepted

@[simp] theorem accepts_seq {first second : Regex α} {word : List α} {groups : List (List α)} :
    Accepts (.seq first second) word groups ↔ ∃ left before, Accepts first left before ∧
      ∃ right after, Accepts second right after ∧ word = left ++ right ∧ groups = before ++ after := by
  constructor
  · rintro ⟨⟩; exact ⟨_, _, ‹_›, _, _, ‹_›, rfl, rfl⟩
  · rintro ⟨left, before, one, right, after, two, rfl, rfl⟩; exact .seq one two

/-- A part without groups in front of the rest. -/
theorem accepts_seq_of_plain {first : Regex α} {Q : List α → Prop}
    (plain : ∀ word groups, Accepts first word groups ↔ Q word ∧ groups = []) (second : Regex α) (word : List α)
    (groups : List (List α)) :
    Accepts (.seq first second) word groups ↔
      ∃ left, Q left ∧ ∃ right, Accepts second right groups ∧ word = left ++ right := by
  rw [accepts_seq]
  constructor
  · rintro ⟨left, before, one, right, after, two, same, rfl⟩
    obtain ⟨fits, rfl⟩ := (plain ..).mp one
    exact ⟨left, fits, right, two, same⟩
  · rintro ⟨left, fits, right, two, same⟩
    exact ⟨left, [], (plain ..).mpr ⟨fits, rfl⟩, right, groups, two, same, rfl⟩

/-- The prefixes a repeated class can take, the longest first. -/
def spans (accepts : α → Bool) : List α → Nat → Option Nat → List (List α × List α)
  | [], low, _ => if low = 0 then [([], [])] else []
  | c :: rest, low, high =>
      (if accepts c ∧ high ≠ some 0 then
        (spans accepts rest (low - 1) (high.map (· - 1))).map fun span => (c :: span.1, span.2)
      else []) ++ if low = 0 then [([], c :: rest)] else []

/-- The ways to match at the start of a text, in the order they are tried. -/
def ways : Regex α → List α → List (Match α)
  | .empty, text => [⟨[], [], text⟩]
  | .one _, [] => []
  | .one accepts, c :: rest => if accepts c then [⟨[c], [], rest⟩] else []
  | .run accepts low high, text => (spans accepts text low high).map fun span => ⟨span.1, [], span.2⟩
  | .seq first second, text =>
      (ways first text).flatMap fun one => (ways second one.rest).map fun two =>
        ⟨one.consumed ++ two.consumed, one.groups ++ two.groups, two.rest⟩
  | .alt first second, text => ways first text ++ ways second text
  | .group body, text => (ways body text).map fun inner => ⟨inner.consumed, inner.consumed :: inner.groups, inner.rest⟩

theorem mem_spans {accepts : α → Bool} {text : List α} {low : Nat} {high : Option Nat} {span : List α × List α} :
    span ∈ spans accepts text low high ↔ span.1 ++ span.2 = text ∧ (∀ c ∈ span.1, accepts c = true) ∧
      low ≤ span.1.length ∧ ∀ most ∈ high, span.1.length ≤ most := by
  obtain ⟨word, rest⟩ := span
  induction text generalizing low high word with
  | nil =>
      rw [spans]
      cases word <;> split_ifs with zero <;> simp [zero]
  | cons c text ih =>
      rw [spans]
      cases word with
      | nil => split_ifs with more zero <;> simp [*]
      | cons first word =>
          -- one more symbol is taken when it fits and there is room for it
          split_ifs with more zero <;> simp [*] <;> cases high <;> grind

theorem mem_ways {r : Regex α} {text : List α} {m : Match α} :
    m ∈ r.ways text ↔ m.consumed ++ m.rest = text ∧ r.Accepts m.consumed m.groups := by
  obtain ⟨consumed, groups, rest⟩ := m
  induction r generalizing text consumed groups rest with
  | empty =>
      simp only [ways, List.mem_singleton, Match.mk.injEq]
      constructor
      · rintro ⟨rfl, rfl, rfl⟩
        exact ⟨rfl, .empty⟩
      · rintro ⟨same, word⟩
        cases word
        exact ⟨rfl, rfl, same⟩
  | one accepts =>
      constructor
      · intro member
        cases text with
        | nil => cases member
        | cons c text =>
            rw [ways] at member
            split_ifs at member with fits
            · cases List.mem_singleton.mp member
              exact ⟨rfl, .one fits⟩
            · cases member
      · rintro ⟨rfl, word⟩
        cases word with
        | one fits => simp [ways, fits]
  | run accepts low high =>
      simp only [ways, List.mem_map, Match.mk.injEq]
      constructor
      · rintro ⟨span, member, rfl, rfl, rfl⟩
        obtain ⟨same, fits, enough, within⟩ := mem_spans.mp member
        exact ⟨same, .run fits enough within⟩
      · rintro ⟨same, word⟩
        cases word with
        | run fits enough within =>
            exact ⟨(consumed, rest), mem_spans.mpr ⟨same, fits, enough, within⟩, rfl, rfl, rfl⟩
  | seq first second ihFirst ihSecond =>
      simp only [ways, List.mem_flatMap, List.mem_map, Match.mk.injEq]
      constructor
      · rintro ⟨⟨left, before, middle⟩, one, ⟨right, after, last⟩, two, rfl, rfl, rfl⟩
        obtain ⟨rfl, before⟩ := (ihFirst ..).mp one
        obtain ⟨rfl, after⟩ := (ihSecond ..).mp two
        exact ⟨List.append_assoc .., .seq before after⟩
      · rintro ⟨rfl, word⟩
        cases word with
        | @seq _ _ left right before after one two =>
            exact ⟨⟨left, before, right ++ rest⟩, (ihFirst ..).mpr ⟨(List.append_assoc ..).symm, one⟩,
              ⟨right, after, rest⟩, (ihSecond ..).mpr ⟨rfl, two⟩, rfl, rfl, rfl⟩
  | alt first second ihFirst ihSecond =>
      rw [ways, List.mem_append, ihFirst, ihSecond, ← and_or_left, accepts_alt]
  | group body ih =>
      simp only [ways, List.mem_map, Match.mk.injEq]
      constructor
      · rintro ⟨⟨word, inner, left⟩, member, rfl, rfl, rfl⟩
        obtain ⟨same, accepted⟩ := (ih ..).mp member
        exact ⟨same, .group accepted⟩
      · rintro ⟨same, word⟩
        cases word with
        | @group _ _ inner accepted => exact ⟨⟨consumed, inner, rest⟩, (ih ..).mpr ⟨same, accepted⟩, rfl, rfl, rfl⟩

def first (r : Regex α) (text : List α) : Option (Match α) := (r.ways text).head?

theorem first_accepts {r : Regex α} {text : List α} {m : Match α} (found : r.first text = some m) :
    m.consumed ++ m.rest = text ∧ r.Accepts m.consumed m.groups :=
  mem_ways.mp (List.mem_of_head? found)

theorem first_isSome_iff {r : Regex α} {text : List α} :
    (r.first text).isSome ↔ ∃ word rest groups, word ++ rest = text ∧ r.Accepts word groups := by
  constructor
  · intro found
    obtain ⟨m, found⟩ := Option.isSome_iff_exists.mp found
    exact ⟨m.consumed, m.rest, m.groups, first_accepts found⟩
  · rintro ⟨word, rest, groups, accepted⟩
    exact List.isSome_head?.mpr (List.ne_nil_of_mem (mem_ways.mpr accepted : ⟨word, groups, rest⟩ ∈ r.ways text))

/-- The scan from left to right, `skip` symbols of the last match being still
to pass. For patterns that match no empty text. -/
def scan (r : Regex α) : Nat → List α → List (List (List α))
  | _, [] => []
  | skip + 1, _ :: rest => r.scan skip rest
  | 0, c :: rest =>
      match r.first (c :: rest) with
      | some m => m.groups :: r.scan (m.consumed.length - 1) rest
      | none => r.scan 0 rest

def findall (r : Regex α) (text : List α) : List (List (List α)) := r.scan 0 text

/-- The match at each position of a text, whether a scan reaches it or not. -/
def everywhere (r : Regex α) (text : List α) : List (List (List α)) :=
  (List.range text.length).filterMap fun i => (r.first (text.drop i)).map Match.groups

/-- Each word begins with a symbol that occurs nowhere else in it. -/
def Led (r : Regex α) (leads : α → Prop) : Prop :=
  ∀ word groups, r.Accepts word groups → ∃ c rest, word = c :: rest ∧ leads c ∧ ∀ other ∈ rest, ¬leads other

theorem everywhere_cons (r : Regex α) (c : α) (rest : List α) :
    r.everywhere (c :: rest) = ((r.first (c :: rest)).map Match.groups).toList ++ r.everywhere rest := by
  rw [everywhere, List.length_cons, List.range_succ_eq_map, List.filterMap_cons, List.filterMap_map,
    List.drop_zero]
  cases r.first (c :: rest) <;> rfl

theorem scan_eq_everywhere {r : Regex α} {leads : α → Prop} (led : r.Led leads) (skip : Nat) (text : List α)
    (passed : ∀ c ∈ text.take skip, ¬leads c) : r.scan skip text = r.everywhere text := by
  induction text generalizing skip with
  | nil => cases skip <;> rfl
  | cons c rest ih =>
      rw [everywhere_cons]
      cases skip with
      | succ skip =>
          rw [List.take_succ_cons, List.forall_mem_cons] at passed
          have missed : r.first (c :: rest) = none := by
            cases found : r.first (c :: rest) with
            | none => rfl
            | some m =>
                obtain ⟨same, accepted⟩ := first_accepts found
                obtain ⟨lead, tail, begins, isLead, -⟩ := led _ _ accepted
                rw [begins, List.cons_append, List.cons.injEq] at same
                exact absurd (same.1 ▸ isLead) passed.1
          rw [missed]
          exact ih skip passed.2
      | zero =>
          cases found : r.first (c :: rest) with
          | none =>
              rw [scan, found]
              exact ih 0 (by simp)
          | some m =>
              obtain ⟨same, accepted⟩ := first_accepts found
              obtain ⟨lead, tail, begins, -, apart⟩ := led _ _ accepted
              have within : ∀ other ∈ rest.take (m.consumed.length - 1), ¬leads other := by
                rw [begins, List.cons_append, List.cons.injEq] at same
                rw [begins, ← same.2, List.length_cons, Nat.add_sub_cancel, List.take_left]
                exact apart
              simp [scan, found, ih _ within]

theorem findall_eq_everywhere {r : Regex α} {leads : α → Prop} (led : r.Led leads) (text : List α) :
    r.findall text = r.everywhere text :=
  scan_eq_everywhere led 0 text (by simp)

end Regex
