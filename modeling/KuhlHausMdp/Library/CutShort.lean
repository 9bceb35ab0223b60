import Mathlib

/-! Pipelines executed one after the other, each of which may be cut short
anywhere: a list of pairs of what a pipeline is for and how far it got. -/

set_option autoImplicit false

namespace CutShort

variable {A C T : Type*} {commands : A → List C} {parts : List (A × List C)}

def Within (commands : A → List C) (parts : List (A × List C)) : Prop := ∀ part ∈ parts, part.2 <+: commands part.1

def log (parts : List (A × List C)) : List C := parts.flatMap Prod.snd

def reached (seen : C → Option T) (parts : List (A × List C)) : List A :=
  (parts.filter fun part => part.2.filterMap seen ≠ []).map Prod.fst

theorem reached_sublist (seen : C → Option T) (parts : List (A × List C)) :
    (reached seen parts).Sublist (parts.map Prod.fst) :=
  List.filter_sublist.map _

theorem reached_cons (seen : C → Option T) (part : A × List C) (rest : List (A × List C)) :
    reached seen (part :: rest) =
      if part.2.filterMap seen = [] then reached seen rest else part.1 :: reached seen rest := by
  by_cases found : part.2.filterMap seen = []
  · have out : ¬decide (part.2.filterMap seen ≠ []) = true := fun there => of_decide_eq_true there found
    rw [if_pos found, reached, List.filter_cons, if_neg out, reached]
  · rw [if_neg found, reached, List.filter_cons, if_pos (decide_eq_true found), List.map_cons, reached]

theorem filterMap_log {seen : C → Option T} {value : A → T} (once : ∀ a, (commands a).filterMap seen = [value a])
    (within : Within commands parts) : (log parts).filterMap seen = (reached seen parts).map value := by
  induction parts with
  | nil => rfl
  | cons part rest ih =>
      obtain ⟨here, later⟩ := List.forall_mem_cons.mp within
      have begins := here.filterMap seen
      rw [once] at begins
      rw [log, List.flatMap_cons, List.filterMap_append, reached_cons]
      rcases List.prefix_cons_iff.mp begins with none | ⟨tail, whole, empty⟩
      · rw [if_pos none, none, List.nil_append]
        exact ih later
      · rw [List.prefix_nil.mp empty] at whole
        have there : part.2.filterMap seen ≠ [] := by
          rw [whole]
          exact List.cons_ne_nil _ _
        rw [if_neg there, whole, List.map_cons]
        exact congrArg (value part.1 :: ·) (ih later)

/-- Wherever the commands break off, none of the second kind without one of the first. -/
def Precedes (first second : C → Option T) (commands : List C) : Prop :=
  ∀ part, part <+: commands → part.filterMap second ≠ [] → part.filterMap first ≠ []

theorem precedes_of_head {first second : C → Option T} {command : C} {rest : List C}
    (there : first command ≠ none) : Precedes first second (command :: rest) := by
  intro part starts found
  rcases List.prefix_cons_iff.mp starts with rfl | ⟨tail, rfl, -⟩
  · exact absurd rfl found
  · obtain ⟨value, same⟩ := Option.ne_none_iff_exists'.mp there
    rw [List.filterMap_cons_some same]
    exact List.cons_ne_nil _ _

/-- Commands of the second kind come only after the first of the first kind. -/
theorem precedes_of_quiet {first second : C → Option T} {before rest : List C} (quiet : before.filterMap second = [])
    (later : Precedes first second rest) : Precedes first second (before ++ rest) := by
  intro part starts found
  rcases List.prefix_or_prefix_of_prefix starts (List.prefix_append before rest) with inside | beyond
  · have none := inside.filterMap second
    rw [quiet] at none
    exact absurd (List.prefix_nil.mp none) found
  · obtain ⟨more, rfl⟩ := beyond
    have within : more <+: rest := (List.prefix_append_right_inj before).mp starts
    rw [List.filterMap_append] at found ⊢
    rw [quiet, List.nil_append] at found
    exact fun empty => later more within found (List.append_eq_nil_iff.mp empty).2

theorem reached_of_precedes {first second : C → Option T} (precedes : ∀ a, Precedes first second (commands a))
    (within : Within commands parts) : (reached second parts).Sublist (reached first parts) := by
  induction parts with
  | nil => exact .slnil
  | cons part rest ih =>
      obtain ⟨here, later⟩ := List.forall_mem_cons.mp within
      rw [reached_cons, reached_cons]
      by_cases found : part.2.filterMap second = []
      · rw [if_pos found]
        split
        · exact ih later
        · exact (ih later).cons _
      · rw [if_neg found, if_neg (precedes part.1 part.2 here found)]
        exact (ih later).cons_cons _

end CutShort
