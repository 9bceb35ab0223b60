import Mathlib.Algebra.Order.Monoid.Unbundled.Basic
import Mathlib.Data.List.Basic

/-! A lease that is granted when it is free and then lasts for a fixed period, as
with a key that is set only when it is absent and expires by itself. -/

set_option autoImplicit false

namespace Lease

variable {T : Type*} [LinearOrder T] [Add T]

def Free (expiry : Option T) (now : T) : Prop := ∀ e ∈ expiry, e < now

instance (expiry : Option T) (now : T) : Decidable (Free expiry now) :=
  match expiry with
  | none => .isTrue nofun
  | some e => decidable_of_iff (e < now) (by simp [Free])

def acquire (period : T) (expiry : Option T) (now : T) : Bool × Option T :=
  if Free expiry now then (true, some (now + period)) else (false, expiry)

/-- The instants of a list that is newest first lie more than the period apart. -/
def Apart (period : T) (instants : List T) : Prop := instants.Pairwise fun later earlier => earlier + period < later

/-- What is known of the requests and the grants, newest first, up to an instant.
Each request falls into the period of a grant. A schedule of requests that keeps
the period has no more of them than were granted, and is not ahead of the grants. -/
structure History (period : T) (expiry : Option T) (now : T) (requests grants : List T) : Prop where
  apart : Apart period grants
  expiry : expiry = grants.head?.map (· + period)
  past : ∀ grant ∈ grants, grant ≤ now
  covered : ∀ request ∈ requests, ∃ grant ∈ grants, grant ≤ request ∧ request ≤ grant + period
  most : ∀ schedule, schedule.Sublist requests → Apart period schedule →
    schedule.length ≤ grants.length ∧
      (schedule.length = grants.length → ∀ s ∈ schedule.head?, ∀ g ∈ grants.head?, g ≤ s)

variable {period now : T} {expiry : Option T} {requests grants : List T}

theorem history_nil (period now : T) : History period none now [] [] where
  apart := .nil
  expiry := rfl
  past := nofun
  covered := nofun
  most schedule sublist _ := by
    rw [List.sublist_nil.mp sublist]
    exact ⟨Nat.le_refl 0, fun _ => nofun⟩

theorem History.later {next : T} (history : History period expiry now requests grants) (forward : now ≤ next) :
    History period expiry next requests grants :=
  { history with past := fun grant member => (history.past grant member).trans forward }

theorem History.granted (history : History period expiry now requests grants) (lasting : now ≤ now + period)
    (free : Free expiry now) :
    History period (some (now + period)) now (now :: requests) (now :: grants) where
  apart := by
    refine List.pairwise_cons.mpr ⟨fun grant member => ?_, history.apart⟩
    cases grants with
    | nil => cases member
    | cons last older =>
        have expired : last + period < now := free _ (by rw [history.expiry]; rfl)
        rcases List.mem_cons.mp member with rfl | member
        · exact expired
        · -- an older grant ran out before the last one
          have before := (List.pairwise_cons.mp history.apart).1 grant member
          exact before.trans_le (history.past last List.mem_cons_self)
  expiry := rfl
  past grant member := by
    rcases List.mem_cons.mp member with rfl | member
    · exact le_refl _
    · exact history.past grant member
  covered request member := by
    rcases List.mem_cons.mp member with rfl | member
    · exact ⟨request, List.mem_cons_self, le_refl _, lasting⟩
    · obtain ⟨grant, given, covers⟩ := history.covered request member
      exact ⟨grant, List.mem_cons_of_mem _ given, covers⟩
  most schedule sublist apart := by
    have older (rest : List T) (within : rest.Sublist requests) (apart : Apart period rest) :=
      (history.most rest within apart).1
    rcases List.sublist_cons_iff.mp sublist with without | ⟨rest, rfl, within⟩
    · have fewer := older schedule without apart
      rw [List.length_cons]
      refine ⟨by omega, fun same => ?_⟩
      omega
    · have fewer := older rest within (List.pairwise_cons.mp apart).2
      simp only [List.length_cons, List.head?_cons, Option.mem_some_iff]
      refine ⟨by omega, ?_⟩
      rintro - s rfl g rfl
      exact le_refl _

theorem History.running (history : History period expiry now requests grants) (taken : ¬Free expiry now) :
    ∃ grant ∈ grants, grant ≤ now ∧ now ≤ grant + period := by
  rw [history.expiry] at taken
  cases grants with
  | nil => exact absurd nofun taken
  | cons last older =>
      exact ⟨last, List.mem_cons_self, history.past last List.mem_cons_self, by simpa [Free] using taken⟩

theorem History.refused [AddRightMono T] (history : History period expiry now requests grants)
    (taken : ¬Free expiry now) : History period expiry now (now :: requests) grants where
  apart := history.apart
  expiry := history.expiry
  past := history.past
  covered request member := by
    rcases List.mem_cons.mp member with rfl | member
    · exact history.running taken
    · exact history.covered request member
  most schedule sublist apart := by
    cases grants with
    | nil =>
        rw [history.expiry] at taken
        exact absurd nofun taken
    | cons last older =>
        have running : now ≤ last + period := by
          rw [history.expiry] at taken
          simpa [Free] using taken
        rcases List.sublist_cons_iff.mp sublist with without | ⟨rest, rfl, within⟩
        · exact history.most schedule without apart
        · obtain ⟨first, rest_apart⟩ := List.pairwise_cons.mp apart
          obtain ⟨fewer, ahead⟩ := history.most rest within rest_apart
          simp only [List.length_cons, List.head?_cons, Option.mem_some_iff] at fewer ahead ⊢
          -- a schedule as long as the grants would have to wait for the last of them to run out
          have shorter : rest.length ≠ older.length + 1 := by
            intro same
            cases rest with
            | nil => simp at same
            | cons s rest =>
                have behind : last ≤ s := ahead same s rfl last rfl
                have soon := (add_le_add_left behind period).trans_lt (first s List.mem_cons_self)
                exact absurd running (not_le.mpr soon)
          refine ⟨by omega, ?_⟩
          rintro - s rfl g rfl
          exact history.past last List.mem_cons_self

theorem History.acquire [AddRightMono T] (history : History period expiry now requests grants)
    (lasting : now ≤ now + period) :
    History period (Lease.acquire period expiry now).2 now (now :: requests)
      (if (Lease.acquire period expiry now).1 then now :: grants else grants) := by
  by_cases free : Free expiry now
  · simp only [Lease.acquire, if_pos free, if_true]
    exact history.granted lasting free
  · simp only [Lease.acquire, if_neg free, Bool.false_eq_true, if_false]
    exact history.refused free

end Lease
