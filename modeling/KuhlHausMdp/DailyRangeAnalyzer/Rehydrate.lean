import Mathlib.Data.List.Induction
import KuhlHausMdp.Library.Glob
import KuhlHausMdp.DailyRangeAnalyzer.Extremes

/-! `rehydrate`: what a starting analyzer restores from the stored payloads.
Restoring only copies, so it is defined over any type of values. -/

set_option autoImplicit false

namespace KuhlHausMdp.DailyRangeAnalyzer

/-- The sessions of a trading day up to the current one, itself included. -/
def elapsed : Session → List Session
  | .preMarket => [.preMarket]
  | .regular => [.preMarket, .regular]
  | .afterHours => [.preMarket, .regular, .afterHours]

def restoreFields (current : Session) : List (Session × Direction) :=
  (elapsed current).flatMap fun session => [(session, .high), (session, .low)]

theorem mem_restoreFields {current session : Session} {direction : Direction} :
    (session, direction) ∈ restoreFields current ↔ session ∈ elapsed current := by
  cases direction <;> simp [restoreFields]

/-- What a payload restores: its symbol and the fields that are there. -/
structure Restorable (α : Type*) where
  symbol : String
  field : Session → Direction → Option α

section
variable {α β : Type*}

def put (extremes : Session → Direction → Dict String α) (session : Session) (direction : Direction) (symbol : String)
    (value : α) : Session → Direction → Dict String α := fun s d =>
  if s = session ∧ d = direction then (extremes s d).set symbol value else extremes s d

/-- A missing field restores nothing. -/
def restoreField (payload : Restorable α) (extremes : Session → Direction → Dict String α)
    (field : Session × Direction) : Session → Direction → Dict String α :=
  match payload.field field.1 field.2 with
  | none => extremes
  | some value => put extremes field.1 field.2 payload.symbol value

def restore (current : Session) (extremes : Session → Direction → Dict String α) (payload : Restorable α) :
    Session → Direction → Dict String α :=
  (restoreFields current).foldl (restoreField payload) extremes

theorem get_put (extremes : Session → Direction → Dict String α) (session s : Session) (direction d : Direction)
    (symbol other : String) (value : α) :
    (put extremes session direction symbol value s d).get other =
      if s = session ∧ d = direction ∧ other = symbol then some value else (extremes s d).get other := by
  by_cases here : s = session ∧ d = direction
  · simp [put, here, Dict.get_set]
  · have apart : ¬ (s = session ∧ d = direction ∧ other = symbol) := fun all => here ⟨all.1, all.2.1⟩
    simp [put, here, apart]

theorem get_restoreField (payload : Restorable α) (extremes : Session → Direction → Dict String α)
    (field : Session × Direction) (session : Session) (direction : Direction) (symbol : String) :
    (restoreField payload extremes field session direction).get symbol =
      if payload.symbol = symbol ∧ (session, direction) = field then
        (payload.field session direction).or ((extremes session direction).get symbol)
      else (extremes session direction).get symbol := by
  obtain ⟨s, d⟩ := field
  unfold restoreField
  by_cases here : (session, direction) = (s, d)
  · cases here
    cases payload.field session direction with
    | none => simp
    | some value => simp [get_put, eq_comm]
  · have apart : ¬ (session = s ∧ direction = d ∧ symbol = payload.symbol) := fun all => here (by rw [all.1, all.2.1])
    rw [if_neg fun all => here all.2]
    cases payload.field s d with
    | none => rfl
    | some value => exact (get_put ..).trans (if_neg apart)

theorem get_restore (current : Session) (extremes : Session → Direction → Dict String α) (payload : Restorable α)
    (session : Session) (direction : Direction) (symbol : String) :
    (restore current extremes payload session direction).get symbol =
      if payload.symbol = symbol ∧ session ∈ elapsed current then
        (payload.field session direction).or ((extremes session direction).get symbol)
      else (extremes session direction).get symbol := by
  have loop : ∀ fields : List (Session × Direction), fields.Nodup →
      ∀ extremes : Session → Direction → Dict String α,
        (fields.foldl (restoreField payload) extremes session direction).get symbol =
          if payload.symbol = symbol ∧ (session, direction) ∈ fields then
            (payload.field session direction).or ((extremes session direction).get symbol)
          else (extremes session direction).get symbol := by
    intro fields
    induction fields with
    | nil => simp
    | cons field rest ih =>
        intro unique extremes
        rw [List.nodup_cons] at unique
        rw [List.foldl_cons, ih unique.2, get_restoreField]
        -- a field is met once in the loop
        by_cases here : (session, direction) = field
        · simp [here, unique.1]
        · simp [here]
  have unique : (restoreFields current).Nodup := by cases current <;> decide
  have all := loop (restoreFields current) unique extremes
  simp only [mem_restoreFields] at all
  exact all

def Restorable.provides (symbol : String) (session : Session) (direction : Direction) (payload : Restorable α) :
    Option α :=
  if payload.symbol = symbol then payload.field session direction else none

theorem get_foldl_restore (current : Session) (extremes : Session → Direction → Dict String α)
    (payloads : List (Restorable α)) (session : Session) (direction : Direction) (symbol : String) :
    (payloads.foldl (restore current) extremes session direction).get symbol =
      if session ∈ elapsed current then
        (payloads.filterMap (Restorable.provides symbol session direction)).getLast?.or
          ((extremes session direction).get symbol)
      else (extremes session direction).get symbol := by
  induction payloads using List.reverseRecOn with
  | nil => simp
  | append_singleton payloads payload ih =>
      rw [List.foldl_append, List.foldl_cons, List.foldl_nil, get_restore, ih, List.filterMap_append,
        List.getLast?_append]
      by_cases within : session ∈ elapsed current
      · by_cases own : payload.symbol = symbol
        · cases present : payload.field session direction with
          | none => simp [within, own, present, Restorable.provides]
          | some value => simp [within, own, present, Restorable.provides]
        · simp [within, own, Restorable.provides]
      · simp [within]

end

/-- A stored state: its six fields are numbers or missing. -/
structure Payload where
  data : Dict String Value
  numeric : ∀ session direction, read data (fieldName session direction) = .none ∨
    ∃ q, read data (fieldName session direction) = .num q

def Payload.field (payload : Payload) (session : Session) (direction : Direction) : Option ℚ :=
  match read payload.data (fieldName session direction) with
  | .num q => some q
  | _ => none

/-- A payload without a symbol is skipped; a symbol that is no text is never asked for. -/
def Payload.restorable (payload : Payload) : Option (Restorable ℚ) :=
  match read payload.data "symbol" with
  | .str symbol => if symbol = "" then none else some ⟨symbol, payload.field⟩
  | _ => none

/-- A value in Redis: a state, or one that is no JSON object, such as the day boundary. -/
inductive Stored where
  | state (payload : Payload)
  | other

abbrev Redis := String → Option Stored

def restorableAt (redis : Redis) (key : String) : Option (Restorable ℚ) :=
  match redis key with
  | some (.state payload) => payload.restorable
  | _ => none

def restoreKey (redis : Redis) (current : Session) (self : DailyRangeAnalyzer) (key : String) : DailyRangeAnalyzer :=
  match restorableAt redis key with
  | none => self
  | some payload => { self with extremes := restore current self.extremes payload }

/-- The session is asked once, then every key of every page is restored. Of
`now` only the clock and the market status are read. -/
def rehydrate (self : DailyRangeAnalyzer) (now : Tick) (redis : Redis) (pages : List (List String)) :
    DailyRangeAnalyzer :=
  match self.getSession now with
  | (none, self) => self
  | (some current, self) => pages.foldl (fun self keys => keys.foldl (restoreKey redis current) self) self

/-- The pages of a scan for the stored states: in any order and with
repetitions, every such key that exists and only such keys. -/
structure Scanned (redis : Redis) (pages : List (List String)) : Prop where
  complete : ∀ key, Glob.Matches (WidgetDataCacheKeys.DAILY_RANGE ++ ":*") key → (redis key).isSome → key ∈ pages.flatten
  sound : ∀ key ∈ pages.flatten, Glob.Matches (WidgetDataCacheKeys.DAILY_RANGE ++ ":*") key

theorem rehydrate_closed {self : DailyRangeAnalyzer} {now : Tick} (known : (self.getSession now).1 = none)
    (redis : Redis) (pages : List (List String)) : (rehydrate self now redis pages).extremes = self.extremes := by
  rw [← extremes_getSession self now]
  unfold rehydrate
  split
  case h_1 after missing => rw [missing]
  case h_2 session after found => rw [found] at known; cases known

theorem rehydrate_eq {self : DailyRangeAnalyzer} {now : Tick} {current : Session}
    (known : (self.getSession now).1 = some current) (redis : Redis) (pages : List (List String)) :
    rehydrate self now redis pages =
      { (self.getSession now).2 with
        extremes := (pages.flatten.filterMap (restorableAt redis)).foldl (restore current) self.extremes } := by
  have loop : ∀ (keys : List String) (self : DailyRangeAnalyzer), keys.foldl (restoreKey redis current) self =
      { self with extremes := (keys.filterMap (restorableAt redis)).foldl (restore current) self.extremes } := by
    intro keys
    induction keys with
    | nil => intro self; rfl
    | cons key rest ih =>
        intro self
        rw [List.foldl_cons, ih, restoreKey]
        cases present : restorableAt redis key with
        | none => rw [List.filterMap_cons_none present]
        | some payload => rw [List.filterMap_cons_some present, List.foldl_cons]
  rw [← extremes_getSession self now]
  unfold rehydrate
  split
  case h_1 missing => rw [missing] at known; cases known
  case h_2 session after found =>
    rw [found] at known ⊢
    cases known
    rw [← loop, ← List.foldl_flatten]

end KuhlHausMdp.DailyRangeAnalyzer
