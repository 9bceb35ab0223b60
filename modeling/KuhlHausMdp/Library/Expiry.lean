import KuhlHausMdp.Library.CommandLog

/-! A Redis database whose keys expire: the outcome of a log of commands with the
instants, in milliseconds, at which they were executed. -/

set_option autoImplicit false

namespace Redis

variable {T : Type*}

def Command.renews (key : String) : Command T → Bool
  | .expire other _ | .setex other _ _ => other = key
  | _ => false

structure Aging (T : Type*) where
  db : Database T
  since : String → Int

namespace Aging

def empty : Aging T := ⟨.empty, fun _ => 0⟩

def Over (s : Aging T) (now : Int) (key : String) : Prop := ∃ seconds ∈ s.db.ttl key, s.since key + 1000 * seconds < now

instance (s : Aging T) (now : Int) (key : String) : Decidable (s.Over now key) :=
  inferInstanceAs (Decidable (∃ seconds ∈ s.db.ttl key, s.since key + 1000 * seconds < now))

def left (s : Aging T) (now : Int) : Database T where
  entries key := if s.Over now key then none else s.db.entries key
  ttl key := if s.Over now key then none else s.db.ttl key

def run (s : Aging T) (now : Int) (command : Command T) : Aging T where
  db := (s.left now).run command
  since key := if command.renews key then now else s.since key

def exec (s : Aging T) (now : Int) (commands : List (Command T)) : Aging T where
  db := commands.foldl Database.run (s.left now)
  since key := if commands.any (·.renews key) then now else s.since key

def after (log : List (Int × Command T)) : Aging T := log.foldl (fun s timed => s.run timed.1 timed.2) empty

/-- The lifetime of the key runs out at no command of the log, nor by `now`. -/
def Lasts (key : String) (now : Int) (s : Aging T) : List (Int × Command T) → Prop
  | [] => ¬s.Over now key
  | timed :: log => ¬s.Over timed.1 key ∧ (s.run timed.1 timed.2).Lasts key now log

instance (key : String) (now : Int) : ∀ (log : List (Int × Command T)) (s : Aging T), Decidable (s.Lasts key now log)
  | [], s => inferInstanceAs (Decidable (¬s.Over now key))
  | timed :: log, s =>
      have := instDecidableLasts key now log (s.run timed.1 timed.2)
      inferInstanceAs (Decidable (¬s.Over timed.1 key ∧ (s.run timed.1 timed.2).Lasts key now log))

end Aging

def Database.at (log : List (Int × Command T)) (now : Int) : Database T := (Aging.after log).left now

/-- The instants at which commands were executed, none of them after `now`. -/
structure Timed (log : List (Int × Command T)) (commands : List (Command T)) (now : Int) : Prop where
  commands : log.map Prod.snd = commands
  past : ∀ timed ∈ log, timed.1 ≤ now

theorem Timed.mem {log : List (Int × Command T)} {commands : List (Command T)} {now : Int}
    (timed : Timed log commands now) {one : Int × Command T} (member : one ∈ log) : one.2 ∈ commands :=
  timed.commands ▸ List.mem_map_of_mem member

namespace Database

theorem setList_congr {db other : Database T} {key : String} (ttl : other.ttl key = db.ttl key) (items : List T) :
    (other.setList key items).entries key = (db.setList key items).entries key ∧
      (other.setList key items).ttl key = (db.setList key items).ttl key := by
  cases items <;> simp [setList, delete, ttl]

theorem run_congr {db other : Database T} {key : String} (entries : other.entries key = db.entries key)
    (ttl : other.ttl key = db.ttl key) (command : Command T) :
    (other.run command).entries key = (db.run command).entries key ∧
      (other.run command).ttl key = (db.run command).ttl key := by
  by_cases here : command.key = some key
  · cases command with
    | lpush other item =>
        cases here
        simp only [run, entries, listAt_congr entries]
        split
        · exact ⟨entries, ttl⟩
        · exact setList_congr ttl _
    | ltrim other start stop =>
        cases here
        simp only [run, entries]
        split
        · exact setList_congr ttl _
        · exact ⟨entries, ttl⟩
    | expire | setex =>
        cases here
        simp only [run, entries]
        repeat' split
        all_goals simp [delete, entries, ttl]
    | set =>
        cases here
        simp [run]
    | publish => cases here
  · exact ⟨by rw [entries_run_of_ne _ here, entries_run_of_ne _ here, entries],
      by rw [ttl_run_of_ne _ here, ttl_run_of_ne _ here, ttl]⟩

end Database

namespace Aging

variable {s : Aging T} {key : String} {now : Int}

theorem left_of_over (passed : s.Over now key) : (s.left now).entries key = none ∧ (s.left now).ttl key = none :=
  ⟨if_pos passed, if_pos passed⟩

theorem left_of_not_over (lasts : ¬s.Over now key) :
    (s.left now).entries key = s.db.entries key ∧ (s.left now).ttl key = s.db.ttl key :=
  ⟨if_neg lasts, if_neg lasts⟩

theorem after_concat (log : List (Int × Command T)) (timed : Int × Command T) :
    after (log ++ [timed]) = (after log).run timed.1 timed.2 := by
  simp [after]

theorem Over.mono {later : Int} (passed : s.Over now key) (after : now ≤ later) : s.Over later key := by
  obtain ⟨seconds, given, ended⟩ := passed
  exact ⟨seconds, given, by omega⟩

theorem not_renews {command : Command T} (apart : command.key ≠ some key) : command.renews key = false := by
  cases command with
  | expire | setex => exact decide_eq_false fun same => apart (congrArg some same)
  | _ => rfl

theorem left_exec_of_ne {commands : List (Command T)} (apart : ∀ command ∈ commands, command.key ≠ some key)
    {later : Int} (after : now ≤ later) :
    ((s.exec now commands).left later).entries key = (s.left later).entries key := by
  have same : (commands.foldl Database.run (s.left now)).entries key = (s.left now).entries key ∧
      (commands.foldl Database.run (s.left now)).ttl key = (s.left now).ttl key := by
    generalize s.left now = db
    induction commands generalizing db with
    | nil => exact ⟨rfl, rfl⟩
    | cons command rest ih =>
        obtain ⟨here, others⟩ := List.forall_mem_cons.mp apart
        obtain ⟨entries, ttl⟩ := ih others (db.run command)
        exact ⟨entries.trans (db.entries_run_of_ne here), ttl.trans (db.ttl_run_of_ne here)⟩
  have since : (s.exec now commands).since key = s.since key := by
    refine if_neg fun some => ?_
    obtain ⟨command, member, renews⟩ := List.any_eq_true.mp some
    rw [not_renews (apart command member)] at renews
    cases renews
  obtain ⟨entries, ttl⟩ := same
  by_cases passed : s.Over now key
  · have before := left_of_over passed
    have lasts : ¬(s.exec now commands).Over later key := by
      rintro ⟨seconds, given, -⟩
      rw [exec, ttl, before.2] at given
      cases given
    rw [(left_of_not_over lasts).1, (left_of_over (passed.mono after)).1, exec, entries, before.1]
  · have before := left_of_not_over passed
    have iff : (s.exec now commands).Over later key ↔ s.Over later key := by
      simp only [Over, since]
      rw [exec, ttl, before.2]
    by_cases ends : s.Over later key
    · rw [(left_of_over (iff.mpr ends)).1, (left_of_over ends).1]
    · rw [(left_of_not_over fun passed => ends (iff.mp passed)).1, (left_of_not_over ends).1, exec, entries, before.1]

end Aging

/-- As long as the lifetime of a key does not run out, it holds what it would hold
in a database without expiry. -/
theorem entries_at_of_lasts {key : String} {now : Int} {log : List (Int × Command T)}
    (lasts : Aging.empty.Lasts key now log) :
    (Database.at log now).entries key = (Database.after (log.map Prod.snd)).entries key := by
  have general (log : List (Int × Command T)) (s : Aging T) (db : Database T) (lasts : s.Lasts key now log)
      (entries : s.db.entries key = db.entries key) (ttl : s.db.ttl key = db.ttl key) :
      ((log.foldl (fun s timed => s.run timed.1 timed.2) s).left now).entries key =
        ((log.map Prod.snd).foldl Database.run db).entries key := by
    induction log generalizing s db with
    | nil => exact (Aging.left_of_not_over lasts).1.trans entries
    | cons timed log ih =>
        obtain ⟨here, later⟩ := lasts
        have left := Aging.left_of_not_over here
        have same := Database.run_congr (left.1.trans entries) (left.2.trans ttl) timed.2
        exact ih _ _ later same.1 same.2
  exact general log .empty .empty lasts rfl rfl

/-! A key that holds a rolling list. -/

namespace Aging

variable {s : Aging T} {key : String} {most : Nat} {items : List T}

theorem noneEmpty_left (kept : s.db.NoneEmpty) (now : Int) : (s.left now).NoneEmpty := by
  intro key
  by_cases passed : s.Over now key
  · rw [(left_of_over passed).1]
    exact nofun
  · rw [(left_of_not_over passed).1]
    exact kept key

theorem noneEmpty_after (log : List (Int × Command T)) : (after log).db.NoneEmpty := by
  induction log using List.reverseRecOn with
  | nil => exact Database.noneEmpty_empty
  | append_singleton log timed ih =>
      rw [after_concat]
      exact (noneEmpty_left ih timed.1).run timed.2

theorem keeps_left (keeps : s.db.Keeps key 0 items) (now : Int) : (s.left now).Keeps key 0 items := by
  by_cases passed : s.Over now key
  · have gone := (left_of_over passed).1
    exact ⟨fun value => by rw [gone]; exact nofun, 0, by simp, by simp [Database.listAt, gone]⟩
  · obtain ⟨lists, m, -, list⟩ := keeps
    have same := (left_of_not_over passed).1
    exact ⟨fun value => same ▸ lists value, m, by simp, (Database.listAt_congr same).trans list⟩

theorem keeps_after (positive : 1 ≤ most) {log : List (Int × Command T)}
    (rolls : ∀ timed ∈ log, timed.2.Rolls key most) : (after log).db.Keeps key 0 (pushed key (log.map Prod.snd)) := by
  induction log using List.reverseRecOn with
  | nil => exact ⟨fun _ => nofun, 0, by simp, rfl⟩
  | append_singleton log timed ih =>
      rw [after_concat, List.map_append, List.map_singleton, pushed_concat]
      exact (keeps_left (ih fun other member => rolls other (List.mem_append_left _ member)) timed.1).run positive
        (Nat.zero_le _) (rolls timed (by simp))

end Aging

/-- The items that are left of a list whose lifetime each push sets, newest first:
none has waited for longer than that for the next, nor the first until `now`. -/
def unbroken {A : Type*} (life : Int) : Int → List (Int × A) → List A
  | _, [] => []
  | now, (instant, item) :: older => if now ≤ instant + life then item :: unbroken life instant older else []

/-! A key that holds the string stored last, as long as that lives. -/

/-- The strings stored under the key and when, newest first. -/
def storedAt (key : String) (log : List (Int × Command T)) : List (Int × T) :=
  (log.filterMap fun timed => (timed.2.storedTo key).map (Prod.mk timed.1)).reverse

theorem storedAt_concat (key : String) (log : List (Int × Command T)) (timed : Int × Command T) :
    storedAt key (log ++ [timed]) = ((timed.2.storedTo key).map (Prod.mk timed.1)).toList ++ storedAt key log := by
  unfold storedAt
  cases value : timed.2.storedTo key <;> simp [List.filterMap_append, value]

theorem map_snd_storedAt (key : String) (log : List (Int × Command T)) :
    (storedAt key log).map Prod.snd = stored key (log.map Prod.snd) := by
  rw [storedAt, stored, List.map_reverse, List.map_filterMap, List.filterMap_map]
  congr 2
  funext timed
  simp [Option.map_map, Function.comp_def]

theorem exists_map_of_snd {A : Type*} {f : A → T} {values : List A} {texts : List (Int × T)}
    (same : texts.map Prod.snd = values.map f) :
    ∃ origins : List (Int × A), origins.map Prod.snd = values ∧ texts = origins.map (Prod.map id f) := by
  induction values generalizing texts with
  | nil => exact ⟨[], rfl, List.map_eq_nil_iff.mp same⟩
  | cons value values ih =>
      obtain ⟨text, rest, rfl, own, others⟩ := List.map_eq_cons_iff.mp same
      obtain ⟨origins, rfl, rfl⟩ := ih others
      exact ⟨(text.1, value) :: origins, rfl, congrArg (· :: _) (Prod.ext rfl own)⟩

theorem exists_of_storedAt {key : String} {log : List (Int × Command T)} {value : Int × T}
    (member : value ∈ storedAt key log) : ∃ timed ∈ log, timed.2.storedTo key = some value.2 ∧ timed.1 = value.1 := by
  obtain ⟨timed, among, stores⟩ := List.mem_filterMap.mp (List.mem_reverse.mp member)
  obtain ⟨text, own, rfl⟩ := Option.map_eq_some_iff.mp stores
  exact ⟨timed, among, own, rfl⟩

/-- The newest of the values that are stored for a time, if it still lives. -/
def living {A : Type*} (seconds now : Int) (values : List (Int × A)) : Option (Int × A) :=
  values.head?.filter fun value => now ≤ value.1 + 1000 * seconds

theorem living_map {A B : Type*} (seconds now : Int) (f : A → B) (values : List (Int × A)) :
    living seconds now (values.map (Prod.map id f)) = (living seconds now values).map (Prod.map id f) := by
  cases values with
  | nil => rfl
  | cons value rest => by_cases lives : now ≤ value.1 + 1000 * seconds <;> simp [living, Option.filter, lives]

namespace Aging

/-- The key holds the newest of the strings since that was stored; or nothing, once
something came after its lifetime. -/
inductive Newest (s : Aging T) (key : String) (seconds : Int) (values : List (Int × T)) (past : Int → Prop) : Prop where
  | held (value : Int × T) (newest : values.head? = some value) (entry : s.db.entries key = some (.string value.2))
      (ttl : s.db.ttl key = some seconds) (since : s.since key = value.1)
  | lost (entry : s.db.entries key = none) (ttl : s.db.ttl key = none)
      (passed : ∀ value ∈ values.head?, ∃ instant, past instant ∧ value.1 + 1000 * seconds < instant)

variable {s : Aging T} {key : String} {seconds now : Int} {values : List (Int × T)} {past later : Int → Prop}

theorem Newest.still {command : Command T} (newest : s.Newest key seconds values past) (apart : command.key ≠ some key)
    (before : ∀ instant, past instant → later instant) (here : later now) :
    (s.run now command).Newest key seconds values later := by
  have entries := (s.left now).entries_run_of_ne apart
  have ttl := (s.left now).ttl_run_of_ne apart
  have since : (s.run now command).since key = s.since key := by
    simp only [Aging.run, not_renews apart, Bool.false_eq_true, if_false]
  by_cases passed : s.Over now key
  · obtain ⟨entry, life⟩ := left_of_over passed
    refine .lost (entries.trans entry) (ttl.trans life) fun value first => ?_
    cases newest with
    | held own newest _ lifetime stored =>
        obtain ⟨_, given, ended⟩ := passed
        cases lifetime.symm.trans given
        cases newest.symm.trans first
        exact ⟨now, here, stored ▸ ended⟩
    | lost _ _ ended =>
        obtain ⟨instant, earlier, after⟩ := ended value first
        exact ⟨instant, before instant earlier, after⟩
  · obtain ⟨entry, life⟩ := left_of_not_over passed
    cases newest with
    | held value newest holds lifetime stored =>
        exact .held value newest (entries.trans (entry.trans holds)) (ttl.trans (life.trans lifetime))
          (since.trans stored)
    | lost none lifetime ended =>
        refine .lost (entries.trans (entry.trans none)) (ttl.trans (life.trans lifetime)) fun value first => ?_
        obtain ⟨instant, earlier, after⟩ := ended value first
        exact ⟨instant, before instant earlier, after⟩

theorem newest_setex (s : Aging T) (lasting : 0 < seconds) (value : T) :
    (s.run now (.setex key seconds value)).Newest key seconds ((now, value) :: values) past := by
  refine .held (now, value) rfl ?_ ?_ ?_
  · simp [run, Database.run, lasting]
  · simp [run, Database.run, lasting]
  · simp [run, Command.renews]

theorem Newest.run {command : Command T} (newest : s.Newest key seconds values past) (lasting : 0 < seconds)
    (holds : command.Holds key seconds) (before : ∀ instant, past instant → later instant) (here : later now) :
    (s.run now command).Newest key seconds (((command.storedTo key).map (Prod.mk now)).toList ++ values) later := by
  by_cases own : command.key = some key
  · cases command with
    | setex other lifetime value =>
        cases own
        rw [holds rfl, Command.storedTo, if_pos rfl]
        exact newest_setex s lasting value
    | publish => cases own
    | _ => exact absurd own holds
  · rw [storedTo_of_key_ne own]
    exact newest.still own before here

theorem newest_after (lasting : 0 < seconds) {log : List (Int × Command T)}
    (holds : ∀ timed ∈ log, timed.2.Holds key seconds) :
    (after log).Newest key seconds (storedAt key log) fun instant => instant ∈ log.map Prod.fst := by
  induction log using List.reverseRecOn with
  | nil => exact .lost rfl rfl (by simp [storedAt])
  | append_singleton log timed ih =>
      rw [after_concat, storedAt_concat]
      refine (ih fun other member => holds other (List.mem_append_left _ member)).run lasting (holds timed (by simp))
        (fun instant member => ?_) (by simp)
      rw [List.map_append]
      exact List.mem_append_left _ member

end Aging

section

variable {key : String} {seconds : Int} {log : List (Int × Command T)}

/-- Whatever the clock, the key holds the string stored last or nothing. -/
theorem entries_at_eq_or (lasting : 0 < seconds) (holds : ∀ timed ∈ log, timed.2.Holds key seconds) (now : Int) :
    (Database.at log now).entries key = none ∨
      ∃ value ∈ (storedAt key log).head?, (Database.at log now).entries key = some (.string value.2) := by
  by_cases passed : (Aging.after log).Over now key
  · exact .inl (Aging.left_of_over passed).1
  · have left := (Aging.left_of_not_over passed).1
    cases Aging.newest_after lasting holds with
    | held value newest entry => exact .inr ⟨value, newest, left.trans entry⟩
    | lost entry => exact .inl (left.trans entry)

/-- Once the commands are executed the key holds the string stored last, if that still lives. -/
theorem newest_at (lasting : 0 < seconds) (holds : ∀ timed ∈ log, timed.2.Holds key seconds) {now : Int}
    (past : ∀ timed ∈ log, timed.1 ≤ now) :
    (Database.at log now).entries key = (living seconds now (storedAt key log)).map (fun value => .string value.2) ∧
      (Database.at log now).ttl key = (living seconds now (storedAt key log)).map fun _ => seconds := by
  cases Aging.newest_after lasting holds with
  | held value newest entry ttl since =>
      have passed : (Aging.after log).Over now key ↔ ¬now ≤ value.1 + 1000 * seconds := by
        simp [Aging.Over, ttl, since]
      by_cases lives : now ≤ value.1 + 1000 * seconds
      · have left := Aging.left_of_not_over fun ended => passed.mp ended lives
        have alive : living seconds now (storedAt key log) = some value := by simp [living, newest, lives]
        rw [alive]
        exact ⟨left.1.trans entry, left.2.trans ttl⟩
      · have left := Aging.left_of_over (passed.mpr lives)
        have dead : living seconds now (storedAt key log) = none := by simpa [living, newest] using lives
        rw [dead]
        exact left
  | lost entry ttl passed =>
      have dead : living seconds now (storedAt key log) = none := by
        refine Option.filter_eq_none_iff.mpr fun value first => ?_
        obtain ⟨instant, member, after⟩ := passed value first
        obtain ⟨timed, among, rfl⟩ := List.mem_map.mp member
        have := past timed among
        simp only [decide_eq_true_eq]
        omega
      have lasts : ¬(Aging.after log).Over now key := by simp [Aging.Over, ttl]
      have left := Aging.left_of_not_over lasts
      rw [dead]
      exact ⟨left.1.trans entry, left.2.trans ttl⟩

end

end Redis
