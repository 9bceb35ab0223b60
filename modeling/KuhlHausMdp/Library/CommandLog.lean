import Mathlib.Data.List.Induction
import Mathlib.Data.List.Perm.Subperm
import KuhlHausMdp.Library.Glob
import KuhlHausMdp.Library.Redis

/-! A Redis database as the outcome of a log of commands, in the order in which
they were executed, whoever sent them. -/

set_option autoImplicit false

namespace Redis

variable {T : Type*}

namespace Command

def pushedTo (key : String) : Command T → Option T
  | .lpush other item => if other = key then some item else none
  | _ => none

def publishedOn (channel : String) : Command T → Option T
  | .publish other message => if other = channel then some message else none
  | _ => none

def storedTo (key : String) : Command T → Option T
  | .setex other _ value => if other = key then some value else none
  | .set other value => if other = key then some value else none
  | _ => none

/-- The message that a command publishes, for a client subscribed to the pattern. -/
def heardBy (pattern : String) : Command T → Option T
  | .publish channel message => if Glob.Matches pattern channel then some message else none
  | _ => none

def Holds (key : String) (seconds : Int) : Command T → Prop
  | .setex other lifetime _ => other = key → lifetime = seconds
  | .publish _ _ => True
  | command => command.key ≠ some key

def Rolls (key : String) (most : Nat) : Command T → Prop
  | .ltrim other start stop => other = key → start = 0 ∧ stop = most - 1
  | .expire other seconds => other = key → 0 < seconds
  | .setex other _ _ => other ≠ key
  | .set other _ => other ≠ key
  | .lpush _ _ => True
  | .publish _ _ => True

end Command

def pushed (key : String) (log : List (Command T)) : List T := (log.filterMap (·.pushedTo key)).reverse

def stored (key : String) (log : List (Command T)) : List T := (log.filterMap (·.storedTo key)).reverse

def heard (pattern : String) (log : List (Command T)) : List T := log.filterMap (·.heardBy pattern)

def published (channel : String) (log : List (Command T)) : List T := log.filterMap (·.publishedOn channel)

def Database.after (log : List (Command T)) : Database T := log.foldl Database.run Database.empty

theorem pushed_concat (key : String) (log : List (Command T)) (command : Command T) :
    pushed key (log ++ [command]) = (command.pushedTo key).toList ++ pushed key log := by
  unfold pushed
  cases item : command.pushedTo key <;> simp [List.filterMap_append, item]

theorem pushed_append (key : String) (log later : List (Command T)) :
    pushed key (log ++ later) = pushed key later ++ pushed key log := by
  simp [pushed, List.filterMap_append]

theorem after_concat (log : List (Command T)) (command : Command T) :
    Database.after (log ++ [command]) = (Database.after log).run command := by
  simp [Database.after]

theorem noneEmpty_after (log : List (Command T)) : (Database.after log).NoneEmpty := by
  induction log using List.reverseRecOn with
  | nil => exact Database.noneEmpty_empty
  | append_singleton log command ih =>
      rw [after_concat]
      exact ih.run command

theorem pushedTo_of_key_ne {key : String} {command : Command T} (apart : command.key ≠ some key) :
    command.pushedTo key = none := by
  cases command with
  | lpush other item => exact if_neg fun same => apart (congrArg some same)
  | _ => rfl

/-- What the log has left of the list: everything pushed up to some age, and the
`least` newest items at least. -/
def Database.Keeps (db : Database T) (key : String) (least : Nat) (items : List T) : Prop :=
  db.Lists key ∧ ∃ m, min least items.length ≤ m ∧ db.listAt key = items.take m

theorem Database.Keeps.run {db : Database T} {key : String} {least most : Nat} {items : List T} {command : Command T}
    (positive : 1 ≤ most) (within : least ≤ most) (keeps : db.Keeps key least items)
    (rolls : command.Rolls key most) : (db.run command).Keeps key least ((command.pushedTo key).toList ++ items) := by
  obtain ⟨lists, m, enough, list⟩ := keeps
  by_cases here : command.key = some key
  · cases command with
    | lpush other item =>
        cases here
        rw [Command.pushedTo, if_pos rfl, run_lpush lists]
        refine ⟨db.lists_setList key _, m + 1, ?_, ?_⟩
        · simp only [Option.toList_some, List.singleton_append, List.length_cons]
          omega
        · rw [listAt_setList, list]
          rfl
    | ltrim other start stop =>
        cases here
        obtain ⟨rfl, rfl⟩ := rolls rfl
        refine ⟨lists_ltrim lists _ _, min most m, ?_, ?_⟩
        · change min least items.length ≤ min most m
          omega
        · rw [listAt_ltrim, range_zero (by omega), list, List.take_take]
          change _ = items.take (min most m)
          congr 2
          omega
    | expire other seconds =>
        cases here
        have same := congrFun (db.entries_expire key (rolls rfl)) key
        exact ⟨fun value => same ▸ lists value, m, enough, (listAt_congr same).trans list⟩
    | setex other seconds value => cases here; exact absurd rfl rolls
    | set other value => cases here; exact absurd rfl rolls
    | publish => cases here
  · have same := db.entries_run_of_ne here
    rw [pushedTo_of_key_ne here]
    exact ⟨fun value => same ▸ lists value, m, enough, (listAt_congr same).trans list⟩

/-- However the commands of any pipelines are mixed, and wherever a pipeline
breaks off, the list lacks nothing recent. -/
theorem keeps_after {key : String} {most : Nat} (positive : 1 ≤ most) {log : List (Command T)}
    (rolls : ∀ command ∈ log, command.Rolls key most) : (Database.after log).Keeps key most (pushed key log) := by
  induction log using List.reverseRecOn with
  | nil => exact ⟨fun _ => nofun, 0, by simp [pushed], rfl⟩
  | append_singleton log command ih =>
      rw [after_concat, pushed_concat]
      exact (ih fun other member => rolls other (List.mem_append_left _ member)).run positive (Nat.le_refl _)
        (rolls command (by simp))

/-! A key that holds the string stored last. -/

theorem stored_concat (key : String) (log : List (Command T)) (command : Command T) :
    stored key (log ++ [command]) = (command.storedTo key).toList ++ stored key log := by
  unfold stored
  cases value : command.storedTo key <;> simp [List.filterMap_append, value]

theorem storedTo_of_key_ne {key : String} {command : Command T} (apart : command.key ≠ some key) :
    command.storedTo key = none := by
  cases command with
  | setex other seconds value => exact if_neg fun same => apart (congrArg some same)
  | set other value => exact if_neg fun same => apart (congrArg some same)
  | _ => rfl

def Database.Newest (db : Database T) (key : String) (seconds : Int) (values : List T) : Prop :=
  db.entries key = values.head?.map .string ∧ db.ttl key = values.head?.map fun _ => seconds

theorem Database.Newest.run {db : Database T} {key : String} {seconds : Int} {values : List T} {command : Command T}
    (lasting : 0 < seconds) (newest : db.Newest key seconds values) (holds : command.Holds key seconds) :
    (db.run command).Newest key seconds ((command.storedTo key).toList ++ values) := by
  obtain ⟨entry, ttl⟩ := newest
  by_cases here : command.key = some key
  · cases command with
    | setex other lifetime value =>
        cases here
        rw [holds rfl, Command.storedTo, if_pos rfl, Database.Newest, Database.run, if_pos lasting]
        exact ⟨Function.update_self _ _ _, Function.update_self _ _ _⟩
    | publish => cases here
    | _ => exact absurd here holds
  · rw [storedTo_of_key_ne here]
    exact ⟨(db.entries_run_of_ne here).trans entry, (db.ttl_run_of_ne here).trans ttl⟩

theorem newest_after {key : String} {seconds : Int} (lasting : 0 < seconds) {log : List (Command T)}
    (holds : ∀ command ∈ log, command.Holds key seconds) :
    (Database.after log).Newest key seconds (stored key log) := by
  induction log using List.reverseRecOn with
  | nil => exact ⟨rfl, rfl⟩
  | append_singleton log command ih =>
      rw [after_concat, stored_concat]
      exact (ih fun other member => holds other (List.mem_append_left _ member)).run lasting (holds command (by simp))

theorem exists_map_eq {A B : Type*} {f : A → B} {P : A → Prop} {items : List B}
    (each : ∀ item ∈ items, ∃ a, item = f a ∧ P a) :
    ∃ origins : List A, items = origins.map f ∧ ∀ a ∈ origins, P a := by
  induction items with
  | nil => exact ⟨[], rfl, nofun⟩
  | cons item rest ih =>
      obtain ⟨⟨a, rfl, holds⟩, later⟩ := List.forall_mem_cons.mp each
      obtain ⟨origins, rfl, all⟩ := ih later
      exact ⟨a :: origins, rfl, List.forall_mem_cons.mpr ⟨holds, all⟩⟩

/-! Pushes and messages of many pipelines, whatever the order of their commands. -/

theorem published_append (key : String) (log later : List (Command T)) :
    published key (log ++ later) = published key log ++ published key later := List.filterMap_append

theorem pushed_perm (key : String) {log other : List (Command T)} (shuffled : log.Perm other) :
    (pushed key log).Perm (pushed key other) := by
  unfold pushed
  exact ((List.reverse_perm _).trans (shuffled.filterMap _)).trans (List.reverse_perm _).symm

theorem pushed_flatMap_perm {A : Type*} (key : String) (pipelines : List A) (commands : A → List (Command T)) :
    (pushed key (pipelines.flatMap commands)).Perm (pipelines.flatMap fun a => pushed key (commands a)) := by
  induction pipelines with
  | nil => exact .nil
  | cons a rest ih =>
      rw [List.flatMap_cons, List.flatMap_cons, pushed_append]
      exact List.perm_append_comm.trans (ih.append_left _)

theorem published_flatMap {A : Type*} (key : String) (pipelines : List A) (commands : A → List (Command T)) :
    published key (pipelines.flatMap commands) = pipelines.flatMap fun a => published key (commands a) :=
  List.filterMap_flatMap

/-- Wherever the commands break off, what they have published on the channel
they have pushed to the list of the same name. -/
def Announced (key : String) (commands : List (Command T)) : Prop :=
  ∀ part, part <+: commands → (published key part).Subperm (pushed key part)

theorem Announced.append {key : String} {first second : List (Command T)} (one : Announced key first)
    (other : Announced key second) : Announced key (first ++ second) := by
  intro part starts
  rcases List.prefix_or_prefix_of_prefix starts (List.prefix_append first second) with within | beyond
  · exact one part within
  · obtain ⟨more, rfl⟩ := beyond
    have rest : more <+: second := (List.prefix_append_right_inj first).mp starts
    rw [published_append, pushed_append]
    exact ((one first (List.prefix_refl first)).append (other more rest)).trans List.perm_append_comm.subperm

theorem announced_flatMap {A : Type*} {key : String} {pipelines : List A} {commands : A → List (Command T)}
    (each : ∀ a ∈ pipelines, Announced key (commands a)) : Announced key (pipelines.flatMap commands) := by
  induction pipelines with
  | nil =>
      intro part starts
      rw [List.prefix_nil.mp starts]
      exact List.nil_subperm
  | cons a rest ih =>
      obtain ⟨here, later⟩ := List.forall_mem_cons.mp each
      exact here.append (ih later)

/-- The same of parts of many pipelines, in whatever order they were executed. -/
theorem subperm_of_announced {A : Type*} {key : String} {pipelines : List A} {parts : A → List (Command T)}
    {log : List (Command T)} (shuffled : log.Perm (pipelines.flatMap parts))
    (each : ∀ a ∈ pipelines, Announced key (parts a)) : (published key log).Subperm (pushed key log) := by
  have whole := announced_flatMap each _ (List.prefix_refl _)
  exact ((shuffled.filterMap _).subperm.trans whole).trans (pushed_perm key shuffled.symm).subperm

end Redis
