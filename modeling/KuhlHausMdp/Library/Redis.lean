import Mathlib.Logic.Function.Basic
import Mathlib.Data.List.Basic

/-! A Redis database of strings and lists, one command at a time. Lifetimes are
recorded; time passes in `Aging` only. -/

set_option autoImplicit false

namespace Redis

inductive Entry (T : Type*) where
  | string (value : T)
  | list (items : List T)

structure Database (T : Type*) where
  entries : String → Option (Entry T)
  ttl : String → Option Int

inductive Command (T : Type*) where
  | lpush (key : String) (item : T)
  | ltrim (key : String) (start stop : Int)
  | expire (key : String) (seconds : Int)
  | setex (key : String) (seconds : Int) (value : T)
  | set (key : String) (value : T)
  | publish (channel : String) (message : T)

variable {T : Type*}

/-- The items from `start` to `stop`, both included; a negative index counts
from the end. -/
def range (start stop : Int) (items : List T) : List T :=
  let first := if start < 0 then max (start + items.length) 0 else start
  let last := if stop < 0 then stop + items.length else stop
  (items.drop first.toNat).take (last - first + 1).toNat

theorem range_zero {stop : Int} (proper : 0 ≤ stop) (items : List T) :
    range 0 stop items = items.take (stop + 1).toNat := by
  have last : ¬stop < 0 := by omega
  simp [range, last]

theorem range_all (items : List T) : range 0 (-1) items = items := by
  simp only [range, Int.lt_irrefl, if_false, Int.toNat_zero, List.drop_zero]
  exact List.take_of_length_le (by omega)

namespace Database

def empty : Database T := ⟨fun _ => none, fun _ => none⟩

def listAt (db : Database T) (key : String) : List T :=
  match db.entries key with
  | some (.list items) => items
  | _ => []

def delete (db : Database T) (key : String) : Database T :=
  ⟨Function.update db.entries key none, Function.update db.ttl key none⟩

/-- A list that becomes empty is deleted with its key. -/
def setList (db : Database T) (key : String) (items : List T) : Database T :=
  match items with
  | [] => db.delete key
  | items => { db with entries := Function.update db.entries key (some (.list items)) }

/-- A command on a key of the wrong type is an error and changes nothing. -/
def run (db : Database T) : Command T → Database T
  | .lpush key item =>
      match db.entries key with
      | some (.string _) => db
      | _ => db.setList key (item :: db.listAt key)
  | .ltrim key start stop =>
      match db.entries key with
      | some (.list items) => db.setList key (range start stop items)
      | _ => db
  | .expire key seconds =>
      match db.entries key with
      | some _ =>
          if 0 < seconds then { db with ttl := Function.update db.ttl key (some seconds) } else db.delete key
      | none => db
  | .setex key seconds value =>
      if 0 < seconds then
        ⟨Function.update db.entries key (some (.string value)), Function.update db.ttl key (some seconds)⟩
      else db
  | .set key value => ⟨Function.update db.entries key (some (.string value)), Function.update db.ttl key none⟩
  | .publish _ _ => db

end Database

def Command.key : Command T → Option String
  | .lpush key _ => some key
  | .ltrim key _ _ => some key
  | .expire key _ => some key
  | .setex key _ _ => some key
  | .set key _ => some key
  | .publish _ _ => none

namespace Database

def Lists (db : Database T) (key : String) : Prop := ∀ value, db.entries key ≠ some (.string value)

theorem entries_of_lists {db : Database T} {key : String} (lists : db.Lists key) :
    db.entries key = none ∧ db.listAt key = [] ∨ db.entries key = some (.list (db.listAt key)) := by
  cases found : db.entries key with
  | none => exact .inl ⟨rfl, by rw [listAt, found]⟩
  | some entry =>
      cases entry with
      | string value => exact absurd found (lists value)
      | list items => exact .inr (by rw [listAt, found])

theorem entries_setList (db : Database T) (key other : String) (items : List T) :
    (db.setList key items).entries other =
      if other = key then (if items = [] then none else some (.list items)) else db.entries other := by
  cases items <;> by_cases same : other = key <;> simp [setList, delete, same]

theorem entries_run_of_ne (db : Database T) {command : Command T} {key : String} (apart : command.key ≠ some key) :
    (db.run command).entries key = db.entries key := by
  cases command with
  | lpush other item =>
      have ne : key ≠ other := fun same => apart (congrArg some same.symm)
      simp only [run]
      split
      · rfl
      · rw [entries_setList, if_neg ne]
  | ltrim other start stop =>
      have ne : key ≠ other := fun same => apart (congrArg some same.symm)
      simp only [run]
      split
      · rw [entries_setList, if_neg ne]
      · rfl
  | expire other seconds =>
      have ne : key ≠ other := fun same => apart (congrArg some same.symm)
      simp only [run]
      split
      · split
        · rfl
        · exact Function.update_of_ne ne _ _
      · rfl
  | setex other seconds value =>
      have ne : key ≠ other := fun same => apart (congrArg some same.symm)
      simp only [run]
      split
      · exact Function.update_of_ne ne _ _
      · rfl
  | set other value => exact Function.update_of_ne (fun same => apart (congrArg some same.symm)) _ _
  | publish => rfl

theorem ttl_delete_of_ne (db : Database T) {key other : String} (ne : key ≠ other) :
    (db.delete other).ttl key = db.ttl key := Function.update_of_ne ne _ _

theorem ttl_setList_of_ne (db : Database T) {key other : String} (ne : key ≠ other) (items : List T) :
    (db.setList other items).ttl key = db.ttl key := by
  cases items with
  | nil => exact db.ttl_delete_of_ne ne
  | cons => rfl

theorem ttl_run_of_ne (db : Database T) {command : Command T} {key : String} (apart : command.key ≠ some key) :
    (db.run command).ttl key = db.ttl key := by
  have ne (other : String) (its : command.key = some other) : key ≠ other := fun same => apart (same ▸ its)
  cases command with
  | lpush other item =>
      simp only [run]
      split
      · rfl
      · exact db.ttl_setList_of_ne (ne other rfl) _
  | ltrim other start stop =>
      simp only [run]
      split
      · exact db.ttl_setList_of_ne (ne other rfl) _
      · rfl
  | expire other seconds =>
      simp only [run]
      split
      · split
        · exact Function.update_of_ne (ne other rfl) _ _
        · exact db.ttl_delete_of_ne (ne other rfl)
      · rfl
  | setex other seconds value =>
      simp only [run]
      split
      · exact Function.update_of_ne (ne other rfl) _ _
      · rfl
  | set other value => exact Function.update_of_ne (ne other rfl) _ _
  | publish => rfl

theorem entries_expire (db : Database T) (key : String) {seconds : Int} (proper : 0 < seconds) :
    (db.run (.expire key seconds)).entries = db.entries := by
  simp only [run, if_pos proper]
  split <;> rfl

theorem listAt_congr {db other : Database T} {key : String} (same : other.entries key = db.entries key) :
    other.listAt key = db.listAt key := by
  simp only [listAt, same]

theorem listAt_setList (db : Database T) (key : String) (items : List T) :
    (db.setList key items).listAt key = items := by
  cases items <;> simp [setList, delete, listAt]

theorem lists_setList (db : Database T) (key : String) (items : List T) : (db.setList key items).Lists key := by
  intro value
  rw [entries_setList, if_pos rfl]
  split <;> simp

theorem run_lpush {db : Database T} {key : String} (lists : db.Lists key) (item : T) :
    db.run (.lpush key item) = db.setList key (item :: db.listAt key) := by
  rcases entries_of_lists lists with ⟨absent, -⟩ | stored
  · simp only [run, absent]
  · simp only [run, stored]

theorem listAt_ltrim (db : Database T) (key : String) (start stop : Int) :
    (db.run (.ltrim key start stop)).listAt key = range start stop (db.listAt key) := by
  cases found : db.entries key with
  | none => simp [run, found, listAt, range]
  | some entry =>
      cases entry with
      | string value => simp [run, found, listAt, range]
      | list items => simp only [run, found, listAt_setList]; rw [listAt, found]

theorem lists_ltrim {db : Database T} {key : String} (lists : db.Lists key) (start stop : Int) :
    (db.run (.ltrim key start stop)).Lists key := by
  simp only [run]
  split
  · exact lists_setList db key _
  · exact lists

def NoneEmpty (db : Database T) : Prop := ∀ key, db.entries key ≠ some (.list [])

theorem noneEmpty_empty : (empty : Database T).NoneEmpty := fun _ => nofun

theorem noneEmpty_setList {db : Database T} (kept : db.NoneEmpty) (key : String) (items : List T) :
    (db.setList key items).NoneEmpty := by
  intro other
  rw [entries_setList]
  split
  · split
    · exact nofun
    · rename_i some
      intro same
      exact some (Entry.list.inj (Option.some.inj same))
  · exact kept other

theorem NoneEmpty.update {db : Database T} (kept : db.NoneEmpty) (key : String) {entry : Option (Entry T)}
    (proper : entry ≠ some (.list [])) (ttl : String → Option Int) :
    (⟨Function.update db.entries key entry, ttl⟩ : Database T).NoneEmpty := by
  intro other
  simp only [Function.update_apply]
  split
  · exact proper
  · exact kept other

theorem NoneEmpty.run {db : Database T} (kept : db.NoneEmpty) (command : Command T) : (db.run command).NoneEmpty := by
  have noValue : (none : Option (Entry T)) ≠ some (.list []) := nofun
  have string (value : T) : some (Entry.string value) ≠ some (.list []) := nofun
  cases command with
  | lpush key item =>
      simp only [Database.run]
      split
      · exact kept
      · exact noneEmpty_setList kept key _
  | ltrim key start stop =>
      simp only [Database.run]
      split
      · exact noneEmpty_setList kept key _
      · exact kept
  | expire key seconds =>
      simp only [Database.run]
      split
      · split
        · exact kept
        · exact kept.update key noValue _
      · exact kept
  | setex key seconds value =>
      simp only [Database.run]
      split
      · exact kept.update key (string value) _
      · exact kept
  | set key value => exact kept.update key (string value) _
  | publish => exact kept

theorem entries_ne_none_iff {db : Database T} (kept : db.NoneEmpty) {key : String} (lists : db.Lists key) :
    db.entries key ≠ none ↔ db.listAt key ≠ [] := by
  rcases entries_of_lists lists with ⟨absent, nothing⟩ | stored
  · exact iff_of_false (not_not.mpr absent) (not_not.mpr nothing)
  · refine iff_of_true (by rw [stored]; exact nofun) ?_
    intro nothing
    exact kept key (nothing ▸ stored)

end Database
end Redis
