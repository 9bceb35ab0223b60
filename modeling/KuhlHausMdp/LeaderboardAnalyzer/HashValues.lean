import KuhlHausMdp.Library.Binary64
import KuhlHausMdp.LeaderboardAnalyzer.Publish

/-! The numbers of a hash, written by the Redis client with `repr` and read by
`_convert_value`. -/

set_option autoImplicit false

namespace KuhlHausMdp.LeaderboardAnalyzer

inductive Number where
  | int (n : ℤ)
  | float (v : Binary64)

namespace Number

def value : Number → ℚ
  | int n => n
  | float v => v.value

def repr : Number → String
  | int n => String.ofList (Decimal.writeInt n)
  | float v => String.ofList v.write

/-- An integer, or a float whose shortest decimal has more than one digit, or an
exponent from -4 to 15. -/
def Plain : Number → Prop
  | int _ => True
  | float v => v.decimal.Dotted

end Number

def pythonFloat (text : String) : Option ℚ := Binary64.readFloat text.toList

def pythonInt (text : String) : Option ℚ := (Decimal.readInt text.toList).map fun n : ℤ => (n : ℚ)

inductive Field where
  | text (s : String)
  | number (n : Number)

def Field.encode : Field → String
  | text s => s
  | number n => n.repr

structure Mapping where
  fields : Dict String Field
  complete : fields.keys = mappingKeys

namespace Mapping

def update (mapping : Mapping) (symbol : String) (score : Board → ℚ) : Update where
  symbol := symbol
  score := score
  mapping := mapping.fields.mapValues Field.encode
  complete := by rw [Dict.keys_mapValues, mapping.complete]

def Plain (mapping : Mapping) : Prop := ∀ key number, mapping.fields.get key = some (.number number) → number.Plain

end Mapping

def HasNumbers (mapping : Mapping) (entry : Dict String Value) : Prop :=
  ∀ key number, mapping.fields.get key = some (.number number) → entry.get key = some (.num number.value)

/-! One value. -/

theorem point_notMem_sign (negative : Bool) : '.' ∉ Decimal.sign negative := by
  cases negative <;> decide

theorem point_mem_write (v : Binary64) : '.' ∈ v.write ↔ v.decimal.Dotted := by
  rw [Binary64.write, Decimal.write, List.mem_append, Decimal.mem_point_iff]
  exact or_iff_right (point_notMem_sign _)

theorem point_notMem_writeInt (n : ℤ) : '.' ∉ Decimal.writeInt n := by
  rw [Decimal.writeInt, List.mem_append, not_or]
  exact ⟨point_notMem_sign _, (Decimal.allDigits_toDigits _).notMem (by decide)⟩

theorem convertValue_plain {number : Number} (plain : number.Plain) :
    convertValue pythonFloat pythonInt number.repr = .num number.value := by
  cases number with
  | int n =>
      simp only [convertValue, Number.repr, String.toList_ofList, if_neg (point_notMem_writeInt n), pythonInt,
        Decimal.readInt_writeInt, Option.map_some, Number.value]
  | float v =>
      simp only [convertValue, Number.repr, String.toList_ofList, if_pos ((point_mem_write v).mpr plain), pythonFloat,
        Binary64.readFloat_write plain, Number.value]

theorem convertValue_not_plain {number : Number} (lone : ¬number.Plain) :
    convertValue pythonFloat pythonInt number.repr = .str number.repr := by
  cases number with
  | int n => exact absurd trivial lone
  | float v =>
      have pointless : '.' ∉ v.write := mt (point_mem_write v).mp lone
      have noInt : Decimal.readInt v.write = none := Decimal.readInt_write v.negative lone
      simp only [convertValue, Number.repr, String.toList_ofList, if_neg pointless, pythonInt, noInt, Option.map_none]

theorem convertValue_iff (number : Number) :
    convertValue pythonFloat pythonInt number.repr = .num number.value ↔ number.Plain := by
  constructor
  · intro same
    by_contra lone
    rw [convertValue_not_plain lone] at same
    cases same
  · exact convertValue_plain

/-! The mapping. -/

theorem mem_rankedFrom_iff {float int : String → Option ℚ} {data : String → Dict String String} {scoreField : String}
    {i : Nat} {list : List (ℚ ×ₗ String)} {found : Dict String Value} :
    found ∈ rankedFrom float int data scoreField i list ↔
      ∃ j symbolScore, list[j]? = some symbolScore ∧ (data (ofLex symbolScore).2).keys ≠ [] ∧
        found = entry float int (i + j + 1) (ofLex symbolScore).2 (ofLex symbolScore).1 scoreField
          (data (ofLex symbolScore).2) := by
  induction list generalizing i with
  | nil => simp [rankedFrom]
  | cons symbolScore rest ih =>
      -- the entries of the tail, placed in the whole list
      have later : found ∈ rankedFrom float int data scoreField (i + 1) rest ↔
          ∃ j other, (symbolScore :: rest)[j + 1]? = some other ∧ (data (ofLex other).2).keys ≠ [] ∧
            found = entry float int (i + (j + 1) + 1) (ofLex other).2 (ofLex other).1 scoreField (data (ofLex other).2) := by
        rw [ih]
        simp only [List.getElem?_cons_succ, Nat.add_right_comm i 1, Nat.add_assoc i]
      rw [rankedFrom]
      split
      case isTrue empty =>
        rw [later]
        constructor
        · rintro ⟨j, other, here, filled, same⟩
          exact ⟨j + 1, other, here, filled, same⟩
        · rintro ⟨j, other, here, filled, same⟩
          cases j with
          | zero =>
              cases here
              exact absurd empty filled
          | succ j => exact ⟨j, other, here, filled, same⟩
      case isFalse filled =>
        rw [List.mem_cons, later]
        constructor
        · rintro (same | ⟨j, other, here, filled, same⟩)
          · exact ⟨0, symbolScore, rfl, filled, same⟩
          · exact ⟨j + 1, other, here, filled, same⟩
        · rintro ⟨j, other, here, filled, same⟩
          cases j with
          | zero =>
              cases here
              exact .inl same
          | succ j => exact .inr ⟨j, other, here, filled, same⟩

theorem get_commit {s : Boards} {mapping : Mapping} {symbol key : String} {score : Board → ℚ} {field : Field}
    (found : mapping.fields.get key = some field) :
    ((s.commit (mapping.update symbol score)).data symbol).get key = some field.encode := by
  have member : (key, field.encode) ∈ (mapping.fields.mapValues Field.encode).entries := by
    rw [← Dict.get_eq_some_iff, Dict.get_mapValues, found]
    rfl
  simp only [Boards.commit, Mapping.update, Function.update_self]
  exact Dict.get_update_of_mem _ (Dict.unique _) member

theorem hasNumbers_entry_iff {s : Boards} {mapping : Mapping} {symbol : String} {score : Board → ℚ} {rank : Nat} {x : ℚ}
    {scoreField : String} :
    HasNumbers mapping (entry pythonFloat pythonInt rank symbol x scoreField
      ((s.commit (mapping.update symbol score)).data symbol)) ↔ mapping.Plain := by
  constructor
  · intro numbers key number found
    have shown := numbers key number found
    rw [get_entry_of_get (get_commit found)] at shown
    exact (convertValue_iff number).mp (Option.some.inj shown)
  · intro plain key number found
    rw [get_entry_of_get (get_commit found)]
    exact congrArg some (convertValue_plain (plain key number found))

theorem keys_commit (s : Boards) (mapping : Mapping) (symbol : String) (score : Board → ℚ) :
    ((s.commit (mapping.update symbol score)).data symbol).keys ≠ [] := by
  have present : "symbol" ∈ mapping.fields := by
    change "symbol" ∈ mapping.fields.keys
    rw [mapping.complete]
    decide
  obtain ⟨field, found⟩ := Dict.mem_iff_get.mp present
  intro empty
  have stored : ((s.commit (mapping.update symbol score)).data symbol).get "symbol" = some field.encode := get_commit found
  exact Dict.keys_eq_nil_iff.mp empty _ (Dict.mem_iff_get.mpr ⟨_, stored⟩)

/-- A number is read back just when it is plain, and the entry of a listed
symbol has every number of its mapping just when all of them are. -/
theorem hash_roundTrip_iff (number : Number) (s : Boards) (mapping : Mapping) (symbol : String) (score : Board → ℚ)
    (before after : List (ℚ ×ₗ String)) (x : ℚ) (board : Board) :
    (convertValue pythonFloat pythonInt number.repr = .num number.value ↔ number.Plain) ∧
      ((∃ found ∈ hydrateLeaderboard pythonFloat pythonInt (s.commit (mapping.update symbol score))
          (before ++ toLex (x, symbol) :: after) board.scoreField,
        found.get "rank" = some (.num (before.length + 1 : ℕ)) ∧ HasNumbers mapping found) ↔ mapping.Plain) := by
  refine ⟨convertValue_iff number, ?_⟩
  have known := (s.commit (mapping.update symbol score)).known
  have place : (before ++ toLex (x, symbol) :: after)[before.length]? = some (toLex (x, symbol)) := by simp
  constructor
  · rintro ⟨found, member, rank, numbers⟩
    obtain ⟨j, other, here, -, rfl⟩ := mem_rankedFrom_iff.mp member
    rw [get_rank_entry (known _)] at rank
    -- the rank tells whose entry it is
    have index : j = before.length := by
      have same : (0 + j + 1 : ℕ) = before.length + 1 := by
        simpa only [Option.some.injEq, Value.num.injEq, Nat.cast_inj] using rank
      omega
    rw [index, place] at here
    cases here
    exact hasNumbers_entry_iff.mp numbers
  · intro plain
    refine ⟨_, mem_rankedFrom_iff.mpr ⟨before.length, _, place, keys_commit s mapping symbol score, rfl⟩, ?_,
      hasNumbers_entry_iff.mpr plain⟩
    rw [get_rank_entry (known _), Nat.zero_add]

def hundredThousandth : Binary64 where
  negative := false
  magnitude := 5902958103587057 * 2 ^ (-69 : ℤ)
  isMagnitude := ⟨5902958103587057, -69, by decide, by decide, by decide, rfl⟩

theorem string_hundredThousandth :
    convertValue pythonFloat pythonInt (Number.float hundredThousandth).repr = .str "1e-05" := by
  have text : (Number.float hundredThousandth).repr = "1e-05" := by decide +kernel
  have lone : ¬(Number.float hundredThousandth).Plain := by
    change ¬hundredThousandth.decimal.Dotted
    decide +kernel
  rw [convertValue_not_plain lone, text]

end KuhlHausMdp.LeaderboardAnalyzer
