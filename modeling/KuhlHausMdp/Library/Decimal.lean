import Mathlib.Algebra.Order.Field.Rat
import Mathlib.Data.List.DropRight
import Mathlib.Tactic.FieldSimp
import Mathlib.Tactic.Ring

/-! Decimals and their texts, as Python reads and writes them: digits with
single underscores between them, a sign, a point, an exponent. -/

set_option autoImplicit false

structure Decimal where
  digits : Nat
  exponent : ℤ
  deriving DecidableEq

namespace Decimal

def value (d : Decimal) : ℚ := d.digits * 10 ^ d.exponent

def trim : Nat → Decimal → Decimal
  | 0, d => d
  | bound + 1, d => if d.digits ≠ 0 ∧ d.digits % 10 = 0 then trim bound ⟨d.digits / 10, d.exponent + 1⟩ else d

def trimmed (d : Decimal) : Decimal := trim (Nat.toDigits 10 d.digits).length d

theorem value_trim (bound : Nat) (d : Decimal) : (trim bound d).value = d.value := by
  induction bound generalizing d with
  | zero => rfl
  | succ bound ih =>
      unfold trim
      split
      case isFalse => rfl
      case isTrue zero =>
        obtain ⟨n, tenfold⟩ := Nat.dvd_of_mod_eq_zero zero.2
        rw [ih, value, value, tenfold, Nat.mul_div_cancel_left n (by decide), zpow_add_one₀ (by decide)]
        push_cast
        ring

theorem value_trimmed (d : Decimal) : d.trimmed.value = d.value := value_trim _ d

/-! Reading. -/

def isSpace (c : Char) : Bool :=
  let n := c.toNat
  (9 ≤ n && n ≤ 13) || (28 ≤ n && n ≤ 32) || n == 0x85 || n == 0xa0 || n == 0x1680 || (0x2000 ≤ n && n ≤ 0x200a) ||
    n == 0x2028 || n == 0x2029 || n == 0x202f || n == 0x205f || n == 0x3000

def strip (text : List Char) : List Char := (text.dropWhile isSpace).rdropWhile isSpace

def signed : List Char → Bool × List Char
  | '-' :: rest => (true, rest)
  | '+' :: rest => (false, rest)
  | text => (false, text)

def digitPart (text : List Char) : Option (List Char) :=
  let groups := text.splitOn '_'
  if groups.all fun group => group ≠ [] && group.all Char.isDigit then some groups.flatten else none

def readSigned (text : List Char) : Option ℤ :=
  (digitPart (signed text).2).map fun digits =>
    let n : ℤ := Nat.ofDigitChars 10 digits 0
    if (signed text).1 then -n else n

/-- `int`, on ASCII digits. -/
def readInt (text : List Char) : Option ℤ := readSigned (strip text)

/-- Before and after the point, where there is one; not both may be missing. -/
def readMantissa (text : List Char) : Option (List Char × List Char) :=
  let whole := text.takeWhile (· ≠ '.')
  match text.dropWhile (· ≠ '.') with
  | [] | [_] => (digitPart whole).map fun digits => (digits, [])
  | _ :: fraction =>
      if whole = [] then (digitPart fraction).map fun digits => ([], digits)
      else do
        let before ← digitPart whole
        let after ← digitPart fraction
        return (before, after)

def isExponentMark (c : Char) : Bool := c == 'e' || c == 'E'

def readExponent : List Char → Option ℤ
  | [] => some 0
  | _ :: rest => readSigned rest

def read (text : List Char) : Option (Bool × Decimal) := do
  let (negative, unsigned) := signed (strip text)
  let (before, after) ← readMantissa (unsigned.takeWhile fun c => !isExponentMark c)
  let scale ← readExponent (unsigned.dropWhile fun c => !isExponentMark c)
  return (negative, ⟨Nat.ofDigitChars 10 (before ++ after) 0, scale - after.length⟩)

/-! Writing. -/

def sign (negative : Bool) : List Char := if negative then ['-'] else []

/-- At least two digits. -/
def writeExponent (e : ℤ) : List Char :=
  let digits := Nat.toDigits 10 e.natAbs
  'e' :: (if e < 0 then '-' else '+') :: (if digits.length < 2 then '0' :: digits else digits)

def point (d : Decimal) : ℤ := (Nat.toDigits 10 d.digits).length + d.exponent

/-- With an exponent where the first digit's is below -4 or above 15. -/
def writeUnsigned (d : Decimal) : List Char :=
  let digits := Nat.toDigits 10 d.digits
  if d.point ≤ -4 ∨ 16 < d.point then
    match digits with
    | [] => []
    | [first] => first :: writeExponent (d.point - 1)
    | first :: rest => first :: '.' :: rest ++ writeExponent (d.point - 1)
  else if d.point ≤ 0 then '0' :: '.' :: List.replicate (-d.point).toNat '0' ++ digits
  else if digits.length ≤ d.point then digits ++ List.replicate (d.point - digits.length).toNat '0' ++ ['.', '0']
  else digits.take d.point.toNat ++ '.' :: digits.drop d.point.toNat

def write (negative : Bool) (d : Decimal) : List Char := sign negative ++ d.writeUnsigned

def writeInt (n : ℤ) : List Char := sign (n < 0) ++ Nat.toDigits 10 n.natAbs

/-! Digits. -/

def AllDigits (text : List Char) : Prop := ∀ c ∈ text, c.isDigit = true

theorem allDigits_toDigits (n : Nat) : AllDigits (Nat.toDigits 10 n) :=
  fun _ member => Nat.isDigit_of_mem_toDigits (by decide) (by decide) member

theorem allDigits_replicate (n : Nat) : AllDigits (List.replicate n '0') := by
  intro c member
  rw [List.eq_of_mem_replicate member]
  decide

theorem AllDigits.append {first second : List Char} (left : AllDigits first) (right : AllDigits second) :
    AllDigits (first ++ second) :=
  List.forall_mem_append.mpr ⟨left, right⟩

theorem AllDigits.notMem {text : List Char} (digits : AllDigits text) {c : Char} (other : c.isDigit = false) : c ∉ text :=
  fun member => nomatch other.symm.trans (digits c member)

def isNumeral (c : Char) : Bool := c.isDigit || c == '-' || c == '+' || c == '.' || c == 'e'

theorem isSpace_of_isNumeral {c : Char} (numeral : isNumeral c = true) : isSpace c = false := by
  simp only [isNumeral, Bool.or_eq_true, beq_iff_eq] at numeral
  rcases numeral with (((digit | rfl) | rfl) | rfl) | rfl
  · have range : 48 ≤ c.toNat ∧ c.toNat ≤ 57 := by
      simpa [Char.isDigit, UInt32.le_iff_toNat_le] using digit
    simp only [isSpace, Bool.or_eq_false_iff, Bool.and_eq_false_iff, decide_eq_false_iff_not, beq_eq_false_iff_ne]
    omega
  all_goals decide

theorem strip_of_numeral {text : List Char} (numeral : ∀ c ∈ text, isNumeral c = true) : strip text = text := by
  have plain : ∀ c ∈ text, ¬isSpace c = true := fun c member space =>
    nomatch (isSpace_of_isNumeral (numeral c member)).symm.trans space
  have front : text.dropWhile isSpace = text :=
    List.dropWhile_eq_self_iff.mpr fun nonempty => plain _ (List.getElem_mem nonempty)
  rw [strip, front]
  exact List.rdropWhile_eq_self_iff.mpr fun nonempty => plain _ (List.getLast_mem nonempty)

theorem digitPart_of_allDigits {text : List Char} (digits : AllDigits text) (nonempty : text ≠ []) :
    digitPart text = some text := by
  have ungrouped : '_' ∉ text := digits.notMem (by decide)
  have one : text.all Char.isDigit = true := List.all_eq_true.mpr digits
  simp only [digitPart, List.splitOn_eq_singleton ungrouped]
  simp [nonempty, one]

theorem numeral_of_allDigits {text : List Char} (digits : AllDigits text) : ∀ c ∈ text, isNumeral c = true := by
  intro c member
  simp [isNumeral, digits c member]

theorem numeral_sign (negative : Bool) : ∀ c ∈ sign negative, isNumeral c = true := by
  cases negative <;> simp [sign, isNumeral]

theorem signed_sign {negative : Bool} {c : Char} {rest : List Char} (digit : c.isDigit = true) :
    signed (sign negative ++ c :: rest) = (negative, c :: rest) := by
  cases negative with
  | true => rfl
  | false =>
      simp only [sign, Bool.false_eq_true, if_false, List.nil_append]
      unfold signed
      split
      · rename_i same
        obtain ⟨rfl, -⟩ := List.cons.inj same
        cases digit
      · rename_i same
        obtain ⟨rfl, -⟩ := List.cons.inj same
        cases digit
      · rfl

/-! What is written is read back. -/

theorem readSigned_sign {negative : Bool} {text : List Char} (digits : AllDigits text) (nonempty : text ≠ []) :
    readSigned (sign negative ++ text) =
      some (if negative then -(Nat.ofDigitChars 10 text 0 : ℤ) else Nat.ofDigitChars 10 text 0) := by
  cases text with
  | nil => exact absurd rfl nonempty
  | cons c rest =>
      rw [readSigned, signed_sign (digits c List.mem_cons_self), digitPart_of_allDigits digits nonempty]
      rfl

theorem natAbs_signed (n : ℤ) : (if decide (n < 0) then -(n.natAbs : ℤ) else n.natAbs) = n := by
  by_cases negative : n < 0
  · rw [if_pos (decide_eq_true negative)]
    omega
  · rw [if_neg (by simpa using negative)]
    omega

theorem readInt_writeInt (n : ℤ) : readInt (writeInt n) = some n := by
  have numeral : ∀ c ∈ writeInt n, isNumeral c = true :=
    List.forall_mem_append.mpr ⟨numeral_sign _, numeral_of_allDigits (allDigits_toDigits _)⟩
  rw [readInt, strip_of_numeral numeral, writeInt, readSigned_sign (allDigits_toDigits _) Nat.toDigits_ne_nil,
    Nat.ofDigitChars_ten_toDigits, natAbs_signed]

theorem writeExponent_eq (e : ℤ) : ∃ digits, writeExponent e = 'e' :: (if e < 0 then '-' else '+') :: digits ∧
    AllDigits digits ∧ digits ≠ [] ∧ Nat.ofDigitChars 10 digits 0 = e.natAbs := by
  refine ⟨_, rfl, ?_, ?_, ?_⟩
  · split
    · exact List.forall_mem_cons.mpr ⟨by decide, allDigits_toDigits _⟩
    · exact allDigits_toDigits _
  · split
    · exact List.cons_ne_nil _ _
    · exact Nat.toDigits_ne_nil
  · split
    · simp [Nat.ofDigitChars_cons]
    · exact Nat.ofDigitChars_ten_toDigits

theorem readExponent_writeExponent (e : ℤ) : readExponent (writeExponent e) = some e := by
  obtain ⟨digits, text, all, nonempty, value⟩ := writeExponent_eq e
  rw [text, readExponent, readSigned]
  by_cases negative : e < 0
  · simp only [negative, if_true, signed, digitPart_of_allDigits all nonempty, Option.map_some, value]
    congr 1
    omega
  · simp only [negative, if_false, signed, digitPart_of_allDigits all nonempty, Option.map_some, value]
    congr 1
    simp only [Bool.false_eq_true, if_false]
    omega

theorem numeral_writeExponent (e : ℤ) : ∀ c ∈ writeExponent e, isNumeral c = true := by
  obtain ⟨digits, text, all, -, -⟩ := writeExponent_eq e
  rw [text]
  refine List.forall_mem_cons.mpr ⟨by decide, List.forall_mem_cons.mpr ⟨?_, numeral_of_allDigits all⟩⟩
  split <;> decide

def writeScale : Option ℤ → List Char
  | none => []
  | some e => writeExponent e

theorem cut_writeScale {text : List Char} (plain : ∀ c ∈ text, isExponentMark c = false) (scale : Option ℤ) :
    (text ++ writeScale scale).takeWhile (fun c => !isExponentMark c) = text ∧
      (text ++ writeScale scale).dropWhile (fun c => !isExponentMark c) = writeScale scale := by
  have all : ∀ c ∈ text, (!isExponentMark c) = true := fun c member => by rw [plain c member]; rfl
  rw [List.takeWhile_append_of_pos all, List.dropWhile_append_of_pos all]
  cases scale with
  | none => simp [writeScale]
  | some e => simp [writeScale, writeExponent, isExponentMark]

theorem readExponent_writeScale (scale : Option ℤ) : readExponent (writeScale scale) = some (scale.getD 0) := by
  cases scale with
  | none => rfl
  | some e => exact readExponent_writeExponent e

theorem isExponentMark_of_isDigit {c : Char} (digit : c.isDigit = true) : isExponentMark c = false := by
  simp only [isExponentMark, Bool.or_eq_false_iff, beq_eq_false_iff_ne]
  constructor
  · rintro rfl
    cases digit
  · rintro rfl
    cases digit

theorem readMantissa_point {before after : List Char} (front : AllDigits before) (back : AllDigits after)
    (some : before ≠ []) (more : after ≠ []) : readMantissa (before ++ '.' :: after) = .some (before, after) := by
  have pointless : ∀ c ∈ before, decide (c ≠ '.') = true := by
    intro c member
    apply decide_eq_true
    rintro rfl
    cases front '.' member
  have whole : (before ++ '.' :: after).takeWhile (· ≠ '.') = before := by
    rw [List.takeWhile_append_of_pos pointless]
    simp
  have rest : (before ++ '.' :: after).dropWhile (· ≠ '.') = '.' :: after := by
    rw [List.dropWhile_append_of_pos pointless]
    simp
  unfold readMantissa
  rw [whole, rest]
  cases after with
  | nil => exact absurd rfl more
  | cons c after =>
      simp only [if_neg some, digitPart_of_allDigits front some, digitPart_of_allDigits back more]
      rfl

theorem read_point (negative : Bool) {before after : List Char} (scale : Option ℤ) (front : AllDigits before)
    (back : AllDigits after) (some : before ≠ []) (more : after ≠ []) :
    read (sign negative ++ (before ++ '.' :: after ++ writeScale scale)) =
      .some (negative, ⟨Nat.ofDigitChars 10 (before ++ after) 0, scale.getD 0 - after.length⟩) := by
  have numeral : ∀ c ∈ sign negative ++ (before ++ '.' :: after ++ writeScale scale), isNumeral c = true := by
    refine List.forall_mem_append.mpr ⟨numeral_sign _, List.forall_mem_append.mpr ⟨List.forall_mem_append.mpr
      ⟨numeral_of_allDigits front, List.forall_mem_cons.mpr ⟨by decide, numeral_of_allDigits back⟩⟩, ?_⟩⟩
    cases scale with
    | none => exact fun _ member => nomatch member
    | some e => exact numeral_writeExponent e
  have plain : ∀ c ∈ before ++ '.' :: after, isExponentMark c = false :=
    List.forall_mem_append.mpr ⟨fun c member => isExponentMark_of_isDigit (front c member),
      List.forall_mem_cons.mpr ⟨by decide, fun c member => isExponentMark_of_isDigit (back c member)⟩⟩
  obtain ⟨mantissa, exponent⟩ := cut_writeScale plain scale
  have cut : signed (sign negative ++ (before ++ '.' :: after ++ writeScale scale)) =
      (negative, before ++ '.' :: after ++ writeScale scale) := by
    cases before with
    | nil => exact absurd rfl some
    | cons c rest => exact signed_sign (front c List.mem_cons_self)
  simp only [read, strip_of_numeral numeral, cut, mantissa, exponent, readMantissa_point front back some more,
    readExponent_writeScale, Option.bind_eq_bind, Option.bind_some, Option.pure_def]

/-- More than one digit, or no exponent. -/
def Dotted (d : Decimal) : Prop := 10 ≤ d.digits ∨ (-4 ≤ d.exponent ∧ d.exponent < 16)

instance (d : Decimal) : Decidable d.Dotted := inferInstanceAs (Decidable (10 ≤ d.digits ∨ (-4 ≤ d.exponent ∧ d.exponent < 16)))

theorem ofDigitChars_zeros (n : Nat) (text : List Char) :
    Nat.ofDigitChars 10 (List.replicate n '0' ++ text) 0 = Nat.ofDigitChars 10 text 0 := by
  rw [Nat.ofDigitChars_append, Nat.ofDigitChars_replicate_zero, Nat.mul_zero]

/-- The text has a point between digits that have the value of the decimal. -/
def Pointed (d : Decimal) (text : List Char) : Prop :=
  ∃ before after scale, AllDigits before ∧ AllDigits after ∧ before ≠ [] ∧ after ≠ [] ∧
    text = before ++ '.' :: after ++ writeScale scale ∧
    value ⟨Nat.ofDigitChars 10 (before ++ after) 0, scale.getD 0 - after.length⟩ = d.value

section Shapes

variable {d : Decimal} {text : List Char}

theorem pointed_exponential {first second : Char} {rest : List Char} (all : AllDigits (first :: second :: rest))
    (digits : Nat.ofDigitChars 10 (first :: second :: rest) 0 = d.digits)
    (place : d.point = (first :: second :: rest).length + d.exponent) :
    Pointed d (first :: '.' :: second :: rest ++ writeExponent (d.point - 1)) := by
  refine ⟨[first], second :: rest, some (d.point - 1), ?_, ?_, nofun, nofun, rfl, ?_⟩
  · intro c member
    rw [List.mem_singleton.mp member]
    exact all first List.mem_cons_self
  · exact fun c member => all c (List.mem_cons_of_mem _ member)
  · simp only [List.length_cons] at place
    simp only [List.singleton_append, digits, Option.getD_some, List.length_cons, value, place]
    congr 2
    push_cast
    ring

theorem pointed_small (all : AllDigits text) (nonempty : text ≠ []) (digits : Nat.ofDigitChars 10 text 0 = d.digits)
    (place : d.point = text.length + d.exponent) (small : d.point ≤ 0) :
    Pointed d ('0' :: '.' :: List.replicate (-d.point).toNat '0' ++ text) := by
  refine ⟨['0'], List.replicate (-d.point).toNat '0' ++ text, none, allDigits_replicate 1,
    (allDigits_replicate _).append all, nofun, ?_, ?_, ?_⟩
  · exact fun none => nonempty (List.append_eq_nil_iff.mp none).2
  · simp [writeScale]
  · have zeros := ofDigitChars_zeros ((-d.point).toNat + 1) text
    rw [List.replicate_succ, List.cons_append, digits] at zeros
    rw [List.singleton_append, zeros]
    simp only [value, Option.getD_none, List.length_append, List.length_replicate]
    congr 2
    push_cast
    omega

theorem pointed_whole (all : AllDigits text) (nonempty : text ≠ []) (digits : Nat.ofDigitChars 10 text 0 = d.digits)
    (place : d.point = text.length + d.exponent) (whole : text.length ≤ d.point) :
    Pointed d (text ++ List.replicate (d.point - text.length).toNat '0' ++ ['.', '0']) := by
  refine ⟨text ++ List.replicate (d.point - text.length).toNat '0', ['0'], none, all.append (allDigits_replicate _),
    allDigits_replicate 1, ?_, nofun, ?_, ?_⟩
  · exact fun none => nonempty (List.append_eq_nil_iff.mp none).1
  · simp [writeScale]
  · obtain ⟨zeros, count⟩ : ∃ zeros : ℕ, d.exponent = zeros := ⟨d.exponent.toNat, by omega⟩
    have same : (d.point - text.length).toNat = zeros := by omega
    -- one of the zeros stands after the point
    have read : Nat.ofDigitChars 10 (text ++ List.replicate zeros '0' ++ ['0']) 0 = 10 * (10 ^ zeros * d.digits) := by
      rw [Nat.ofDigitChars_append, Nat.ofDigitChars_append, Nat.ofDigitChars_replicate_zero, digits]
      simp [Nat.ofDigitChars_cons]
    rw [same, read]
    simp only [value, Option.getD_none, List.length_singleton, count, zpow_natCast]
    push_cast
    rw [zpow_neg_one]
    ring

theorem pointed_inside (all : AllDigits text) (digits : Nat.ofDigitChars 10 text 0 = d.digits)
    (place : d.point = text.length + d.exponent) (positive : 0 < d.point) (inside : d.point < text.length) :
    Pointed d (text.take d.point.toNat ++ '.' :: text.drop d.point.toNat) := by
  refine ⟨text.take d.point.toNat, text.drop d.point.toNat, none, ?_, ?_, ?_, ?_, ?_, ?_⟩
  · exact fun c member => all c (List.mem_of_mem_take member)
  · exact fun c member => all c (List.mem_of_mem_drop member)
  · intro none
    have empty := congrArg List.length none
    rw [List.length_take, List.length_nil] at empty
    omega
  · intro none
    have empty := congrArg List.length none
    rw [List.length_drop, List.length_nil] at empty
    omega
  · simp [writeScale]
  · rw [List.take_append_drop, digits]
    simp only [value, Option.getD_none, List.length_drop]
    congr 2
    omega

end Shapes

theorem writeUnsigned_cases (d : Decimal) :
    (¬d.Dotted ∧ ∃ first, first.isDigit = true ∧ d.writeUnsigned = first :: writeExponent (d.point - 1)) ∨
      d.Dotted ∧ Pointed d d.writeUnsigned := by
  have all := allDigits_toDigits d.digits
  have nonempty : Nat.toDigits 10 d.digits ≠ [] := Nat.toDigits_ne_nil
  have digits : Nat.ofDigitChars 10 (Nat.toDigits 10 d.digits) 0 = d.digits := Nat.ofDigitChars_ten_toDigits
  have short : (Nat.toDigits 10 d.digits).length ≤ 1 ↔ d.digits < 10 := Nat.length_toDigits_le_iff (by decide) (by decide)
  have positive : 0 < (Nat.toDigits 10 d.digits).length := Nat.length_toDigits_pos
  have place : d.point = (Nat.toDigits 10 d.digits).length + d.exponent := rfl
  -- a lone digit is its own first digit, so its exponent is one less than its point
  have dotted : ¬(d.point ≤ -4 ∨ 16 < d.point) → d.Dotted := by
    unfold Dotted
    omega
  unfold writeUnsigned
  simp only
  generalize Nat.toDigits 10 d.digits = text at *
  split_ifs with exponential small whole
  · cases text with
    | nil => exact absurd rfl nonempty
    | cons first rest =>
        cases rest with
        | nil =>
            simp only [List.length_cons, List.length_nil] at place short
            refine .inl ⟨?_, first, all first List.mem_cons_self, rfl⟩
            unfold Dotted
            omega
        | cons second rest =>
            have more : d.Dotted := by
              simp only [List.length_cons] at short
              exact .inl (by omega)
            exact .inr ⟨more, pointed_exponential all digits place⟩
  · exact .inr ⟨dotted exponential, pointed_small all nonempty digits place small⟩
  · exact .inr ⟨dotted exponential, pointed_whole all nonempty digits place whole⟩
  · exact .inr ⟨dotted exponential, pointed_inside all digits place (by omega) (by omega)⟩

theorem mem_point_iff (d : Decimal) : '.' ∈ d.writeUnsigned ↔ d.Dotted := by
  rcases writeUnsigned_cases d with ⟨undotted, first, digit, text⟩ | ⟨dotted, before, after, scale, -, -, -, -, text, -⟩
  · rw [text]
    obtain ⟨digits, exponent, all, -, -⟩ := writeExponent_eq (d.point - 1)
    have apart : first ≠ '.' := by
      rintro rfl
      cases digit
    have pointless : '.' ∉ digits := all.notMem (by decide)
    constructor
    · intro member
      rw [exponent] at member
      rcases List.mem_cons.mp member with same | member
      · exact absurd same.symm apart
      rcases List.mem_cons.mp member with same | member
      · cases same
      rcases List.mem_cons.mp member with same | member
      · split at same <;> cases same
      · exact absurd member pointless
    · exact fun dotted => absurd dotted undotted
  · rw [text]
    simp [dotted]

theorem read_write (negative : Bool) {d : Decimal} (dotted : d.Dotted) :
    ∃ other : Decimal, read (write negative d) = some (negative, other) ∧ other.value = d.value := by
  rcases writeUnsigned_cases d with ⟨undotted, -⟩ | ⟨-, before, after, scale, front, back, some, more, text, same⟩
  · exact absurd dotted undotted
  · rw [write, text]
    exact ⟨_, read_point negative scale front back some more, same⟩

theorem readInt_write (negative : Bool) {d : Decimal} (undotted : ¬d.Dotted) : readInt (write negative d) = none := by
  rcases writeUnsigned_cases d with ⟨-, first, digit, text⟩ | ⟨dotted, -⟩
  · obtain ⟨digits, exponent, all, -, -⟩ := writeExponent_eq (d.point - 1)
    have numeral : ∀ c ∈ write negative d, isNumeral c = true := by
      rw [write, text]
      refine List.forall_mem_append.mpr ⟨numeral_sign _, List.forall_mem_cons.mpr ⟨?_, numeral_writeExponent _⟩⟩
      simp [isNumeral, digit]
    have ungrouped : '_' ∉ first :: writeExponent (d.point - 1) := by
      intro member
      have known : isNumeral '_' = true := numeral '_' (by rw [write, text]; exact List.mem_append_right _ member)
      cases known
    -- one group, and the mark of the exponent in it is no digit
    rw [readInt, strip_of_numeral numeral, write, text, readSigned, signed_sign digit]
    simp only [digitPart, List.splitOn_eq_singleton ungrouped]
    rw [exponent]
    simp
  · exact absurd dotted undotted

end Decimal
