import Mathlib
import KuhlHausMdp.Library.Regex

/-! Tickers named in the text of an article, as in `(Nasdaq: ATOS)`. -/

set_option autoImplicit false

namespace KuhlHausMdp.FinlightDataAnalyzer

open Regex

/-! Classes of characters. -/

def isSpace (c : Char) : Bool :=
  let n := c.toNat
  9 ≤ n && n ≤ 13 || 28 ≤ n && n ≤ 32 || n == 0x85 || n == 0xA0 || n == 0x1680 || 0x2000 ≤ n && n ≤ 0x200A ||
    n == 0x2028 || n == 0x2029 || n == 0x202F || n == 0x205F || n == 0x3000

/-- A class of ASCII characters under `re.IGNORECASE`, which adds four more that
have one of them as their other case. -/
def ignoringCase (accepts : Char → Bool) (c : Char) : Bool :=
  let either := fun lower upper => accepts lower || accepts upper
  accepts c || accepts c.toLower || accepts c.toUpper || c == 'ſ' && either 's' 'S' || c == '\u212A' && either 'k' 'K' ||
    (c == 'İ' || c == 'ı') && either 'i' 'I'

/-- `str.upper`; `uppercase` is the mapping of the characters beyond ASCII. -/
def upper (uppercase : Char → List Char) (s : String) : String :=
  String.ofList (s.toList.flatMap fun c => if c.toNat < 128 then [c.toUpper] else uppercase c)

/-! The pattern. -/

def literal (word : String) : Regex Char := concat (word.toList.map fun c => .one (ignoringCase (· == c)))

def spaces : Regex Char := .run isSpace 0 none

def isCapital (c : Char) : Bool := 'A' ≤ c && c ≤ 'Z'

def tickerRe : Regex Char :=
  concat
    [literal "(", spaces, .alt (literal "nasdaq") (.alt (literal "nyse") (literal "amex")), spaces, literal ":", spaces,
     .group (.run (ignoringCase isCapital) 1 (some 6)), spaces, literal ")"]

def addNew (seen : List String) (ticker : String) : List String := if ticker ∈ seen then seen else seen ++ [ticker]

/-- The loop over the matches; each fills one group. -/
def extractRawTickers (uppercase : Char → List Char) (text : String) : List String :=
  ((tickerRe.findall text.toList).map fun groups => groups.headD []).foldl
    (fun seen ticker => addNew seen (upper uppercase (String.ofList ticker))) []

/-! What the pattern matches. -/

theorem of_ascii {P : Char → Prop} (small : ∀ n < 128, P (Char.ofNat n)) {c : Char} (ascii : c.toNat < 128) :
    P c := by
  have here := small c.toNat ascii
  rwa [Char.ofNat_toNat] at here

theorem toLower_of_not_ascii {c : Char} (beyond : ¬c.toNat < 128) : c.toLower = c := by
  rw [Char.toLower, dif_neg]
  rintro ⟨-, most⟩
  have most : c.toNat ≤ 90 := most
  omega

theorem toUpper_of_not_ascii {c : Char} (beyond : ¬c.toNat < 128) : c.toUpper = c := by
  rw [Char.toUpper, dif_neg]
  rintro ⟨-, most⟩
  have most : c.toNat ≤ 122 := most
  omega

def signs : List Char := ['(', ':', ')']

theorem ignoringCase_sign {sign : Char} (isSign : sign ∈ signs) (c : Char) :
    ignoringCase (· == sign) c = true ↔ c = sign := by
  by_cases ascii : c.toNat < 128
  · have same := of_ascii (P := fun c => (signs.all fun sign => ignoringCase (· == sign) c == (c == sign)) = true)
      (by decide +kernel) ascii
    rw [beq_iff_eq.mp (List.all_eq_true.mp same sign isSign), beq_iff_eq]
  · simp only [signs, List.mem_cons, List.not_mem_nil, or_false] at isSign
    rcases isSign with rfl | rfl | rfl <;>
      simp [ignoringCase, toLower_of_not_ascii ascii, toUpper_of_not_ascii ascii]

theorem accepts_literal {word : String} {text : List Char} {groups : List (List Char)} :
    (literal word).Accepts text groups ↔
      List.Forall₂ (fun c expected => ignoringCase (· == expected) c = true) text word.toList ∧ groups = [] := by
  rw [literal]
  generalize word.toList = expected
  induction expected generalizing text groups with
  | nil => simp [concat]
  | cons first expected ih =>
      simp only [concat, List.map_cons, List.foldr_cons, accepts_seq, accepts_one] at ih ⊢
      constructor
      · rintro ⟨_, _, ⟨c, fits, rfl, rfl⟩, rest, more, later, rfl, rfl⟩
        obtain ⟨words, rfl⟩ := ih.mp later
        exact ⟨.cons fits words, rfl⟩
      · rintro ⟨words, rfl⟩
        cases words with
        | @cons c _ rest _ fits words =>
            exact ⟨[c], [], ⟨c, fits, rfl, rfl⟩, rest, [], ih.mpr ⟨words, rfl⟩, rfl, rfl⟩

theorem accepts_sign {sign : Char} (isSign : sign ∈ signs) {text : List Char} {groups : List (List Char)} :
    (literal (String.ofList [sign])).Accepts text groups ↔ text = [sign] ∧ groups = [] := by
  rw [accepts_literal, String.toList_ofList]
  simp [ignoringCase_sign isSign, List.forall₂_cons_right_iff]

def Named (word : List Char) : Prop :=
  ∃ name ∈ ["nasdaq", "nyse", "amex"],
    List.Forall₂ (fun c expected => ignoringCase (· == expected) c = true) word name.toList

theorem accepts_exchange (text : List Char) (groups : List (List Char)) :
    (Regex.alt (literal "nasdaq") (.alt (literal "nyse") (literal "amex"))).Accepts text groups ↔
      Named text ∧ groups = [] := by
  simp only [accepts_alt, accepts_literal, Named, List.mem_cons, List.not_mem_nil, or_false]
  constructor
  · rintro (⟨word, rfl⟩ | ⟨word, rfl⟩ | ⟨word, rfl⟩)
    · exact ⟨⟨_, .inl rfl, word⟩, rfl⟩
    · exact ⟨⟨_, .inr (.inl rfl), word⟩, rfl⟩
    · exact ⟨⟨_, .inr (.inr rfl), word⟩, rfl⟩
  · rintro ⟨⟨name, rfl | rfl | rfl, word⟩, rfl⟩
    · exact .inl ⟨word, rfl⟩
    · exact .inr (.inl ⟨word, rfl⟩)
    · exact .inr (.inr ⟨word, rfl⟩)

theorem accepts_spaces (text : List Char) (groups : List (List Char)) :
    spaces.Accepts text groups ↔ (∀ c ∈ text, isSpace c = true) ∧ groups = [] := by
  simp [spaces]

structure Tag where
  before : List Char
  exchange : List Char
  between : List Char
  after : List Char
  letters : List Char
  last : List Char

namespace Tag

def text (tag : Tag) : List Char :=
  '(' :: (tag.before ++ (tag.exchange ++ (tag.between ++ ':' :: (tag.after ++ (tag.letters ++ (tag.last ++ [')']))))))

structure Matched (tag : Tag) : Prop where
  spaced : ∀ spaces ∈ [tag.before, tag.between, tag.after, tag.last], ∀ c ∈ spaces, isSpace c = true
  named : Named tag.exchange
  lettered : ∀ c ∈ tag.letters, ignoringCase isCapital c = true
  length : 1 ≤ tag.letters.length ∧ tag.letters.length ≤ 6

theorem Matched.blank {tag : Tag} (matched : tag.Matched) :
    (∀ c ∈ tag.before, isSpace c = true) ∧ (∀ c ∈ tag.between, isSpace c = true) ∧
      (∀ c ∈ tag.after, isSpace c = true) ∧ ∀ c ∈ tag.last, isSpace c = true := by
  have spaced := matched.spaced
  simp only [List.forall_mem_cons] at spaced
  obtain ⟨before, between, after, last, -⟩ := spaced
  exact ⟨before, between, after, last⟩

end Tag

theorem accepts_tickerRe {word : List Char} {groups : List (List Char)} :
    tickerRe.Accepts word groups ↔ ∃ tag : Tag, tag.Matched ∧ word = tag.text ∧ groups = [tag.letters] := by
  have opening : ∀ text groups, (literal "(").Accepts text groups ↔ text = ['('] ∧ groups = [] :=
    fun _ _ => @accepts_sign '(' (by decide) _ _
  have colon : ∀ text groups, (literal ":").Accepts text groups ↔ text = [':'] ∧ groups = [] :=
    fun _ _ => @accepts_sign ':' (by decide) _ _
  have closing : ∀ text groups, (literal ")").Accepts text groups ↔ text = [')'] ∧ groups = [] :=
    fun _ _ => @accepts_sign ')' (by decide) _ _
  simp only [tickerRe, concat, List.foldr_cons, List.foldr_nil, accepts_seq_of_plain opening, accepts_seq_of_plain colon,
    accepts_seq_of_plain accepts_spaces, accepts_seq_of_plain accepts_exchange]
  constructor
  · rintro ⟨_, rfl, _, ⟨before, blank, _, ⟨exchange, named, _, ⟨between, blankBetween, _, ⟨_, rfl, _,
      ⟨after, blankAfter, _, tail, rfl⟩, rfl⟩, rfl⟩, rfl⟩, rfl⟩, rfl⟩
    obtain ⟨letters, _, group, _, _, rest, rfl, rfl⟩ := accepts_seq.mp tail
    rw [accepts_seq_of_plain accepts_spaces] at rest
    obtain ⟨last, blankLast, _, ending, rfl⟩ := rest
    rw [accepts_seq_of_plain closing] at ending
    obtain ⟨_, rfl, _, ending, rfl⟩ := ending
    obtain ⟨rfl, rfl⟩ := accepts_empty.mp ending
    obtain ⟨_, taken, rfl⟩ := accepts_group.mp group
    obtain ⟨lettered, some, few, rfl⟩ := accepts_run.mp taken
    exact ⟨⟨before, exchange, between, after, letters, last⟩,
      ⟨by simp only [List.forall_mem_cons]; exact ⟨blank, blankBetween, blankAfter, blankLast, by simp⟩, named, lettered,
        some, few 6 rfl⟩, rfl, rfl⟩
  · rintro ⟨tag, matched, rfl, rfl⟩
    obtain ⟨blank, blankBetween, blankAfter, blankLast⟩ := matched.blank
    refine ⟨_, rfl, _, ⟨tag.before, blank, _, ⟨tag.exchange, matched.named, _, ⟨tag.between, blankBetween, _, ⟨_, rfl, _,
      ⟨tag.after, blankAfter, _, ?_, rfl⟩, rfl⟩, rfl⟩, rfl⟩, rfl⟩, rfl⟩
    refine accepts_seq.mpr ⟨tag.letters, [tag.letters], ?_, tag.last ++ [')'], [], ?_, rfl, rfl⟩
    · have few : ∀ most, some 6 = some most → tag.letters.length ≤ most := by simpa using matched.length.2
      exact accepts_group.mpr ⟨[], accepts_run.mpr ⟨matched.lettered, matched.length.1, few, rfl⟩, rfl⟩
    · rw [accepts_seq_of_plain accepts_spaces]
      refine ⟨tag.last, blankLast, [')'], ?_, rfl⟩
      rw [accepts_seq_of_plain closing]
      exact ⟨[')'], rfl, [], .empty, rfl⟩

/-! A match holds one opening parenthesis, and its ticker is determined by where it begins. -/

def nameLetters : List Char := "nasdaqnyseamex".toList

theorem letter_of_name {name : String} (listed : name ∈ ["nasdaq", "nyse", "amex"]) {c : Char}
    (member : c ∈ name.toList) :
    c ∈ nameLetters := by
  have all : (["nasdaq", "nyse", "amex"].all fun name => name.toList.all fun c => nameLetters.contains c) = true := by
    decide +kernel
  exact List.contains_iff_mem.mp (List.all_eq_true.mp (List.all_eq_true.mp all name listed) c member)

theorem Named.char {word : List Char} (named : Named word) {c : Char} (member : c ∈ word) :
    ∃ expected ∈ nameLetters, ignoringCase (· == expected) c = true := by
  obtain ⟨name, listed, same⟩ := named
  have within : ∀ c ∈ name.toList, c ∈ nameLetters := fun c => letter_of_name listed
  generalize name.toList = expected at same within
  induction same with
  | nil => cases member
  | cons fits _ ih =>
      rw [List.forall_mem_cons] at within
      rcases List.mem_cons.mp member with rfl | later
      · exact ⟨_, within.1, fits⟩
      · exact ih later within.2

/-- No sign stands in a name, among spaces or in a ticker. -/
theorem sign_apart {sign : Char} (isSign : sign ∈ signs) : isSpace sign = false ∧ ignoringCase isCapital sign = false ∧
    ∀ expected ∈ nameLetters, ignoringCase (· == expected) sign = false := by
  have all : (signs.all fun sign => !isSpace sign && !ignoringCase isCapital sign &&
      nameLetters.all fun expected => !ignoringCase (· == expected) sign) = true := by
    decide +kernel
  have here := List.all_eq_true.mp all sign isSign
  simpa only [Bool.and_eq_true, Bool.not_eq_true', List.all_eq_true, and_assoc] using here

theorem sign_notMem_spaces {sign : Char} (isSign : sign ∈ signs) {spaces : List Char}
    (blank : ∀ c ∈ spaces, isSpace c = true) : sign ∉ spaces :=
  fun member => Bool.false_ne_true ((sign_apart isSign).1.symm.trans (blank sign member))

theorem Named.apart {word : List Char} (named : Named word) {sign : Char} (isSign : sign ∈ signs) : sign ∉ word := by
  intro member
  obtain ⟨expected, letter, fits⟩ := named.char member
  exact Bool.false_ne_true (((sign_apart isSign).2.2 expected letter).symm.trans fits)

theorem not_isSpace_of_letter {c : Char} (letter : ignoringCase isCapital c = true) : isSpace c ≠ true := by
  by_cases ascii : c.toNat < 128
  · exact of_ascii (P := fun c => ignoringCase isCapital c = true → isSpace c ≠ true) (by decide +kernel) ascii letter
  · have large : isCapital c = false := by
      simp only [isCapital, Bool.and_eq_false_iff, decide_eq_false_iff_not, Char.le_def]
      exact .inr fun most => ascii (lt_of_le_of_lt (UInt32.le_iff_toNat_le.mp most) (by decide))
    simp only [ignoringCase, toLower_of_not_ascii ascii, toUpper_of_not_ascii ascii, large, Bool.or_false, Bool.false_or,
      Bool.or_eq_true, Bool.and_eq_true, beq_iff_eq] at letter
    rcases letter with (⟨rfl, -⟩ | ⟨rfl, -⟩) | ⟨rfl | rfl, -⟩ <;> decide

theorem cut_unique {sign : Char} {first second rest left : List Char} (apart : sign ∉ first) (also : sign ∉ second)
    (same : first ++ sign :: rest = second ++ sign :: left) : first = second ∧ rest = left := by
  have before : ∀ {front back : List Char}, sign ∉ front → (front ++ sign :: back).takeWhile (· ≠ sign) = front := by
    intro front back apart
    rw [List.takeWhile_append_of_pos fun c member => by simpa using ne_of_mem_of_not_mem member apart]
    simp
  have fronts : first = second := by rw [← @before first rest apart, same, before also]
  subst fronts
  exact ⟨rfl, (List.cons.inj (List.append_cancel_left same)).2⟩

namespace Tag

variable {tag : Tag}

theorem Matched.sign_notMem_name (matched : tag.Matched) {sign : Char} (isSign : sign ∈ signs) :
    sign ∉ tag.before ++ (tag.exchange ++ tag.between) := by
  obtain ⟨before, between, -, -⟩ := matched.blank
  simp only [List.mem_append, not_or]
  exact ⟨sign_notMem_spaces isSign before, matched.named.apart isSign, sign_notMem_spaces isSign between⟩

theorem Matched.sign_notMem_ticker (matched : tag.Matched) {sign : Char} (isSign : sign ∈ signs) :
    sign ∉ tag.after ++ (tag.letters ++ tag.last) := by
  obtain ⟨-, -, after, last⟩ := matched.blank
  have noLetter : sign ∉ tag.letters :=
    fun member => Bool.false_ne_true ((sign_apart isSign).2.1.symm.trans (matched.lettered sign member))
  simp only [List.mem_append, not_or]
  exact ⟨sign_notMem_spaces isSign after, noLetter, sign_notMem_spaces isSign last⟩

theorem Matched.letters_eq (matched : tag.Matched) :
    (tag.after ++ (tag.letters ++ tag.last)).filter (fun c => !isSpace c) = tag.letters := by
  obtain ⟨-, -, after, last⟩ := matched.blank
  have blank : ∀ spaces : List Char, (∀ c ∈ spaces, isSpace c = true) → spaces.filter (fun c => !isSpace c) = [] := by
    intro spaces all
    exact List.filter_eq_nil_iff.mpr fun c member => by simp [all c member]
  have kept : tag.letters.filter (fun c => !isSpace c) = tag.letters :=
    List.filter_eq_self.mpr fun c member => by simpa using not_isSpace_of_letter (matched.lettered c member)
  rw [List.filter_append, List.filter_append, blank _ after, blank _ last, kept, List.nil_append,
    List.append_nil]

theorem text_eq (tag : Tag) :
    tag.text = '(' :: (tag.before ++ (tag.exchange ++ tag.between) ++ ':' ::
      (tag.after ++ (tag.letters ++ tag.last) ++ [')'])) := by
  simp [text]

theorem Matched.letters_unique {other : Tag} (matched : tag.Matched) (also : other.Matched) {rest left : List Char}
    (same : tag.text ++ rest = other.text ++ left) : tag.letters = other.letters := by
  rw [text_eq, text_eq] at same
  simp only [List.cons_append, List.cons.injEq, true_and, List.append_assoc (_ ++ (_ ++ _))] at same
  have colon := cut_unique (matched.sign_notMem_name (by decide)) (also.sign_notMem_name (by decide)) same
  have closing := cut_unique (matched.sign_notMem_ticker (by decide)) (also.sign_notMem_ticker (by decide)) colon.2
  rw [← matched.letters_eq, closing.1, also.letters_eq]

end Tag

theorem led_tickerRe : tickerRe.Led (· = '(') := by
  intro word groups accepted
  obtain ⟨tag, matched, rfl, -⟩ := accepts_tickerRe.mp accepted
  refine ⟨'(', _, tag.text_eq, rfl, fun c member open_ => ?_⟩
  subst open_
  rcases List.mem_append.mp member with first | second
  · exact matched.sign_notMem_name (by decide) first
  · rcases List.mem_cons.mp second with wrong | second
    · exact absurd wrong (by decide)
    · rcases List.mem_append.mp second with second | wrong
      · exact matched.sign_notMem_ticker (by decide) second
      · exact absurd wrong (by decide)

/-! The tickers of a text, position by position. -/

def matchedAt (text : List Char) (i : Nat) : Option (List Char) :=
  ((tickerRe.first (text.drop i)).map Match.groups).map fun groups => groups.headD []

theorem matchedAt_eq_some {text : List Char} {i : Nat} {letters : List Char} :
    matchedAt text i = some letters ↔ ∃ tag : Tag, tag.Matched ∧ tag.text <+: text.drop i ∧ tag.letters = letters := by
  constructor
  · intro found
    simp only [matchedAt, Option.map_eq_some_iff, exists_exists_and_eq_and] at found
    obtain ⟨m, found, rfl⟩ := found
    obtain ⟨same, accepted⟩ := first_accepts found
    obtain ⟨tag, matched, word, groups⟩ := accepts_tickerRe.mp accepted
    exact ⟨tag, matched, ⟨m.rest, word ▸ same⟩, by rw [groups]; rfl⟩
  · rintro ⟨tag, matched, ⟨rest, begins⟩, rfl⟩
    have found : (tickerRe.first (text.drop i)).isSome :=
      first_isSome_iff.mpr ⟨tag.text, rest, _, begins, accepts_tickerRe.mpr ⟨tag, matched, rfl, rfl⟩⟩
    obtain ⟨m, found⟩ := Option.isSome_iff_exists.mp found
    obtain ⟨same, accepted⟩ := first_accepts found
    obtain ⟨other, also, word, groups⟩ := accepts_tickerRe.mp accepted
    have cut : other.text ++ m.rest = tag.text ++ rest := by rw [← word, same, begins]
    have letters : other.letters = tag.letters := also.letters_unique matched cut
    simp [matchedAt, found, groups, letters]

theorem findall_tickerRe (text : List Char) :
    (tickerRe.findall text).map (fun groups => groups.headD []) =
      (List.range text.length).filterMap (matchedAt text) := by
  rw [findall_eq_everywhere led_tickerRe, everywhere, List.map_filterMap]
  rfl

/-! The order of the loop. -/

theorem mem_addNew {seen : List String} {ticker other : String} :
    other ∈ addNew seen ticker ↔ other ∈ seen ∨ other = ticker := by
  rw [addNew]
  split_ifs with there
  · exact ⟨.inl, fun either => either.elim id fun same => same ▸ there⟩
  · simp

theorem nodup_foldl_addNew {seen : List String} (unique : seen.Nodup) (tickers : List String) :
    (tickers.foldl addNew seen).Nodup := by
  induction tickers generalizing seen with
  | nil => exact unique
  | cons ticker rest ih =>
      apply ih
      rw [addNew]
      split_ifs with there
      · exact unique
      · exact List.Nodup.append unique (List.nodup_singleton _) (List.disjoint_singleton.mpr there)

/-- No ticker is given twice, whatever the text. -/
theorem nodup_extractRawTickers (uppercase : Char → List Char) (text : String) :
    (extractRawTickers uppercase text).Nodup := by
  rw [extractRawTickers, ← List.foldl_map]
  exact nodup_foldl_addNew List.nodup_nil _

section

variable (found : Nat → Option String)

def collected (n : Nat) : List String := ((List.range n).filterMap found).foldl addNew []

theorem collected_succ (n : Nat) :
    collected found (n + 1) = (found n).elim (collected found n) (addNew (collected found n)) := by
  rw [collected, List.range_succ, List.filterMap_append, List.foldl_append]
  cases here : found n <;> simp [here, collected]

theorem mem_collected {n : Nat} {ticker : String} : ticker ∈ collected found n ↔ ∃ i < n, found i = some ticker := by
  induction n with
  | zero => simp [collected]
  | succ n ih =>
      rw [collected_succ]
      cases here : found n with
      | none => simp only [Option.elim_none, ih, Nat.lt_succ_iff_lt_or_eq, or_and_right, exists_or]; simp [here]
      | some last =>
          simp only [Option.elim_some, mem_addNew, ih, Nat.lt_succ_iff_lt_or_eq, or_and_right, exists_or]
          simp [here, eq_comm]

theorem pairwise_collected (n : Nat) :
    (collected found n).Pairwise fun a b => ∃ i < n, found i = some a ∧ ∀ j, found j = some b → i < j := by
  induction n with
  | zero => exact .nil
  | succ n ih =>
      have earlier := ih.imp (S := fun a b => ∃ i < n + 1, found i = some a ∧ ∀ j, found j = some b → i < j)
        fun ⟨i, before, first⟩ => ⟨i, Nat.lt_succ_of_lt before, first⟩
      rw [collected_succ]
      cases here : found n with
      | none => exact earlier
      | some last =>
          rw [Option.elim_some, addNew]
          split_ifs with there
          · exact earlier
          · apply List.pairwise_append.mpr
            refine ⟨earlier, List.pairwise_singleton _ _, fun a member b isLast => ?_⟩
            cases List.mem_singleton.mp isLast
            obtain ⟨i, before, first⟩ := (mem_collected found).mp member
            refine ⟨i, Nat.lt_succ_of_lt before, first, fun j at_ => ?_⟩
            -- the last ticker was not found before `n`
            by_contra wrong
            exact there ((mem_collected found).mpr ⟨j, by omega, at_⟩)

end

/-! Tickers as they stand in an ASCII text. -/

namespace Tag

structure WellFormed (tag : Tag) : Prop where
  spaced : ∀ spaces ∈ [tag.before, tag.between, tag.after, tag.last], ∀ c ∈ spaces, isSpace c = true
  named : String.ofList (tag.exchange.map Char.toLower) ∈ ["nasdaq", "nyse", "amex"]
  lettered : ∀ c ∈ tag.letters, c.isAlpha = true
  length : 1 ≤ tag.letters.length ∧ tag.letters.length ≤ 6

def ticker (tag : Tag) : String := String.ofList (tag.letters.map Char.toUpper)

end Tag

def TickerAt (text : List Char) (i : Nat) (ticker : String) : Prop :=
  ∃ tag : Tag, tag.WellFormed ∧ tag.text <+: text.drop i ∧ tag.ticker = ticker

/-- Among ASCII characters only the two cases of a letter match it. -/
theorem ignoringCase_ascii {c : Char} (ascii : c.toNat < 128) {expected : Char}
    (letter : expected ∈ nameLetters) : ignoringCase (· == expected) c = true ↔ c.toLower = expected := by
  have same := of_ascii
    (P := fun c => (nameLetters.all fun expected => ignoringCase (· == expected) c == (c.toLower == expected)) = true)
    (by decide +kernel) ascii
  rw [beq_iff_eq.mp (List.all_eq_true.mp same expected letter), beq_iff_eq]

theorem isCapital_ascii {c : Char} (ascii : c.toNat < 128) : ignoringCase isCapital c = true ↔ c.isAlpha = true :=
  of_ascii (P := fun c => ignoringCase isCapital c = true ↔ c.isAlpha = true) (by decide +kernel) ascii

theorem named_ascii {word : List Char} (ascii : ∀ c ∈ word, c.toNat < 128) :
    Named word ↔ String.ofList (word.map Char.toLower) ∈ ["nasdaq", "nyse", "amex"] := by
  have same : ∀ expected : List Char, (∀ c ∈ expected, c ∈ nameLetters) →
      (List.Forall₂ (fun c expected => ignoringCase (· == expected) c = true) word expected ↔
        word.map Char.toLower = expected) := by
    intro expected letters
    induction word generalizing expected with
    | nil => cases expected <;> simp
    | cons c word ih =>
        cases expected with
        | nil => simp
        | cons first expected =>
            rw [List.forall_mem_cons] at ascii letters
            rw [List.forall₂_cons, ignoringCase_ascii ascii.1 letters.1, ih ascii.2 expected letters.2, List.map_cons,
              List.cons.injEq]
  constructor
  · rintro ⟨name, listed, fits⟩
    rw [(same name.toList fun c => letter_of_name listed).mp fits, String.ofList_toList]
    exact listed
  · intro listed
    exact ⟨_, listed, (same _ fun c => letter_of_name listed).mpr String.toList_ofList.symm⟩

theorem Tag.matched_iff_wellFormed {tag : Tag} (ascii : ∀ c ∈ tag.text, c.toNat < 128) :
    tag.Matched ↔ tag.WellFormed := by
  simp only [Tag.text, List.forall_mem_cons, List.forall_mem_append] at ascii
  obtain ⟨-, -, name, -, -, -, letters, -⟩ := ascii
  have lettered : (∀ c ∈ tag.letters, ignoringCase isCapital c = true) ↔ ∀ c ∈ tag.letters, c.isAlpha = true :=
    forall₂_congr fun c member => isCapital_ascii (letters c member)
  constructor
  · intro matched
    exact ⟨matched.spaced, (named_ascii name).mp matched.named, lettered.mp matched.lettered, matched.length⟩
  · intro formed
    exact ⟨formed.spaced, (named_ascii name).mpr formed.named, lettered.mpr formed.lettered, formed.length⟩

theorem upper_letters (uppercase : Char → List Char) {letters : List Char} (ascii : ∀ c ∈ letters, c.toNat < 128) :
    upper uppercase (String.ofList letters) = String.ofList (letters.map Char.toUpper) := by
  rw [upper, String.toList_ofList, ← List.flatMap_singleton' (letters.map Char.toUpper), List.flatMap_map]
  congr 1
  exact List.flatMap_congr fun c member => if_pos (ascii c member)

def foundAt (uppercase : Char → List Char) (text : List Char) (i : Nat) : Option String :=
  (matchedAt text i).map fun letters => upper uppercase (String.ofList letters)

theorem foundAt_eq_some (uppercase : Char → List Char) {text : List Char} (ascii : ∀ c ∈ text, c.toNat < 128) (i : Nat)
    (ticker : String) : foundAt uppercase text i = some ticker ↔ TickerAt text i ticker := by
  have inside : ∀ tag : Tag, tag.text <+: text.drop i → ∀ c ∈ tag.text, c.toNat < 128 :=
    fun tag begins c member => ascii c (List.mem_of_mem_drop (begins.subset member))
  have capitals : ∀ tag : Tag, tag.text <+: text.drop i → upper uppercase (String.ofList tag.letters) = tag.ticker := by
    intro tag begins
    exact upper_letters uppercase fun c member => inside tag begins c (by simp [Tag.text, member])
  simp only [foundAt, Option.map_eq_some_iff, matchedAt_eq_some, TickerAt]
  constructor
  · rintro ⟨_, ⟨tag, matched, begins, rfl⟩, rfl⟩
    exact ⟨tag, (Tag.matched_iff_wellFormed (inside tag begins)).mp matched, begins, (capitals tag begins).symm⟩
  · rintro ⟨tag, formed, begins, rfl⟩
    exact ⟨_, ⟨tag, (Tag.matched_iff_wellFormed (inside tag begins)).mpr formed, begins, rfl⟩, capitals tag begins⟩

theorem extractRawTickers_eq (uppercase : Char → List Char) (text : String) :
    extractRawTickers uppercase text = collected (foundAt uppercase text.toList) text.toList.length := by
  have mapped : (List.range text.toList.length).filterMap (foundAt uppercase text.toList) =
      ((List.range text.toList.length).filterMap (matchedAt text.toList)).map
        fun letters => upper uppercase (String.ofList letters) := List.map_filterMap.symm
  rw [extractRawTickers, findall_tickerRe, collected, mapped, List.foldl_map]

/-- The tickers of an ASCII text are those that stand in it, each once and in
the order in which they first stand there. -/
theorem extractRawTickers_exact (uppercase : Char → List Char) {text : String}
    (ascii : ∀ c ∈ text.toList, c.toNat < 128) :
    (extractRawTickers uppercase text).Nodup ∧
      (∀ ticker, ticker ∈ extractRawTickers uppercase text ↔ ∃ i, TickerAt text.toList i ticker) ∧
      (extractRawTickers uppercase text).Pairwise fun a b =>
        ∃ i, TickerAt text.toList i a ∧ ∀ j, TickerAt text.toList j b → i < j := by
  have here := foundAt_eq_some uppercase ascii
  rw [extractRawTickers_eq]
  have ordered : (collected (foundAt uppercase text.toList) text.toList.length).Pairwise fun a b =>
      ∃ i, TickerAt text.toList i a ∧ ∀ j, TickerAt text.toList j b → i < j := by
    refine (pairwise_collected _ _).imp ?_
    rintro a b ⟨i, -, first, before⟩
    exact ⟨i, (here i a).mp first, fun j at_ => before j ((here j b).mpr at_)⟩
  refine ⟨ordered.imp ?_, fun ticker => ?_, ordered⟩
  · rintro a _ ⟨i, first, before⟩ rfl
    exact absurd (before i first) (lt_irrefl i)
  · rw [mem_collected]
    constructor
    · rintro ⟨i, -, at_⟩
      exact ⟨i, (here i ticker).mp at_⟩
    · rintro ⟨i, at_⟩
      refine ⟨i, ?_, (here i ticker).mpr at_⟩
      -- nothing begins past the end
      by_contra past
      obtain ⟨tag, -, begins, -⟩ := at_
      rw [List.drop_eq_nil_of_le (not_lt.mp past)] at begins
      exact absurd (List.prefix_nil.mp begins) (List.cons_ne_nil _ _)

def nested : String := "((NYSE : gm) (nYse:(amex: abc)(Nasdaq:GM)"

/-- Nested, broken and adjacent parentheses. -/
theorem extractRawTickers_nested :
    extractRawTickers (fun c => [c]) nested = ["GM", "ABC"] ∧
    (extractRawTickers (fun c => [c]) nested).Pairwise fun a b =>
      ∃ i, TickerAt nested.toList i a ∧ ∀ j, TickerAt nested.toList j b → i < j := by
  have ascii : (nested.toList.all fun c => decide (c.toNat < 128)) = true := by decide +kernel
  exact ⟨by decide +kernel,
    (extractRawTickers_exact _ fun c member => of_decide_eq_true (List.all_eq_true.mp ascii c member)).2.2⟩

end KuhlHausMdp.FinlightDataAnalyzer
