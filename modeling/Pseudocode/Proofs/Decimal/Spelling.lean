import Mathlib.Computability.RegularExpressions
import Mathlib.Data.Nat.Digits.Defs
import Mathlib.Tactic.IntervalCases
import Pseudocode.Proofs.Decimal.Scaled

/-!
# Spellings of decimals

The texts that spell a decimal are given twice, and neither way looks at how they are read: by a
regular expression (`decimal`), and by the parts that are written, with the number that they stand
for (`Spelling`). The two agree (`mem_decimal_iff`). A text is recognised if and only if it is
spelled so, and what is read off it are the parts that were written (`parse?_text`,
`exists_spelling`).
-/

namespace Pseudocode.Decimal

open RegularExpression

/-! ## The language -/

/-- One of some characters. -/
def oneOf (cs : List Char) : RegularExpression Char :=
  cs.foldr (fun c r => char c + r) 0

/-- A text or nothing. -/
def optional (r : RegularExpression Char) : RegularExpression Char :=
  1 + r

/-- Some texts, at least one. -/
def several (r : RegularExpression Char) : RegularExpression Char :=
  r * star r

/-- The digits `0` to `9`. -/
def digit : RegularExpression Char :=
  oneOf ['0', '1', '2', '3', '4', '5', '6', '7', '8', '9']

/-- The decimals: a sign, digits with a point among them, and a power of ten. -/
def decimal : RegularExpression Char :=
  optional (oneOf ['+', '-'])
    * ((several digit * optional (char '.') * star digit) + char '.' * several digit)
    * optional (oneOf ['e', 'E'] * optional (oneOf ['+', '-']) * several digit)

/-! ## Spellings -/

/-- The characters of some digits. -/
def digitsText (ds : List (Fin 10)) : List Char :=
  ds.map fun d : Fin 10 => Nat.digitChar d.val

/-- The number that some digits stand for, the last digit being the units. -/
def digitsNumber (ds : List (Fin 10)) : Nat :=
  Nat.ofDigits 10 (ds.reverse.map Fin.val)

/-- A sign that may be written; a minus is `true`. -/
def signText : Option Bool → List Char
  | none => []
  | some negative => [if negative then '-' else '+']

/-- A power of ten that is written: its mark, its sign and its digits. -/
structure PowerSpelling where
  capital : Bool
  sign : Option Bool
  digits : List (Fin 10)
  filled : digits ≠ []

/-- A decimal that is written: its sign, the digits before the point, the digits behind the point if
there is one, and its power of ten if there is one. One digit at least is written. -/
structure Spelling where
  sign : Option Bool := none
  whole : List (Fin 10)
  fraction : Option (List (Fin 10)) := none
  power : Option PowerSpelling := none
  filled : whole ++ fraction.getD [] ≠ []

/-- The point and the digits behind it. -/
def pointText : Option (List (Fin 10)) → List Char
  | none => []
  | some ds => '.' :: digitsText ds

namespace PowerSpelling

def text (p : PowerSpelling) : List Char :=
  (if p.capital then 'E' else 'e') :: (signText p.sign ++ digitsText p.digits)

def value (p : PowerSpelling) : Int :=
  if p.sign = some true then -digitsNumber p.digits else digitsNumber p.digits

end PowerSpelling

/-- A power of ten that may be written. -/
def powerText : Option PowerSpelling → List Char
  | none => []
  | some p => p.text

namespace Spelling

/-- The characters of a decimal. -/
def text (s : Spelling) : List Char :=
  signText s.sign ++ (digitsText s.whole ++ pointText s.fraction) ++ powerText s.power

def negative (s : Spelling) : Bool :=
  s.sign = some true

/-- The places behind the point. -/
def places (s : Spelling) : List (Fin 10) :=
  s.fraction.getD []

/-- The number that a decimal stands for, without its sign. -/
def magnitude (s : Spelling) : ℚ :=
  digitsNumber (s.whole ++ s.places) * 10 ^ ((s.power.elim 0 PowerSpelling.value) - s.places.length)

end Spelling

/-! ## The language of the spellings -/

variable {cs : List Char}

theorem mem_oneOf (options : List Char) :
    cs ∈ (oneOf options).matches' ↔ ∃ c ∈ options, cs = [c] := by
  induction options with
  | nil => simp [oneOf]
  | cons option options ih =>
    show cs ∈ (char option).matches' + (oneOf options).matches' ↔ _
    rw [Language.mem_add, ih, matches'_char]
    simp only [List.mem_cons, exists_eq_or_imp]
    exact Iff.rfl

theorem mem_optional {r : RegularExpression Char} :
    cs ∈ (optional r).matches' ↔ cs = [] ∨ cs ∈ r.matches' := by
  rw [optional, matches'_add, matches'_epsilon, Language.mem_add, Language.mem_one]

theorem mem_digit : cs ∈ digit.matches' ↔ ∃ d : Fin 10, cs = [Nat.digitChar d] := by
  have forth : ∀ c ∈ ['0', '1', '2', '3', '4', '5', '6', '7', '8', '9'],
      ∃ d : Fin 10, c = Nat.digitChar d := by
    rw [← List.forall_iff_forall_mem]
    decide
  have back : ∀ d : Fin 10,
      Nat.digitChar d ∈ ['0', '1', '2', '3', '4', '5', '6', '7', '8', '9'] := by decide
  rw [digit, mem_oneOf]
  constructor
  · rintro ⟨c, member, rfl⟩
    obtain ⟨d, rfl⟩ := forth c member
    exact ⟨d, rfl⟩
  · rintro ⟨d, rfl⟩
    exact ⟨_, back d, rfl⟩

theorem mem_star_digit : cs ∈ (star digit).matches' ↔ ∃ ds, digitsText ds = cs := by
  rw [matches'_star, Language.mem_kstar]
  constructor
  · rintro ⟨parts, rfl, all⟩
    induction parts with
    | nil => exact ⟨[], rfl⟩
    | cons part parts ih =>
      obtain ⟨d, rfl⟩ := mem_digit.mp (all part List.mem_cons_self)
      obtain ⟨ds, same⟩ := ih fun part member => all part (List.mem_cons_of_mem _ member)
      exact ⟨d :: ds, congrArg (Nat.digitChar d :: ·) same⟩
  · rintro ⟨ds, rfl⟩
    refine ⟨ds.map fun d : Fin 10 => [Nat.digitChar d.val], ?_, fun part member => ?_⟩
    · rw [digitsText, ← List.flatMap_def, List.map_eq_flatMap]
    · obtain ⟨d, -, rfl⟩ := List.mem_map.mp member
      exact mem_digit.mpr ⟨d, rfl⟩

theorem mem_several_digit :
    cs ∈ (several digit).matches' ↔ ∃ ds, ds ≠ [] ∧ digitsText ds = cs := by
  rw [several, matches'_mul, Language.mem_mul]
  constructor
  · rintro ⟨first, one, others, more, rfl⟩
    obtain ⟨d, rfl⟩ := mem_digit.mp one
    obtain ⟨ds, rfl⟩ := mem_star_digit.mp more
    exact ⟨d :: ds, nofun, rfl⟩
  · rintro ⟨_ | ⟨d, ds⟩, filled, rfl⟩
    · exact absurd rfl filled
    · exact ⟨_, mem_digit.mpr ⟨d, rfl⟩, _, mem_star_digit.mpr ⟨ds, rfl⟩, rfl⟩

theorem mem_optional_sign :
    cs ∈ (optional (oneOf ['+', '-'])).matches' ↔ ∃ sign, signText sign = cs := by
  rw [mem_optional, mem_oneOf]
  constructor
  · rintro (rfl | ⟨c, member, rfl⟩)
    · exact ⟨none, rfl⟩
    · simp only [List.mem_cons, List.not_mem_nil, or_false] at member
      rcases member with rfl | rfl
      · exact ⟨some false, rfl⟩
      · exact ⟨some true, rfl⟩
  · rintro ⟨_ | _ | _, rfl⟩
    · exact .inl rfl
    · exact .inr ⟨'+', by simp, rfl⟩
    · exact .inr ⟨'-', by simp, rfl⟩

theorem mem_optional_power :
    cs ∈ (optional (oneOf ['e', 'E'] * optional (oneOf ['+', '-']) * several digit)).matches' ↔
      cs = [] ∨ ∃ p : PowerSpelling, p.text = cs := by
  rw [mem_optional, matches'_mul, matches'_mul, Language.mem_mul]
  refine or_congr_right ?_
  constructor
  · rintro ⟨front, marked, last, digits, rfl⟩
    obtain ⟨mark, marks, sign, signs, rfl⟩ := Language.mem_mul.mp marked
    obtain ⟨c, member, rfl⟩ := (mem_oneOf _).mp marks
    obtain ⟨sign, rfl⟩ := mem_optional_sign.mp signs
    obtain ⟨ds, filled, rfl⟩ := mem_several_digit.mp digits
    simp only [List.mem_cons, List.not_mem_nil, or_false] at member
    rcases member with rfl | rfl
    · exact ⟨⟨false, sign, ds, filled⟩, rfl⟩
    · exact ⟨⟨true, sign, ds, filled⟩, rfl⟩
  · rintro ⟨⟨capital, sign, ds, filled⟩, rfl⟩
    have mark : [if capital then 'E' else 'e'] ∈ (oneOf ['e', 'E']).matches' := by
      refine (mem_oneOf _).mpr ⟨_, ?_, rfl⟩
      cases capital <;> simp
    refine ⟨_, Language.append_mem_mul mark (mem_optional_sign.mpr ⟨sign, rfl⟩), _,
      mem_several_digit.mpr ⟨ds, filled, rfl⟩, rfl⟩

/-- The mantissas of the language: digits, and a point with digits on one of its sides. -/
theorem mem_mantissa :
    cs ∈ ((several digit * optional (char '.') * star digit) + char '.' * several digit).matches' ↔
      ∃ whole fraction, whole ++ fraction.getD [] ≠ [] ∧
        digitsText whole ++ pointText fraction = cs := by
  rw [matches'_add, Language.mem_add, matches'_mul, matches'_mul, matches'_mul, Language.mem_mul,
    Language.mem_mul]
  constructor
  · rintro (⟨front, start, behind, more, rfl⟩ | ⟨point, pointed, behind, more, rfl⟩)
    · obtain ⟨first, digits, point, pointed, rfl⟩ := Language.mem_mul.mp start
      obtain ⟨whole, filled, rfl⟩ := mem_several_digit.mp digits
      obtain ⟨ds, rfl⟩ := mem_star_digit.mp more
      rcases mem_optional.mp pointed with rfl | pointed
      · refine ⟨whole ++ ds, none, by simp [filled], ?_⟩
        simp [pointText, digitsText]
      · obtain rfl : point = ['.'] := pointed
        refine ⟨whole, some ds, by simp [filled], ?_⟩
        simp [pointText]
    · obtain rfl : point = ['.'] := pointed
      obtain ⟨ds, filled, rfl⟩ := mem_several_digit.mp more
      exact ⟨[], some ds, by simpa using filled, rfl⟩
  · rintro ⟨whole, fraction, filled, rfl⟩
    by_cases empty : whole = []
    · subst empty
      cases fraction with
      | none => exact absurd rfl filled
      | some ds =>
        refine .inr ⟨['.'], rfl, _, mem_several_digit.mpr ⟨ds, by simpa using filled, rfl⟩, rfl⟩
    · left
      have first := mem_several_digit.mpr ⟨whole, empty, rfl⟩
      cases fraction with
      | none =>
        refine ⟨_, Language.append_mem_mul first (mem_optional.mpr (.inl rfl)), [],
          mem_star_digit.mpr ⟨[], rfl⟩, ?_⟩
        simp [pointText]
      | some ds =>
        have point : ['.'] ∈ (optional (char '.')).matches' := mem_optional.mpr (.inr rfl)
        refine ⟨_, Language.append_mem_mul first point, _, mem_star_digit.mpr ⟨ds, rfl⟩, ?_⟩
        simp [pointText]

/-- The texts of the language are those that spell a decimal. -/
theorem mem_decimal_iff : cs ∈ decimal.matches' ↔ ∃ s : Spelling, s.text = cs := by
  rw [decimal, matches'_mul, matches'_mul, Language.mem_mul]
  constructor
  · rintro ⟨front, signed, last, powered, rfl⟩
    obtain ⟨first, signs, middle, mantissa, rfl⟩ := Language.mem_mul.mp signed
    obtain ⟨sign, rfl⟩ := mem_optional_sign.mp signs
    obtain ⟨whole, fraction, filled, rfl⟩ := mem_mantissa.mp mantissa
    rcases mem_optional_power.mp powered with rfl | ⟨p, rfl⟩
    · exact ⟨⟨sign, whole, fraction, none, filled⟩, rfl⟩
    · exact ⟨⟨sign, whole, fraction, some p, filled⟩, rfl⟩
  · rintro ⟨⟨sign, whole, fraction, power, filled⟩, rfl⟩
    have front := Language.append_mem_mul (mem_optional_sign.mpr ⟨sign, rfl⟩)
      (mem_mantissa.mpr ⟨whole, fraction, filled, rfl⟩)
    refine ⟨_, front, powerText power, mem_optional_power.mpr ?_, rfl⟩
    cases power with
    | none => exact .inl rfl
    | some p => exact .inr ⟨p, rfl⟩

/-! ## Digits -/

theorem isDigit_digitChar (d : Fin 10) : isDigit (Nat.digitChar d.val) = true := by
  revert d
  decide

theorem digits_of_mem_digitsText {ds : List (Fin 10)} {c : Char} (member : c ∈ digitsText ds) :
    isDigit c = true := by
  obtain ⟨d, -, rfl⟩ := List.mem_map.mp member
  exact isDigit_digitChar d

theorem exists_digitChar {c : Char} (digit : isDigit c = true) :
    ∃ d : Fin 10, Nat.digitChar d.val = c := by
  have bounds : 48 ≤ c.toNat ∧ c.toNat ≤ 57 := by
    simpa [isDigit, Char.le_def, UInt32.le_iff_toNat_le] using digit
  rw [← Char.ofNat_toNat c]
  generalize c.toNat = n at bounds
  obtain ⟨low, high⟩ := bounds
  refine ⟨⟨n - 48, by omega⟩, ?_⟩
  interval_cases n <;> rfl

/-- What consists of digits is the text of digits. -/
theorem exists_digitsText (all : ∀ c ∈ cs, isDigit c = true) : ∃ ds, digitsText ds = cs := by
  induction cs with
  | nil => exact ⟨[], rfl⟩
  | cons c cs ih =>
    obtain ⟨d, rfl⟩ := exists_digitChar (all c List.mem_cons_self)
    obtain ⟨ds, rfl⟩ := ih fun c member => all c (List.mem_cons_of_mem _ member)
    exact ⟨d :: ds, rfl⟩

theorem digitsValue_digitsText (ds : List (Fin 10)) :
    digitsValue (digitsText ds) = digitsNumber ds := by
  have unit (d : Fin 10) : (Nat.digitChar d.val).toNat - '0'.toNat = d.val := by
    revert d
    decide
  induction ds using List.reverseRecOn with
  | nil => rfl
  | append_singleton ds d ih =>
    have split : digitsText (ds ++ [d]) = digitsText ds ++ [Nat.digitChar d.val] := by
      simp [digitsText]
    have number : digitsNumber (ds ++ [d]) = d.val + 10 * digitsNumber ds := by
      simp [digitsNumber, Nat.ofDigits_cons]
    rw [split, number, ← ih, digitsValue, List.foldl_append, List.foldl_cons, List.foldl_nil, unit,
      Nat.add_comm]
    rfl

/-! ## Reading what is spelled -/

section

variable {rest : List Char}

/-- Digits are taken up to what is no digit. -/
theorem span_digitsText (ds : List (Fin 10))
    (stops : ∀ c, rest.head? = some c → isDigit c = false) :
    (digitsText ds ++ rest).takeWhile isDigit = digitsText ds ∧
      (digitsText ds ++ rest).dropWhile isDigit = rest := by
  have digits : ∀ c ∈ digitsText ds, isDigit c = true := fun c => digits_of_mem_digitsText
  rw [List.takeWhile_append_of_pos digits, List.dropWhile_append_of_pos digits]
  cases rest with
  | nil => simp
  | cons c rest => simp [stops c rfl]

theorem takeSign_signText (sign : Option Bool)
    (plain : ∀ c, rest.head? = some c → c ≠ '-' ∧ c ≠ '+') :
    takeSign (signText sign ++ rest) = (decide (sign = some true), rest) := by
  rcases sign with _ | _ | _
  · cases rest with
    | nil => rfl
    | cons c rest =>
      obtain ⟨noMinus, noPlus⟩ := plain c rfl
      show takeSign (c :: rest) = _
      rw [takeSign]
      · simp
      · rintro cs same
        exact noMinus (List.cons.inj same).1
      · rintro cs same
        exact noPlus (List.cons.inj same).1
  · rfl
  · rfl

end

theorem head?_digitsText {ds : List (Fin 10)} {c : Char} (head : (digitsText ds).head? = some c) :
    isDigit c = true :=
  digits_of_mem_digitsText (List.mem_of_mem_head? head)

/-- A digit is none of the other characters of a decimal. -/
theorem isDigit_marks : ∀ c ∈ ['-', '+', '.', 'e', 'E'], isDigit c = false := by
  rw [← List.forall_iff_forall_mem]
  decide

theorem ne_of_isDigit {c mark : Char} (digit : isDigit c = true)
    (member : mark ∈ ['-', '+', '.', 'e', 'E']) : c ≠ mark := by
  rintro rfl
  rw [isDigit_marks c member] at digit
  cases digit

theorem head?_powerText {power : Option PowerSpelling} {c : Char}
    (head : (powerText power).head? = some c) : c = 'e' ∨ c = 'E' := by
  cases power with
  | none => cases head
  | some p =>
    obtain ⟨capital, _, _, _⟩ := p
    cases head
    cases capital
    · exact .inl rfl
    · exact .inr rfl

theorem exponentOf?_powerText (power : Option PowerSpelling) :
    exponentOf? (powerText power) = some (power.elim 0 PowerSpelling.value) := by
  cases power with
  | none => rfl
  | some p =>
    obtain ⟨capital, sign, ds, filled⟩ := p
    have signed : takeSign (signText sign ++ digitsText ds)
        = (decide (sign = some true), digitsText ds) :=
      takeSign_signText sign fun c head =>
        ⟨ne_of_isDigit (head?_digitsText head) (by simp),
          ne_of_isDigit (head?_digitsText head) (by simp)⟩
    have nonempty : (digitsText ds).isEmpty = false := by
      cases ds with
      | nil => exact absurd rfl filled
      | cons => rfl
    have digits : (digitsText ds).all isDigit = true :=
      List.all_eq_true.mpr fun c => digits_of_mem_digitsText
    show exponentOf? (_ :: (signText sign ++ digitsText ds)) = _
    rw [exponentOf?, if_pos (by cases capital <;> simp), signed]
    simp [nonempty, digits, digitsValue_digitsText, PowerSpelling.value]

theorem isEmpty_digitsText (ds : List (Fin 10)) : (digitsText ds).isEmpty = ds.isEmpty := by
  cases ds <;> rfl

/-- A power of ten does not begin with a point. -/
theorem powerText_ne_point (power : Option PowerSpelling) (rest : List Char) :
    powerText power ≠ '.' :: rest := by
  intro same
  rcases head?_powerText (congrArg List.head? same) with mark | mark
  · exact absurd mark (by decide)
  · exact absurd mark (by decide)

theorem takeMantissa?_text {whole : List (Fin 10)} {fraction : Option (List (Fin 10))}
    (filled : whole ++ fraction.getD [] ≠ []) (power : Option PowerSpelling) :
    takeMantissa? (digitsText whole ++ pointText fraction ++ powerText power)
      = some (digitsText whole, digitsText (fraction.getD []), powerText power) := by
  have stops : ∀ c, (powerText power).head? = some c → isDigit c = false := by
    intro c head
    rcases head?_powerText head with rfl | rfl
    · rfl
    · rfl
  cases fraction with
  | none =>
    obtain ⟨taken, left⟩ := span_digitsText whole stops
    have nonempty : whole ≠ [] := by simpa using filled
    rw [pointText, List.append_nil, takeMantissa?, taken, left]
    split
    · rename_i rest same
      exact absurd same (powerText_ne_point power rest)
    · simp [nonempty, digitsText]
  | some ds =>
    have point : ∀ c, ('.' :: (digitsText ds ++ powerText power)).head? = some c →
        isDigit c = false := by
      rintro c ⟨⟩
      rfl
    obtain ⟨taken, left⟩ := span_digitsText whole point
    obtain ⟨taken', left'⟩ := span_digitsText ds stops
    have nonempty : ((digitsText whole).isEmpty && (digitsText ds).isEmpty) = false := by
      rw [isEmpty_digitsText, isEmpty_digitsText]
      simpa using filled
    rw [pointText, List.append_assoc, List.cons_append, takeMantissa?, taken, left]
    simp [taken', left', nonempty]

namespace Spelling

/-- The parts of a decimal as they are read. -/
def literal (s : Spelling) : Literal where
  negative := s.negative
  whole := digitsText s.whole
  fraction := digitsText s.places
  exponent := s.power.elim 0 PowerSpelling.value

/-- What is spelled is read. -/
theorem parse?_text (s : Spelling) : Literal.parse? s.text = some s.literal := by
  obtain ⟨sign, whole, fraction, power, filled⟩ := s
  have plain : ∀ c, (digitsText whole ++ pointText fraction ++ powerText power).head? = some c →
      c ≠ '-' ∧ c ≠ '+' := by
    intro c head
    by_cases empty : whole = []
    · subst empty
      cases fraction with
      | none => exact absurd rfl filled
      | some ds =>
        cases head
        decide
    · obtain ⟨d, ds, rfl⟩ := List.exists_cons_of_ne_nil empty
      cases head
      exact ⟨ne_of_isDigit (isDigit_digitChar d) (by simp),
        ne_of_isDigit (isDigit_digitChar d) (by simp)⟩
  show Literal.parse? (signText sign ++ (digitsText whole ++ pointText fraction) ++ powerText power)
    = _
  rw [List.append_assoc, Literal.parse?, takeSign_signText sign plain]
  simp only [takeMantissa?_text filled, exponentOf?_powerText, Option.bind_eq_bind,
    Option.bind_some]
  rfl

theorem magnitude_eq (s : Spelling) : s.magnitude = s.literal.digits * 10 ^ s.literal.shift := by
  have digits : s.literal.digits = digitsNumber (s.whole ++ s.places) := by
    rw [Literal.digits, ← digitsValue_digitsText]
    simp [literal, digitsText]
  rw [digits, Literal.shift, magnitude]
  simp [literal, digitsText]

end Spelling

theorem exists_signText (cs : List Char) : ∃ sign, cs = signText sign ++ (takeSign cs).2 := by
  rw [takeSign.eq_def]
  split
  · exact ⟨some true, rfl⟩
  · exact ⟨some false, rfl⟩
  · exact ⟨none, rfl⟩

theorem exists_digits_span (cs : List Char) :
    ∃ ds, digitsText ds = cs.takeWhile isDigit ∧ cs = digitsText ds ++ cs.dropWhile isDigit := by
  obtain ⟨ds, taken⟩ := exists_digitsText (List.all_eq_true.mp (List.all_takeWhile (l := cs)))
  refine ⟨ds, taken, ?_⟩
  rw [taken, List.takeWhile_append_dropWhile]

theorem exists_mantissa {whole fraction rest : List Char}
    (taken : takeMantissa? cs = some (whole, fraction, rest)) :
    ∃ ds places, ds ++ places.getD [] ≠ [] ∧ cs = digitsText ds ++ pointText places ++ rest := by
  obtain ⟨ds, first, split⟩ := exists_digits_span cs
  rw [takeMantissa?, ← first] at taken
  simp only at taken
  split at taken
  · rename_i behind pointed
    obtain ⟨ds', second, split'⟩ := exists_digits_span behind
    rw [← second, isEmpty_digitsText, isEmpty_digitsText] at taken
    split at taken
    · cases taken
    · rename_i filled
      cases taken
      refine ⟨ds, some ds', by simpa using filled, ?_⟩
      rw [pointText, List.append_assoc, List.cons_append, ← split', ← pointed]
      exact split
  · rw [isEmpty_digitsText] at taken
    split at taken
    · cases taken
    · rename_i filled
      cases taken
      refine ⟨ds, none, by simpa using filled, ?_⟩
      simpa [pointText] using split

theorem exists_powerText {e : Int} (read : exponentOf? cs = some e) :
    ∃ power, cs = powerText power := by
  cases cs with
  | nil => exact ⟨none, rfl⟩
  | cons mark cs =>
    rw [exponentOf?] at read
    split at read
    · rename_i marks
      obtain ⟨sign, split⟩ := exists_signText cs
      generalize takeSign cs = signed at read split
      simp only at read
      split at read
      · cases read
      · rename_i digits
        simp only [Bool.or_eq_true, not_or, Bool.not_eq_true, Bool.not_eq_false',
          List.all_eq_true] at digits
        obtain ⟨ds, text⟩ := exists_digitsText digits.2
        rw [← text, isEmpty_digitsText, List.isEmpty_eq_false_iff] at digits
        rw [split, ← text]
        rcases marks with rfl | rfl
        · exact ⟨some ⟨false, sign, ds, digits.1⟩, rfl⟩
        · exact ⟨some ⟨true, sign, ds, digits.1⟩, rfl⟩
    · cases read

/-- What is read was spelled. -/
theorem exists_spelling {l : Literal} (read : Literal.parse? cs = some l) :
    ∃ s : Spelling, s.text = cs := by
  obtain ⟨sign, split⟩ := exists_signText cs
  rw [Literal.parse?] at read
  generalize takeSign cs = signed at read split
  obtain ⟨⟨whole, fraction, rest⟩, mantissa, read⟩ := Option.bind_eq_some_iff.mp read
  obtain ⟨e, exponent, -⟩ := Option.bind_eq_some_iff.mp read
  obtain ⟨ds, places, filled, split'⟩ := exists_mantissa mantissa
  obtain ⟨power, rfl⟩ := exists_powerText exponent
  refine ⟨⟨sign, ds, places, power, filled⟩, ?_⟩
  rw [split, split', Spelling.text, List.append_assoc]

end Pseudocode.Decimal
