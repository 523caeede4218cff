import Pseudocode.Proofs.Decimal.Writing
import Pseudocode.Proofs.Token.Rendering
import Pseudocode.Proofs.Value.Reading

/-!
# Printed numbers are read back

The text of a finite number is read as that number, as an answer and, if it has no sign and no power
of ten, as a token of a source text (`formatNumber_reads_back`). What is printed is the shortest
decimal that rounds to the number (`covers_shortest`), spelled in one of two layouts
(`exists_spelling_format`), and what spells a decimal is read as the double that the decimal rounds
to.
-/

namespace Pseudocode

/-! ## Spellings hold no white space -/

namespace Text

theorem dropBlanks_eq_self {cs : List Char} (plain : ∀ c ∈ cs, isBlank c = false) :
    dropBlanks cs = cs := by
  cases cs with
  | nil => rfl
  | cons c cs => simp [dropBlanks, plain c]

theorem trimChars_eq_self {cs : List Char} (plain : ∀ c ∈ cs, isBlank c = false) :
    trimChars cs = cs := by
  have plain' : ∀ c ∈ cs.reverse, isBlank c = false := fun c member =>
    plain c (List.mem_reverse.mp member)
  rw [trimChars, dropBlanks_eq_self plain, dropBlanks_eq_self plain', List.reverse_reverse]

end Text

namespace Decimal

/-- The characters of a decimal. -/
theorem Spelling.mem_text {s : Spelling} {c : Char} (member : c ∈ s.text) :
    isDigit c = true ∨ c ∈ ['-', '+', '.', 'e', 'E'] := by
  have sign {sign : Option Bool} (member : c ∈ signText sign) :
      c ∈ ['-', '+', '.', 'e', 'E'] := by
    rcases sign with _ | _ | _
    · cases member
    · rw [List.mem_singleton.mp member]
      decide
    · rw [List.mem_singleton.mp member]
      decide
  obtain ⟨sign', whole, fraction, power, filled⟩ := s
  simp only [text, List.mem_append] at member
  rcases member with (member | member | member) | member
  · exact .inr (sign member)
  · exact .inl (digits_of_mem_digitsText member)
  · cases fraction with
    | none => cases member
    | some ds =>
      rcases List.mem_cons.mp member with rfl | member
      · exact .inr (by decide)
      · exact .inl (digits_of_mem_digitsText member)
  · cases power with
    | none => cases member
    | some p =>
      rcases List.mem_cons.mp member with mark | member
      · right
        rw [mark]
        split <;> decide
      · rcases List.mem_append.mp member with member | member
        · exact .inr (sign member)
        · exact .inl (digits_of_mem_digitsText member)

theorem Spelling.isBlank_of_mem_text {s : Spelling} {c : Char} (member : c ∈ s.text) :
    Text.isBlank c = false := by
  have marks : ∀ c ∈ ['-', '+', '.', 'e', 'E'], Text.isBlank c = false := by
    rw [← List.forall_iff_forall_mem]
    decide
  have digits : ∀ d : Fin 10, Text.isBlank (Nat.digitChar d.val) = false := by decide
  rcases mem_text member with digit | mark
  · obtain ⟨d, rfl⟩ := exists_digitChar digit
    exact digits d
  · exact marks c mark

/-- What spells a decimal is read as the double that the decimal rounds to. -/
theorem Spelling.toFloat?_of_covers {s : Spelling} {b : Nat} (small : b < infinityBits)
    (covers : Covers b s.magnitude) : s.literal.toFloat? = some (signed s.negative b) := by
  refine nearestScaled?_eq_some_iff.mpr ⟨b, small, ?_, rfl⟩
  rwa [← magnitude_eq]

end Decimal

/-! ## Answers -/

namespace Value

open Decimal

theorem number?_text {s : Spelling} {b : Nat} (small : b < infinityBits)
    (covers : Covers b s.magnitude) :
    number? (String.ofList s.text) = some (signed s.negative b) := by
  rw [number?, Text.trim, String.toList_ofList, String.toList_ofList,
    Text.trimChars_eq_self fun c => Spelling.isBlank_of_mem_text, s.parse?_text, Option.bind_some,
    Spelling.toFloat?_of_covers small covers]

/-- The text of a double other than zero: its sign, and its shortest decimal in one of the
layouts. -/
theorem formatNumber_signed {b : Nat} (small : b < infinityBits) (filled : 0 < b)
    (negative : Bool) :
    formatNumber (signed negative b) = String.ofList
      (if negative then '-' :: numberLayout.write (dyadic b).shortest
        else numberLayout.write (dyadic b).shortest) := by
  have mantissa : (dyadic b).mantissa ≠ 0 := (mantissa_dyadic_pos_iff.mpr filled).ne'
  rw [formatNumber, Layout.format, classify_signed small]
  simp only [if_neg mantissa]

theorem formatNumber_zero (negative : Bool) : formatNumber (signed negative 0) = "0" := by
  rw [formatNumber, Layout.format, classify_signed (by decide)]
  cases negative <;> rfl

/-- A decimal is spelled in either layout. -/
theorem exists_spelling_write (l : Layout) (x : Scaled) :
    ∃ s : Spelling, s.sign = none ∧ s.text = l.write x ∧ s.magnitude = x.value := by
  rw [Layout.write]
  split
  · obtain ⟨s, sign, -, -, text, magnitude⟩ := x.exists_positional
    exact ⟨s, sign, text, magnitude⟩
  · exact x.exists_scientific _

theorem exists_spelling_format {b : Nat} (small : b < infinityBits) (filled : 0 < b)
    (negative : Bool) :
    ∃ s : Spelling, s.negative = negative ∧ s.magnitude = (dyadic b).shortest.value ∧
      formatNumber (signed negative b) = String.ofList s.text := by
  obtain ⟨s, sign, text, magnitude⟩ := exists_spelling_write numberLayout (dyadic b).shortest
  rw [formatNumber_signed small filled, ← text]
  cases negative with
  | false => exact ⟨s, by rw [Spelling.negative, sign]; rfl, magnitude, rfl⟩
  | true =>
    refine ⟨{ s with sign := some true }, rfl, magnitude, ?_⟩
    rw [Spelling.text, Spelling.text, sign]
    rfl

/-- The text of a finite number is read as that number. -/
theorem number?_formatNumber {f : Float} (finite : f.isFinite = true) :
    number? (formatNumber f) = some (if f == 0 then 0 else f) := by
  obtain ⟨negative, b, small, rfl⟩ := exists_signed finite
  rw [signed_beq_zero small]
  by_cases empty : b = 0
  · subst empty
    rw [formatNumber_zero, if_pos (decide_eq_true rfl)]
    decide +kernel
  · obtain ⟨s, sign, magnitude, text⟩ :=
      exists_spelling_format small (Nat.pos_of_ne_zero empty) negative
    have covers : Covers b s.magnitude := magnitude ▸ covers_shortest (Nat.pos_of_ne_zero empty)
    rw [text, number?_text small covers, sign, if_neg (by simpa using empty)]

/-! ## Tokens -/

/-- The bits of the double nearest to a millionth. -/
def millionthBits : Nat := 0x3eb0c6f7a0b5ed8d

/-- The bits of the double that is `10 ^ 21`. -/
def sextillionBits : Nat := 0x444b1ae4d6e2ef50

theorem magnitude_sextillion : magnitude sextillionBits = 10 ^ 21 := by
  have parts : dyadic sextillionBits = ⟨7629394531250000, 17⟩ := by decide +kernel
  rw [magnitude, parts, Dyadic.value]
  norm_num

theorem covers_millionth : Covers millionthBits (10 ^ (-6 : Int)) := by
  have bits : nearestBits 1 (10 ^ 6) = millionthBits := by decide +kernel
  have covers := (nearestBits_eq_iff (by norm_num)).mp bits
  norm_num at covers ⊢
  exact covers

/-- The double nearest to a millionth is written as a millionth. -/
theorem value_shortest_millionth : (dyadic millionthBits).shortest.value = 10 ^ (-6 : Int) := by
  have found : (dyadic millionthBits).interval.search 20 (leadingExponent
      (dyadic millionthBits).interval.value (dyadic millionthBits).interval.denominator)
        = ⟨10, -7⟩ := by decide +kernel
  rw [Dyadic.shortest, value_normalize, found, Scaled.value]
  norm_num

section

variable {b : Nat}

theorem value_shortest_lt (below : b < sextillionBits) (filled : 0 < b) :
    (dyadic b).shortest.value < 10 ^ 21 := by
  calc (dyadic b).shortest.value ≤ midpoint b := (covers_shortest filled).below.le
    _ < magnitude (b + 1) := midpoint_lt_magnitude b
    _ ≤ magnitude sextillionBits := magnitude_strictMono.monotone below
    _ = 10 ^ 21 := magnitude_sextillion

theorem le_value_shortest (above : millionthBits ≤ b) :
    10 ^ (-6 : Int) ≤ (dyadic b).shortest.value := by
  rcases above.eq_or_lt with rfl | above
  · rw [value_shortest_millionth]
  · have filled : 0 < b := by omega
    calc (10 : ℚ) ^ (-6 : Int) ≤ midpoint millionthBits := covers_millionth.below.le
      _ ≤ midpoint (b - 1) := midpoint_strictMono.monotone (by omega)
      _ ≤ (dyadic b).shortest.value := ((covers_shortest filled).above (b - 1) (by omega)).le

/-- Doubles from a millionth up to `10 ^ 21` are written without a power of ten. -/
theorem write_shortest (above : millionthBits ≤ b) (below : b < sextillionBits) :
    numberLayout.write (dyadic b).shortest = (dyadic b).shortest.positional := by
  have filled : 0 < b := lt_of_lt_of_le (by decide) above
  have low := le_value_shortest above
  have high := value_shortest_lt below filled
  generalize (dyadic b).shortest = x at low high
  have digits : x.digits ≠ 0 := by
    intro empty
    rw [Scaled.value, empty, Nat.cast_zero, zero_mul] at low
    exact absurd low (by norm_num)
  obtain ⟨reached, unreached⟩ := x.leading_spec digits
  have first : (-6 : Int) < x.leading + 1 :=
    (zpow_lt_zpow_iff_right₀ (by norm_num : (1 : ℚ) < 10)).mp (low.trans_lt unreached)
  have last : x.leading < (21 : Nat) := by
    rw [← zpow_lt_zpow_iff_right₀ (by norm_num : (1 : ℚ) < 10), zpow_natCast]
    exact reached.trans_lt high
  rw [Layout.write, if_pos]
  exact ⟨by show (-6 : Int) ≤ _; omega, by show _ < (21 : Int); omega⟩

end

end Value

namespace Scan

open Decimal

/-- Digits with a point among or behind them are one number. -/
theorem numberParts_text {s : Spelling} (sign : s.sign = none) (power : s.power = none) :
    numberParts s.text = (s.literal, s.text, []) := by
  obtain ⟨_, whole, fraction, _, filled⟩ := s
  cases sign
  cases power
  have text : Spelling.text ⟨none, whole, fraction, none, filled⟩
      = digitsText whole ++ pointText fraction := List.append_nil _
  have nothing : ∀ c, ([] : List Char).head? = some c → isDigit c = false := nofun
  rw [text]
  cases fraction with
  | none =>
    obtain ⟨taken, left⟩ := span_digitsText whole nothing
    rw [pointText, numberParts, taken, left, List.append_nil]
    rfl
  | some ds =>
    have point : ∀ c, ('.' :: digitsText ds).head? = some c → isDigit c = false := by
      rintro c ⟨⟩
      rfl
    obtain ⟨taken, left⟩ := span_digitsText whole point
    obtain ⟨taken', left'⟩ := span_digitsText ds nothing
    rw [List.append_nil] at taken' left'
    rw [pointText, numberParts, taken, left]
    simp only [taken', left']
    rfl

theorem Position.after_of_notMem {cs : List Char} (unbroken : '\n' ∉ cs) (p : Position) :
    p.after cs = ⟨p.line, p.column + cs.length⟩ := by
  induction cs generalizing p with
  | nil => rfl
  | cons c cs ih =>
    have plain : c ≠ '\n' := fun same => unbroken (same ▸ List.mem_cons_self)
    have unbroken : '\n' ∉ cs := fun member => unbroken (List.mem_cons_of_mem c member)
    show (p.next c).after cs = _
    rw [ih unbroken, Position.next, if_neg plain, List.length_cons]
    simp only [Nat.add_assoc, Nat.add_comm 1]

/-- The token of a number that is all of the text, and the end of the file. -/
def numberTokens (text : String) (x : Float) : List Token :=
  [{ kind := .number, text, number := x, line := 1, column := 1 },
    { kind := .eof, line := 1, column := 1 + text.toList.length }]

/-- Digits with a point are one token. -/
theorem tokens_text {s : Spelling} (sign : s.sign = none) (power : s.power = none)
    (filled : s.whole ≠ []) {b : Nat} (small : b < infinityBits) (covers : Covers b s.magnitude) :
    tokens (String.ofList s.text) = .ok (numberTokens (String.ofList s.text) (signed false b)) := by
  have unbroken : '\n' ∉ s.text := by
    intro member
    have blank := Spelling.isBlank_of_mem_text member
    cases blank
  have number : s.literal.toFloat? = some (signed false b) := by
    rw [Spelling.toFloat?_of_covers small covers, Spelling.negative, sign]
    rfl
  have piece : Scan.number s.text =
      { word := some { kind := .number, text := String.ofList s.text, number := signed false b }
        used := s.text, rest := [] } := by
    rw [Scan.number, numberParts_text sign power]
    simp only [number, Option.getD_some]
  obtain ⟨d, ds, whole⟩ := List.exists_cons_of_ne_nil filled
  obtain ⟨cs, text⟩ : ∃ cs, s.text = Nat.digitChar d.val :: cs := by
    rw [Spelling.text, sign, whole]
    exact ⟨_, rfl⟩
  have digit := isDigit_digitChar d
  rw [tokens, String.toList_ofList, text, tokensFrom_of_piece (not_separator (by decide) digit)
    (piece?_of_digit digit cs), ← text, piece, tokensFrom, Position.after_of_notMem unbroken,
    numberTokens, String.toList_ofList]
  rfl

end Scan

namespace Value

open Decimal

variable {b : Nat}

theorem tokens_formatNumber_zero (negative : Bool) :
    Scan.tokens (formatNumber (signed negative 0))
      = .ok (Scan.numberTokens (formatNumber (signed negative 0)) 0) := by
  let digit : Spelling := ⟨none, [0], none, none, by simp⟩
  have covers : Covers 0 digit.magnitude := by
    refine covers_zero ?_
    simpa [digit, Spelling.magnitude, Spelling.places, digitsNumber] using magnitude_lt_midpoint 0
  have text : "0" = String.ofList digit.text := by decide
  rw [formatNumber_zero, zero_eq_signed, text]
  exact Scan.tokens_text rfl rfl (by simp [digit]) (by decide) covers

theorem tokens_formatNumber_signed (above : millionthBits ≤ b) (below : b < sextillionBits) :
    Scan.tokens (formatNumber (signed false b))
      = .ok (Scan.numberTokens (formatNumber (signed false b)) (signed false b)) := by
  have filled : 0 < b := lt_of_lt_of_le (by decide) above
  have small : b < infinityBits := below.trans (by decide)
  obtain ⟨s, sign, power, whole, text, magnitude⟩ := (dyadic b).shortest.exists_positional
  have covers : Covers b s.magnitude := magnitude ▸ covers_shortest filled
  have written : formatNumber (signed false b) = String.ofList s.text := by
    rw [formatNumber_signed small filled, write_shortest above below, text]
    rfl
  rw [written]
  exact Scan.tokens_text sign power whole small covers

/-- The text of a zero, or of a number from a millionth up to `10 ^ 21`, is one token. -/
theorem tokens_formatNumber {f : Float}
    (plain : (f == 0) = true ∨ (1e-6 : Float) ≤ f ∧ f < 1e21) :
    Scan.tokens (formatNumber f)
      = .ok (Scan.numberTokens (formatNumber f) (if f == 0 then 0 else f)) := by
  rcases plain with zero | ⟨above, below⟩
  · rw [if_pos zero]
    obtain ⟨negative, rfl⟩ := exists_zero_of_beq zero
    exact tokens_formatNumber_zero negative
  · have low : (1e-6 : Float) = signed false millionthBits := by decide +kernel
    have high : (1e21 : Float) = signed false sextillionBits := by decide +kernel
    rw [low] at above
    rw [high] at below
    obtain ⟨b, reached, unreached, rfl⟩ :=
      exists_of_between (by decide) (by decide) (by decide) above below
    have filled : b ≠ 0 := (lt_of_lt_of_le (by decide : 0 < millionthBits) reached).ne'
    rw [signed_beq_zero (unreached.trans (by decide)), if_neg (by simpa using filled)]
    exact tokens_formatNumber_signed reached unreached

/-- Two finite numbers have one text if and only if they are the same or both are zeros. -/
theorem formatNumber_eq_iff {f g : Float} (finite : f.isFinite = true)
    (finite' : g.isFinite = true) :
    formatNumber f = formatNumber g ↔ f = g ∨ (f == 0) = true ∧ (g == 0) = true := by
  constructor
  · intro same
    have read := number?_formatNumber finite
    rw [same, number?_formatNumber finite', Option.some.injEq] at read
    have itself : ((0 : Float) == 0) = true := by decide +kernel
    by_cases zero : (f == 0) = true <;> by_cases zero' : (g == 0) = true
    · exact .inr ⟨zero, zero'⟩
    · rw [if_pos zero, if_neg zero'] at read
      exact absurd (read ▸ itself) zero'
    · rw [if_neg zero, if_pos zero'] at read
      exact absurd (read ▸ itself) zero
    · rw [if_neg zero, if_neg zero'] at read
      exact .inl read.symm
  · rintro (rfl | ⟨zero, zero'⟩)
    · rfl
    · obtain ⟨negative, rfl⟩ := exists_zero_of_beq zero
      obtain ⟨negative', rfl⟩ := exists_zero_of_beq zero'
      rw [formatNumber_zero, formatNumber_zero]

/-- Printed numbers are read back. The text of a finite number is, as an answer, the number itself,
and the plain zero for either zero; so two finite numbers have the same text only if they are the
same or both are zeros. The text of a zero, or of a number from a millionth up to `10 ^ 21`, is also
one token with that number, all of a source text. -/
theorem formatNumber_reads_back {f : Float} (finite : f.isFinite = true) :
    ofAnswer (formatNumber f) = .num (if f == 0 then 0 else f) ∧
    (∀ g : Float, g.isFinite = true →
      (formatNumber f = formatNumber g ↔ f = g ∨ (f == 0) = true ∧ (g == 0) = true)) ∧
    ((f == 0) = true ∨ (1e-6 : Float) ≤ f ∧ f < 1e21 → Scan.tokens (formatNumber f)
      = .ok (Scan.numberTokens (formatNumber f) (if f == 0 then 0 else f))) := by
  refine ⟨?_, ?_, ?_⟩
  · exact ofAnswer_eq_num_iff.mpr (number?_formatNumber finite)
  · intro g
    exact formatNumber_eq_iff finite
  · exact tokens_formatNumber

/-- The negative zero, a number that is written with a power of ten, and the least one that is
written without. -/
theorem formatNumber_reads_back_edges :
    ((-0.0 : Float).isFinite = true ∧ formatNumber (-0.0) = "0" ∧ ofAnswer "0" = .num 0) ∧
    ((-1.5e-7 : Float).isFinite = true ∧ formatNumber (-1.5e-7) = "-1.5e-7" ∧
      ofAnswer "-1.5e-7" = .num (-1.5e-7)) ∧
    formatNumber 1e-6 = "0.000001" ∧
      Scan.tokens "0.000001" = .ok (Scan.numberTokens "0.000001" 1e-6) := by
  have zero : formatNumber (-0.0) = "0" := by decide +kernel
  have power : formatNumber (-1.5e-7) = "-1.5e-7" := by decide +kernel
  have plain : formatNumber 1e-6 = "0.000001" := by decide +kernel
  refine ⟨⟨by decide +kernel, zero, ?_⟩, ⟨by decide +kernel, power, ?_⟩, plain, ?_⟩
  · have read := (formatNumber_reads_back (f := -0.0) (by decide +kernel)).1
    rwa [zero, if_pos (by decide +kernel)] at read
  · have read := (formatNumber_reads_back (f := -1.5e-7) (by decide +kernel)).1
    rwa [power, if_neg (by decide +kernel)] at read
  · have read := (formatNumber_reads_back (f := 1e-6) (by decide +kernel)).2.2
      (.inr ⟨by decide +kernel, by decide +kernel⟩)
    rwa [plain, if_neg (by decide +kernel)] at read

end Value

end Pseudocode
