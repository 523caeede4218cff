import Pseudocode.Proofs.Token.Positions
import Pseudocode.Source

/-!
# Cutting a text in two

Where a text may be cut without changing how it is scanned. A piece is settled by the characters it
uses and the one behind it, and some characters end every piece before them (`ends`): behind a piece
the text may be exchanged for any that goes on with the same character, or with one of these
(`piece?_exchange`). So a text whose scan succeeds may be followed by another one that begins with
such a character, and the two are scanned apart (`tokensFrom_append`).

A line feed is such a character. Texts joined by one are scanned line by line, the tokens of the
second standing as many lines lower as the first has (`Source.tokens_append_feed`).
-/

namespace Pseudocode

namespace Scan

/-! ## Behind a piece -/

/-- The characters that end a number, a name and a comparison before them. -/
def ends (c : Char) : Bool :=
  !isNamePart c && c ≠ '.' && c ≠ '='

/-- The text `rest'` may take the place of `rest` behind a piece: it is empty, goes on with the same
character, or with one that ends a piece. -/
def Joins (rest rest' : List Char) : Prop :=
  ∀ d, rest'.head? = some d → rest.head? = some d ∨ ends d = true

/-- The text is empty or begins with a character that ends a piece. -/
def Fresh (rest : List Char) : Prop :=
  ∀ d, rest.head? = some d → ends d = true

theorem Joins.of_append {front back : List Char} : Joins (front ++ back) front := by
  intro d head
  cases front with
  | nil => cases head
  | cons e front => exact .inl head

theorem Fresh.joins_append {rest : List Char} (fresh : Fresh rest) (front : List Char) :
    Joins front (front ++ rest) := by
  intro d head
  cases front with
  | nil => exact .inr (fresh d head)
  | cons e front => exact .inl head

/-- A run of characters that ended before `rest` ends before `rest'` too. -/
theorem Joins.stops {p : Char → Bool} (narrow : ∀ d, ends d = true → p d = false)
    {cs rest : List Char} (joins : Joins (cs.dropWhile p) rest) :
    ∀ d, rest.head? = some d → p d = false := by
  intro d head
  rcases joins d head with same | fresh
  · have stopped := List.head?_dropWhile_not p cs
    rw [same] at stopped
    simpa using stopped
  · exact narrow d fresh

theorem takeWhile_exchange {p : Char → Bool} {rest : List Char}
    (stops : ∀ d, rest.head? = some d → p d = false) (cs : List Char) :
    (cs.takeWhile p ++ rest).takeWhile p = cs.takeWhile p ∧
      (cs.takeWhile p ++ rest).dropWhile p = rest := by
  have run := List.all_eq_true.mp (List.all_takeWhile (p := p) (l := cs))
  rw [List.takeWhile_append_of_pos run, List.dropWhile_append_of_pos run]
  cases rest with
  | nil => simp
  | cons d rest => simp [stops d rfl]

theorem not_namePart_of_ends {d : Char} (fresh : ends d = true) : isNamePart d = false := by
  simp only [ends, Bool.and_eq_true, Bool.not_eq_true'] at fresh
  exact fresh.1.1

theorem not_digit_of_ends {d : Char} (fresh : ends d = true) : Decimal.isDigit d = false := by
  have part := not_namePart_of_ends fresh
  simp only [isNamePart, Bool.or_eq_false_iff] at part
  exact part.1.2

theorem numberParts_exchange {cs rest : List Char} (joins : Joins (numberParts cs).2.2 rest) :
    numberParts ((numberParts cs).2.1 ++ rest)
      = ((numberParts cs).1, (numberParts cs).2.1, rest) := by
  have point : Decimal.isDigit '.' = false := by decide
  rw [numberParts.eq_def cs] at joins ⊢
  simp only at joins ⊢
  split at joins
  · -- the fraction goes on to the end of its digits
    rename_i fraction split
    obtain ⟨digits, behind⟩ := takeWhile_exchange (joins.stops fun d => not_digit_of_ends) fraction
    simp only [numberParts, List.append_assoc, List.cons_append,
      takeWhile_takeWhile_append point, dropWhile_takeWhile_append point, digits, behind]
  · -- there is no point, so none comes behind the digits
    rename_i noPoint
    obtain ⟨digits, behind⟩ := takeWhile_exchange (joins.stops fun d => not_digit_of_ends) cs
    have plain : ∀ tail, rest ≠ '.' :: tail := by
      rintro tail rfl
      rcases joins '.' rfl with same | fresh
      · cases left : cs.dropWhile Decimal.isDigit with
        | nil =>
          rw [left] at same
          cases same
        | cons d ds =>
          rw [left] at same
          cases same
          exact noPoint ds left
      · cases fresh
    rw [numberParts]
    simp only [digits, behind]

/-- What comes behind a string that is closed does not matter to it. -/
theorem stringBody?_exchange {quote : Char} (apart : quote ≠ '\\') {cs body used rest : List Char}
    (closed : stringBody? quote cs = some (body, used, rest)) (rest' : List Char) :
    stringBody? quote (used ++ rest') = some (body, used, rest') := by
  fun_induction stringBody? quote cs generalizing body used rest with
  | case1 => cases closed
  | case2 =>
    cases closed
    cases rest' <;> simp [stringBody?]
  | case3 => cases closed
  | case4 d cs =>
    cases closed
    cases rest' <;> simp [stringBody?]
  | case5 c d cs open' escaped ih =>
    obtain ⟨⟨body, used, rest⟩, inner, eq⟩ := Option.map_eq_some_iff.mp closed
    cases eq
    rw [List.cons_append, List.cons_append, stringBody?, if_neg open', if_pos escaped, ih inner]
    rfl
  | case6 c d cs open' plain ih =>
    obtain ⟨⟨body, used, rest⟩, inner, eq⟩ := Option.map_eq_some_iff.mp closed
    cases eq
    -- `d` is among the characters used, so it is still the one behind `c`
    obtain ⟨tail, rfl⟩ : ∃ tail, used = d :: tail := by
      obtain ⟨inside, rfl, -⟩ := exists_inside_of_stringBody? apart inner
      have text := stringBody?_append inner
      cases inside with
      | nil => exact ⟨[], by rw [← (List.cons.inj text).1]; rfl⟩
      | cons e inside => exact ⟨inside ++ [quote], by rw [← (List.cons.inj text).1]; rfl⟩
    rw [List.cons_append, List.cons_append, stringBody?, if_neg open', if_neg plain]
    rw [← List.cons_append, ih inner]
    rfl

theorem piece?_of_quote {c : Char} (quote : c = '"' ∨ c = '\'') (cs : List Char) :
    piece? c cs = string? c cs := by
  rcases quote with rfl | rfl <;> rfl

/-- A character that starts no longer piece is an operator or skipped. -/
theorem piece?_of_sign {c : Char} {cs : List Char} (feed : c ≠ '\n')
    (digit : ¬Decimal.isDigit c = true) (quote : ¬(c = '"' ∨ c = '\''))
    (letter : ¬isLetter c = true) (greater : ∀ rest, c = '>' → cs = '=' :: rest → False)
    (less : ∀ rest, c = '<' → cs = '=' :: rest → False) :
    piece? c cs = some { word := (operators.lookup c).map fun op => { kind := op.1, text := op.2 }
                         used := [c]
                         rest := cs } := by
  unfold piece?
  rw [if_neg feed, if_neg digit, if_neg quote, if_neg letter]
  split
  · exact (greater _ rfl rfl).elim
  · exact (less _ rfl rfl).elim
  · cases operators.lookup c <;> rfl

/-- A piece stays the same if what is behind it is exchanged. -/
theorem piece?_exchange {c : Char} {cs : List Char} {p : Piece} (taken : piece? c cs = some p)
    {rest : List Char} (joins : Joins p.rest rest) :
    ∃ tail, p.used = c :: tail ∧ piece? c (tail ++ rest) = some { p with rest } := by
  have whole := taken
  unfold piece? at taken
  split at taken
  · rename_i feed
    cases taken
    subst feed
    exact ⟨[], rfl, rfl⟩
  split at taken
  · rename_i digit
    cases taken
    obtain ⟨tail, head⟩ := numberParts_head digit cs
    have parts : numberParts ((numberParts (c :: cs)).2.1 ++ rest) = _ := numberParts_exchange joins
    refine ⟨tail, head, ?_⟩
    rw [piece?_of_digit digit, ← List.cons_append, ← head, number, parts]
    rfl
  split at taken
  · rename_i quote
    obtain ⟨⟨body, used, rest'⟩, closed, rfl⟩ := Option.map_eq_some_iff.mp taken
    have apart : c ≠ '\\' := by rcases quote with rfl | rfl <;> decide
    refine ⟨used, rfl, ?_⟩
    rw [piece?_of_quote quote, string?, stringBody?_exchange apart closed rest]
    rfl
  split at taken
  · rename_i letter
    cases taken
    have part : isNamePart c = true := by simp [isNamePart, letter]
    have head : (c :: cs).takeWhile isNamePart = c :: cs.takeWhile isNamePart := by
      rw [List.takeWhile_cons, if_pos part]
    obtain ⟨run, behind⟩ :=
      takeWhile_exchange (joins.stops fun d => not_namePart_of_ends) (c :: cs)
    refine ⟨cs.takeWhile isNamePart, head, ?_⟩
    rw [head, List.cons_append] at run behind
    rw [piece?_of_letter letter, name, name, run, behind, head]
  rename_i feed digit quote letter
  split at taken
  · cases taken
    exact ⟨['='], rfl, rfl⟩
  · cases taken
    exact ⟨['='], rfl, rfl⟩
  · rename_i greater less
    rw [piece?_of_sign feed digit quote letter greater less] at whole
    cases whole
    -- no `=` stood behind a sign of comparison, and none stands there now
    have apart (d : Char) (none : ∀ rest, c = d → cs = '=' :: rest → False) :
        ∀ rest', c = d → rest = '=' :: rest' → False := by
      rintro rest' sign rfl
      rcases joins '=' rfl with same | fresh
      · obtain ⟨cs', split⟩ := List.head?_eq_some_iff.mp same
        exact none cs' sign split
      · cases fresh
    exact ⟨[], rfl, piece?_of_sign feed digit quote letter (apart '>' greater) (apart '<' less)⟩

/-! ## One text behind another -/

theorem Position.after_append (p : Position) (cs ds : List Char) :
    p.after (cs ++ ds) = (p.after cs).after ds :=
  List.foldl_append

theorem Position.after_piece {c : Char} {cs : List Char} {piece : Piece}
    (taken : piece? c cs = some piece) (p : Position) :
    (p.after piece.used).after piece.rest = p.after (c :: cs) := by
  rw [← Position.after_append, piece?_append taken]

/-- The first piece of a text is the first piece of the longer text. -/
theorem tokensFrom_append_of_piece {c : Char} {cs : List Char} {piece : Piece}
    (plain : ¬isSeparator c = true) (taken : piece? c cs = some piece) {rest : List Char}
    (fresh : Fresh rest) {p : Position} {front : List Token} {behind : Except Position (List Token)}
    (more : tokensFrom (p.after piece.used) (piece.rest ++ rest) = behind.map (front ++ ·)) :
    tokensFrom p (c :: cs ++ rest)
      = behind.map ((piece.word.map fun w => w.at p).toList ++ front ++ ·) := by
  obtain ⟨tail, used, taken'⟩ := piece?_exchange taken (fresh.joins_append piece.rest)
  rw [← piece?_append taken, used, List.append_assoc, List.cons_append,
    tokensFrom_of_piece (by simpa using plain) taken', more]
  cases behind with
  | error => rfl
  | ok => simp [Except.map]

/-- A text that was scanned stays so if another one comes behind it, and that one is scanned from
where the first ends. -/
theorem tokensFrom_append {p : Position} {cs : List Char} {ts : List Token}
    (scanned : tokensFrom p cs = .ok ts) {rest : List Char} (fresh : Fresh rest) :
    ∃ front, ts = front ++ [Word.final.at (p.after cs)] ∧
      tokensFrom p (cs ++ rest) = (tokensFrom (p.after cs) rest).map (front ++ ·) := by
  fun_induction tokensFrom p cs generalizing ts with
  | case1 p =>
    cases scanned
    refine ⟨[], rfl, ?_⟩
    show tokensFrom p rest = (tokensFrom p rest).map id
    cases tokensFrom p rest <;> rfl
  | case2 p c cs separator ih =>
    obtain ⟨front, last, more⟩ := ih scanned
    refine ⟨front, last, ?_⟩
    rw [List.cons_append, tokensFrom_of_separator separator, more]
    rfl
  | case3 => cases scanned
  | case4 => cases scanned
  | case5 p c cs plain piece taken ts' scanned' w word ih =>
    cases scanned
    obtain ⟨front, rfl, more⟩ := ih scanned'
    rw [Position.after_piece taken] at more ⊢
    refine ⟨w.at p :: front, rfl, ?_⟩
    rw [tokensFrom_append_of_piece plain taken fresh more, word]
    rfl
  | case6 p c cs plain piece taken ts' scanned' word ih =>
    cases scanned
    obtain ⟨front, rfl, more⟩ := ih scanned'
    rw [Position.after_piece taken] at more ⊢
    refine ⟨front, rfl, ?_⟩
    rw [tokensFrom_append_of_piece plain taken fresh more, word]
    rfl

/-! ## Line breaks -/

/-- The place `n` lines lower. -/
def Position.lower (n : Nat) (p : Position) : Position :=
  { p with line := p.line + n }

theorem Position.next_lower (n : Nat) (p : Position) (c : Char) :
    (p.lower n).next c = (p.next c).lower n := by
  unfold next
  split
  · simp only [lower, Position.mk.injEq, and_true]
    omega
  · rfl

theorem Position.after_lower (n : Nat) (p : Position) (cs : List Char) :
    (p.lower n).after cs = (p.after cs).lower n := by
  induction cs generalizing p with
  | nil => rfl
  | cons c cs ih =>
    show ((p.lower n).next c).after cs = _
    rw [next_lower, ih]
    rfl

end Scan

/-- The token `n` lines lower. -/
def Token.lower (n : Nat) (t : Token) : Token :=
  { t with line := t.line + n }

namespace Scan

theorem at_lower (w : Word) (n : Nat) (p : Position) :
    w.at (p.lower n) = (w.at p).lower n := by
  simp [Word.at, Position.lower, Token.lower]

/-- A scan that takes no piece stops where it is. -/
theorem tokensFrom_of_none {c : Char} {cs : List Char} (plain : ¬isSeparator c = true)
    (open' : piece? c cs = none) (p : Position) : tokensFrom p (c :: cs) = .error p := by
  rw [tokensFrom, if_neg plain]
  split
  · rfl
  · rename_i taken
    rw [open'] at taken
    cases taken

/-- A text that starts lower down has the same tokens, lower down. -/
theorem tokensFrom_lower (n : Nat) (p : Position) (cs : List Char) :
    tokensFrom (p.lower n) cs
      = ((tokensFrom p cs).map (·.map (Token.lower n))).mapError (Position.lower n) := by
  fun_induction tokensFrom p cs with
  | case1 p =>
    rw [tokensFrom]
    rfl
  | case2 p c cs separator ih =>
    rw [tokensFrom_of_separator separator, Position.next_lower, ih]
  | case3 p c cs plain open' =>
    rw [tokensFrom_of_none plain open']
    rfl
  | case4 p c cs plain piece taken e failed ih =>
    rw [tokensFrom_of_piece (by simpa using plain) taken, Position.after_lower, ih, failed]
    rfl
  | case5 p c cs plain piece taken ts scanned w word ih =>
    rw [tokensFrom_of_piece (by simpa using plain) taken, Position.after_lower, ih, scanned, word,
      Option.map_some, at_lower]
    rfl
  | case6 p c cs plain piece taken ts scanned word ih =>
    rw [tokensFrom_of_piece (by simpa using plain) taken, Position.after_lower, ih, scanned, word]
    rfl

/-- A line feed is scanned as a token of its own, and the text behind it on the next line. -/
theorem tokensFrom_feed (p : Position) (cs : List Char) :
    tokensFrom p ('\n' :: cs)
      = (tokensFrom ⟨p.line + 1, 1⟩ cs).map
          (Word.at { kind := .newline, text := "\n" } p :: ·) := by
  rw [tokensFrom_of_piece (c := '\n') rfl rfl]
  rfl

/-- The text behind a line feed is scanned by itself, and stands lower by the lines before. -/
theorem tokens_behind_feed {a : String} {ts : List Token} (scanned : tokens a = .ok ts)
    (b : String) :
    ∃ front, ts = front ++ [Word.final.at (.behind a.toList)] ∧
      tokens (a ++ "\n" ++ b) = ((tokens b).map fun us =>
          front ++ Word.at { kind := .newline, text := "\n" } (.behind a.toList) ::
            us.map (Token.lower (1 + a.toList.count '\n'))).mapError
        (Position.lower (1 + a.toList.count '\n')) := by
  have fresh : Fresh ('\n' :: b.toList) := by
    intro d head
    obtain rfl : '\n' = d := Option.some.inj head
    decide
  have place : Position.after {} a.toList = .behind a.toList := Position.after_behind [] a.toList
  have below : (⟨(Position.behind a.toList).line + 1, 1⟩ : Position)
      = Position.lower (1 + a.toList.count '\n') {} := by
    simp only [Position.behind, Position.lower, Position.mk.injEq, and_true]
    omega
  have text : (a ++ "\n" ++ b).toList = a.toList ++ '\n' :: b.toList := by simp
  obtain ⟨front, split, more⟩ := tokensFrom_append scanned fresh
  rw [place] at split more
  refine ⟨front, split, ?_⟩
  rw [tokens, text, more, tokensFrom_feed, below, tokensFrom_lower, tokens]
  cases tokensFrom {} b.toList <;> rfl

end Scan

namespace Source

theorem tokens_eq_ok_iff {source : String} {ts : List Token} :
    tokens source = .ok ts ↔ Scan.tokens source = .ok ts := by
  rw [tokens]
  cases Scan.tokens source <;> simp

theorem tokens_eq_error_iff {source : String} {f : Fault} :
    tokens source = .error f ↔
      ∃ p, Scan.tokens source = .error p ∧ f = .unclosedString p.line p.column := by
  rw [tokens]
  cases Scan.tokens source <;> simp [eq_comm]

/-- Texts joined by a line feed are scanned apart. The tokens of the first come without its end of
file, in whose place stands the line feed; those of the second stand lower by the lines of the
first, in the same columns. A string without an end in the second is reported where it is then. -/
theorem tokens_append_feed {a : String} {ts : List Token} (scanned : tokens a = .ok ts)
    (b : String) :
    ∃ front last, ts = front ++ [last] ∧ last.kind = .eof ∧ (∀ t ∈ front, t.kind ≠ .eof) ∧
      last.StandsBehind a.toList ∧
      (∀ us, tokens b = .ok us → tokens (a ++ "\n" ++ b) = .ok (front ++
        { kind := .newline, text := "\n", line := last.line, column := last.column } ::
          us.map (Token.lower (1 + a.toList.count '\n')))) ∧
      ∀ line column, tokens b = .error (.unclosedString line column) →
        tokens (a ++ "\n" ++ b)
          = .error (.unclosedString (line + 1 + a.toList.count '\n') column) := by
  have scanned' : Scan.tokensFrom (.behind []) a.toList = .ok ts := tokens_eq_ok_iff.mp scanned
  obtain ⟨front, rfl, more⟩ := Scan.tokens_behind_feed scanned' b
  -- the layout of the first text says that its end of file is the only one
  obtain ⟨stretches, tail, layout⟩ := Scan.layout_of_tokensFrom scanned'
  obtain ⟨last, split, kind, place⟩ := layout.tokens
  obtain ⟨rfl, same⟩ := List.append_inj' split rfl
  obtain rfl := List.singleton_inj.mp same
  refine ⟨_, _, rfl, kind, ?_, place, fun us scanned => ?_, fun line column failed => ?_⟩
  · intro t member
    obtain ⟨s, among, rfl⟩ := List.mem_map.mp member
    exact layout.kinds s among
  · rw [tokens_eq_ok_iff, more, tokens_eq_ok_iff.mp scanned]
    rfl
  · obtain ⟨p, stopped, same⟩ := tokens_eq_error_iff.mp failed
    obtain ⟨rfl, rfl⟩ := Fault.unclosedString.inj same
    refine tokens_eq_error_iff.mpr ⟨_, by rw [more, stopped]; rfl, ?_⟩
    rw [Scan.Position.lower, Int.add_assoc, Int.natCast_add, Int.natCast_add]
    rfl

/-- A sign before the line feed and one behind it that would be one comparison on the same line,
and a string behind it that has no end. -/
theorem tokens_append_feed_signs :
    let front : List Token :=
      [{ kind := .identifier, text := "é", line := 1, column := 1 },
        { kind := .newline, text := "\n", line := 1, column := 2 },
        { kind := .greater, text := ">", line := 2, column := 1 }]
    tokens "é\n>" = .ok (front ++ [{ kind := .eof, line := 2, column := 2 }]) ∧
      tokens ("é\n>" ++ "\n" ++ "=x") = .ok (front ++
        [{ kind := .newline, text := "\n", line := 2, column := 2 },
          { kind := .equal, text := "=", line := 3, column := 1 },
          { kind := .identifier, text := "x", line := 3, column := 2 },
          { kind := .eof, line := 3, column := 3 }]) ∧
      tokens ("é\n>" ++ "\n" ++ "= 'x") = .error (.unclosedString 3 3) := by
  intro front
  have scanned : Scan.tokens "é\n>"
      = .ok (front ++ [{ kind := .eof, line := 2, column := 2 }]) := by with_unfolding_all rfl
  have closed : Scan.tokens "=x" = .ok
      [{ kind := .equal, text := "=", line := 1, column := 1 },
        { kind := .identifier, text := "x", line := 1, column := 2 },
        { kind := .eof, line := 1, column := 3 }] := by with_unfolding_all rfl
  have open' : Scan.tokens "= 'x" = .error ⟨1, 3⟩ := by with_unfolding_all rfl
  have scanned' := tokens_eq_ok_iff.mpr scanned
  obtain ⟨front', last, split, -, -, -, more, -⟩ := tokens_append_feed scanned' "=x"
  obtain ⟨-, -, -, -, -, -, -, fails⟩ := tokens_append_feed scanned' "= 'x"
  obtain ⟨rfl, same⟩ := List.append_inj' split rfl
  obtain rfl := List.singleton_inj.mp same
  refine ⟨scanned', more _ (tokens_eq_ok_iff.mpr closed), ?_⟩
  exact fails 1 3 (tokens_eq_error_iff.mpr ⟨_, open', rfl⟩)

end Source

end Pseudocode
