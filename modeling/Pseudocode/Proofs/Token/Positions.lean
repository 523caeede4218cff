import Pseudocode.Proofs.Token.Rendering

/-!
# Where tokens stand

The tokens of a text lie on it one behind another. Each stands at the place of its first character,
which the characters in front of it decide: one line for every line feed among them, and one column
for every character behind the last (`Position.behind`). From there on the text spells the token
(`Token.Spelled`), and a character between tokens is a blank or one that starts no token (`Idle`).

* The place that the scanner carries along is the place behind what it has used
  (`Position.next_behind`, `Position.after_behind`).
* The characters that a piece uses spell its word (`spelled_of_piece?`), and a piece without a word
  is one character that starts none (`isSome_word_of_piece?`). For strings the contents are
  recovered from the text between the quotes (`exists_inside_of_stringBody?`).
* A layout is built from the end of the text (`Layout.nil`, `Layout.gap`, `Layout.word`), so every
  text that is scanned has one (`tokens_layout`).
-/

namespace Pseudocode

namespace Scan

/-! ## Places -/

/-- The place behind the text `before`: its line is one more than the line feeds in the text, its
column one more than the characters behind the last of them. -/
def Position.behind (before : List Char) : Position :=
  { line := 1 + before.count '\n'
    column := 1 + (before.reverse.takeWhile (· ≠ '\n')).length }

theorem Position.next_behind (before : List Char) (c : Char) :
    (behind before).next c = behind (before ++ [c]) := by
  unfold next
  split
  · rename_i feed
    simp [behind, feed]
    omega
  · rename_i plain
    simp [behind, plain]
    omega

theorem Position.after_behind (before cs : List Char) :
    (behind before).after cs = behind (before ++ cs) := by
  induction cs generalizing before with
  | nil => simp [after]
  | cons c cs ih =>
    show ((behind before).next c).after cs = _
    rw [next_behind, ih, List.append_assoc, List.singleton_append]

end Scan

/-- The token stands right behind the text `before`. -/
def Token.StandsBehind (t : Token) (before : List Char) : Prop :=
  t.line = (Scan.Position.behind before).line ∧ t.column = (Scan.Position.behind before).column

namespace Scan

theorem standsBehind_at (w : Word) (before : List Char) :
    (w.at (.behind before)).StandsBehind before :=
  ⟨rfl, rfl⟩

/-! ## Characters between tokens -/

/-- The characters that a token can start with. -/
def startsToken (c : Char) : Bool :=
  c = '\n' || Decimal.isDigit c || c = '"' || c = '\'' || isLetter c || (operators.lookup c).isSome

/-- The characters that stand between tokens: blanks, and those that start no token. -/
def Idle (c : Char) : Prop :=
  isSeparator c = true ∨ startsToken c = false

/-- Whether a piece has a word is decided by its first character. -/
theorem isSome_word_of_piece? {c : Char} {cs : List Char} {p : Piece} (h : piece? c cs = some p) :
    p.word.isSome = startsToken c := by
  unfold piece? at h
  unfold startsToken
  split at h
  · rename_i feed
    cases h
    simp [fixed, feed]
  split at h
  · rename_i digit
    cases h
    simp [number, digit]
  split at h
  · rename_i quote
    obtain ⟨⟨body, used, rest⟩, -, rfl⟩ := Option.map_eq_some_iff.mp h
    rcases quote with rfl | rfl <;> rfl
  split at h
  · rename_i letter
    cases h
    simp [name, letter]
  rename_i feed digit quote letter
  split at h
  · cases h
    rfl
  · cases h
    rfl
  · split at h
    · rename_i found
      cases h
      rw [found]
      simp [fixed]
    · rename_i missing
      cases h
      rw [missing]
      simp only [not_or] at quote
      simp [feed, digit, quote, letter]

/-- A piece without a word is one character. -/
theorem used_of_word_none {c : Char} {cs : List Char} {p : Piece} (taken : Taken c cs p)
    (none : p.word = none) : p.used = [c] := by
  cases taken with
  | skipped => rfl
  | _ => cases none

/-! ## Spelling -/

/-- Every quote in the text has a backslash right before it. -/
def Shielded (quote : Char) (cs : List Char) : Prop :=
  ∀ front back, cs = front ++ quote :: back → front.getLast? = some '\\'

theorem Shielded.cons {quote c : Char} {cs : List Char} (shielded : Shielded quote cs)
    (plain : c ≠ quote) : Shielded quote (c :: cs) := by
  intro front back split
  cases front with
  | nil => exact absurd (List.cons.inj split).1 plain
  | cons e front =>
    obtain ⟨rfl, tail⟩ := List.cons.inj split
    rw [List.getLast?_cons, shielded front back tail]
    rfl

theorem Shielded.escaped {quote : Char} {cs : List Char} (shielded : Shielded quote cs)
    (apart : quote ≠ '\\') : Shielded quote ('\\' :: quote :: cs) := by
  intro front back split
  match front with
  | [] => exact absurd (List.cons.inj split).1.symm apart
  | [e] =>
    obtain ⟨rfl, -⟩ := List.cons.inj split
    rfl
  | e :: f :: front =>
    simp only [List.cons_append, List.cons.injEq] at split
    rw [List.getLast?_cons, List.getLast?_cons, shielded front back split.2.2]
    rfl

/-- The text between quotes as the contents it stands for: a backslash right before the quote is
dropped. -/
def unescape (quote : Char) : List Char → List Char
  | [] => []
  | c :: cs =>
    if c = '\\' ∧ cs.head? = some quote then unescape quote cs else c :: unescape quote cs

/-- The inside of a string ends at the first quote without a backslash before it. -/
theorem exists_inside_of_stringBody? {quote : Char} (apart : quote ≠ '\\')
    {cs body used rest : List Char} (h : stringBody? quote cs = some (body, used, rest)) :
    ∃ inside, used = inside ++ [quote] ∧ Shielded quote inside ∧
      inside.getLast? ≠ some '\\' ∧ body = unescape quote inside := by
  fun_induction stringBody? quote cs generalizing body used rest with
  | case1 => cases h
  | case2 =>
    cases h
    exact ⟨[], rfl, by simp [Shielded], by simp, rfl⟩
  | case3 => cases h
  | case4 d cs =>
    cases h
    exact ⟨[], rfl, by simp [Shielded], by simp, rfl⟩
  | case5 c d cs open' escaped ih =>
    obtain ⟨⟨body, used, rest⟩, inner, eq⟩ := Option.map_eq_some_iff.mp h
    cases eq
    obtain ⟨inside, rfl, shielded, closes, rfl⟩ := ih inner
    obtain ⟨rfl, rfl⟩ := escaped
    refine ⟨'\\' :: d :: inside, rfl, Shielded.escaped shielded apart, ?_, ?_⟩
    · rw [List.getLast?_cons, List.getLast?_cons]
      cases last : inside.getLast? with
      | none => simpa using apart
      | some e => simpa [last] using closes
    · simp [unescape, apart]
  | case6 c d cs open' plain ih =>
    obtain ⟨⟨body, used, rest⟩, inner, eq⟩ := Option.map_eq_some_iff.mp h
    cases eq
    obtain ⟨inside, rfl, shielded, closes, rfl⟩ := ih inner
    refine ⟨c :: inside, rfl, Shielded.cons shielded open', ?_⟩
    have text := stringBody?_append inner
    -- `d` is the first character inside, or the closing quote, which `c` does not escape
    cases inside with
    | nil =>
      have closing : d = quote := (List.cons.inj text).1.symm
      have other : c ≠ '\\' := fun backslash => plain ⟨backslash, closing⟩
      simpa [unescape] using other
    | cons e inside =>
      obtain rfl : e = d := (List.cons.inj text).1
      refine ⟨by rwa [List.getLast?_cons_cons], ?_⟩
      rw [unescape.eq_2 quote c, if_neg (by simpa using plain)]

end Scan

/-- The text spells the token. A string stands between two quotes of a sort; what is between them
has a backslash before every such quote, and none before the one that closes. Two comparisons have a
spelling of one character, and every other token is its own text. -/
inductive Token.Spelled (t : Token) : List Char → Prop
  | plain {cs : List Char} (kind : t.kind ≠ .string ∧ t.kind ≠ .eof) (text : cs = t.text.toList)
      (filled : cs ≠ []) : t.Spelled cs
  | string {quote : Char} {inside : List Char} (kind : t.kind = .string)
      (delimiter : quote = '"' ∨ quote = '\'') (shielded : Scan.Shielded quote inside)
      (closes : inside.getLast? ≠ some '\\')
      (contents : t.text.toList = Scan.unescape quote inside) :
      t.Spelled (quote :: (inside ++ [quote]))
  | greaterEq (kind : t.kind = .greaterEq) (text : t.text = ">=") : t.Spelled ['≥']
  | lessEq (kind : t.kind = .lessEq) (text : t.text = "<=") : t.Spelled ['≤']

namespace Scan

/-- A one-character operator is its own text or another spelling of a two-character one. -/
theorem operator_spelled {c : Char} {kind : Kind} {text : String}
    (sign : (c, kind, text) ∈ operators) (place : Position) :
    (Word.at { kind, text } place).Spelled [c] := by
  have all : ∀ e ∈ operators, e.2.1 ≠ .string ∧ e.2.1 ≠ .eof ∧ ([e.1] = e.2.2.toList ∨
      e.1 = '≥' ∧ e.2.1 = .greaterEq ∧ e.2.2 = ">=" ∨
      e.1 = '≤' ∧ e.2.1 = .lessEq ∧ e.2.2 = "<=") := by decide
  obtain ⟨plain, more, own | ⟨rfl, greaterEq, rfl⟩ | ⟨rfl, lessEq, rfl⟩⟩ := all _ sign
  · exact .plain ⟨plain, more⟩ own (by simp)
  · exact .greaterEq greaterEq rfl
  · exact .lessEq lessEq rfl

/-- The characters that a piece uses spell its word, wherever it stands. -/
theorem spelled_of_piece? {c : Char} {cs : List Char} {p : Piece} {w : Word}
    (h : piece? c cs = some p) (word : p.word = some w) (place : Position) :
    (w.at place).Spelled p.used := by
  have filled : p.used ≠ [] := List.ne_nil_of_length_pos (piece?_used_pos h)
  cases taken_of_piece? h with
  | newline feed =>
    cases word
    exact .plain (by simp [Word.at]) (by simp [fixed, Word.at, feed]) filled
  | number digit =>
    cases word
    exact .plain (by simp [Word.at]) String.toList_ofList.symm filled
  | string quote closed =>
    cases word
    have apart : c ≠ '\\' := by rcases quote with rfl | rfl <;> decide
    obtain ⟨inside, rfl, shielded, closes, rfl⟩ := exists_inside_of_stringBody? apart closed
    exact .string rfl quote shielded closes String.toList_ofList
  | name letter =>
    cases word
    have kinds := kind_ofWord (String.ofList ((c :: cs).takeWhile isNamePart))
    exact .plain ⟨kinds.2.2, kinds.1⟩ String.toList_ofList.symm filled
  | greaterEq sign follows =>
    cases word
    exact .plain (by simp [Word.at]) (by simp [fixed, Word.at]) filled
  | lessEq sign follows =>
    cases word
    exact .plain (by simp [Word.at]) (by simp [fixed, Word.at]) filled
  | operator sign =>
    cases word
    exact operator_spelled sign place
  | skipped => cases word

/-- The end of the file is spelled by nothing. -/
theorem kind_of_spelled {t : Token} {cs : List Char} (spelled : t.Spelled cs) : t.kind ≠ .eof := by
  cases spelled with
  | plain kind => exact kind.2
  | string kind => simp [kind]
  | greaterEq kind => simp [kind]
  | lessEq kind => simp [kind]

/-! ## Layouts -/

/-- A token on a text: the characters in front of it that belong to no token, and those that spell
it. -/
structure Stretch where
  gap : List Char
  token : Token
  used : List Char
  idle : ∀ c ∈ gap, Idle c
  spelled : token.Spelled used

def Stretch.text (s : Stretch) : List Char :=
  s.gap ++ s.used

/-- How the tokens `ts` lie on the text `cs` that comes behind the text `before`: one stretch after
another, and a tail without tokens. -/
structure Layout (before cs : List Char) (ts : List Token) (stretches : List Stretch)
    (tail : List Char) : Prop where
  /-- The stretches and the tail make up the text. -/
  text : cs = stretches.flatMap Stretch.text ++ tail
  idle : ∀ c ∈ tail, Idle c
  /-- The tokens are those of the stretches and an end of file behind the whole text. -/
  tokens : ∃ last, ts = stretches.map Stretch.token ++ [last] ∧
    last.kind = .eof ∧ last.StandsBehind (before ++ cs)
  /-- No other token is an end of file. -/
  kinds : ∀ s ∈ stretches, s.token.kind ≠ .eof
  /-- A token stands where the characters that spell it start. -/
  places : ∀ front s back, stretches = front ++ s :: back →
    s.token.StandsBehind (before ++ front.flatMap Stretch.text ++ s.gap)

theorem Layout.nil (before : List Char) :
    Layout before [] [Word.final.at (.behind before)] [] [] where
  text := rfl
  idle := by simp
  tokens := ⟨_, rfl, rfl, by simpa using standsBehind_at .final before⟩
  kinds := by simp
  places := by simp

/-- A character between tokens joins the gap of the first stretch, or the tail if there is none. -/
theorem Layout.gap {before cs : List Char} {ts : List Token} {stretches : List Stretch}
    {tail : List Char} {c : Char} (layout : Layout (before ++ [c]) cs ts stretches tail)
    (idle : Idle c) : ∃ stretches' tail', Layout before (c :: cs) ts stretches' tail' := by
  obtain ⟨last, tokens, kind, place⟩ := layout.tokens
  rw [List.append_assoc, List.singleton_append] at place
  cases stretches with
  | nil =>
    refine ⟨[], c :: tail, ?_, ?_, ⟨last, tokens, kind, place⟩, by simp, by simp⟩
    · rw [layout.text]
      rfl
    · simpa using ⟨idle, layout.idle⟩
  | cons s stretches =>
    let s' : Stretch := { s with gap := c :: s.gap, idle := by simpa using ⟨idle, s.idle⟩ }
    have longer : s'.text = c :: s.text := rfl
    refine ⟨s' :: stretches, tail, ?_, layout.idle, ⟨last, tokens, kind, place⟩, ?_, ?_⟩
    · rw [layout.text, List.flatMap_cons, List.flatMap_cons, longer]
      rfl
    · simpa [s'] using layout.kinds
    · intro front t back split
      cases front with
      | nil =>
        obtain ⟨rfl, rfl⟩ := List.cons.inj split
        simpa [s'] using layout.places [] s stretches rfl
      | cons f front =>
        obtain ⟨rfl, rfl⟩ := List.cons.inj split
        have place := layout.places (s :: front) t back rfl
        simpa [List.flatMap_cons, longer] using place

/-- A token in front of a layout starts a stretch of its own. -/
theorem Layout.word {before cs : List Char} {ts : List Token} {stretches : List Stretch}
    {tail : List Char} {w : Word} {used : List Char}
    (layout : Layout (before ++ used) cs ts stretches tail)
    (spelled : (w.at (.behind before)).Spelled used) :
    ∃ stretches', Layout before (used ++ cs) (w.at (.behind before) :: ts) stretches' tail := by
  obtain ⟨last, tokens, kind, place⟩ := layout.tokens
  rw [List.append_assoc] at place
  let s : Stretch :=
    { gap := [], token := w.at (.behind before), used, idle := by simp, spelled }
  have text : s.text = used := rfl
  refine ⟨s :: stretches, ?_, layout.idle, ⟨last, ?_, kind, place⟩, ?_, ?_⟩
  · rw [layout.text, List.flatMap_cons, text, List.append_assoc]
  · rw [tokens]
    rfl
  · simpa using ⟨kind_of_spelled spelled, layout.kinds⟩
  · intro front t back split
    cases front with
    | nil =>
      obtain ⟨rfl, rfl⟩ := List.cons.inj split
      simpa [s] using standsBehind_at w before
    | cons f front =>
      obtain ⟨rfl, rfl⟩ := List.cons.inj split
      have place := layout.places front t back rfl
      simpa [List.flatMap_cons, text] using place

/-- A scan that starts behind the text `before` lays its tokens on the text that it scans. -/
theorem layout_of_tokensFrom {before cs : List Char} {ts : List Token}
    (scanned : tokensFrom (.behind before) cs = .ok ts) :
    ∃ stretches tail, Layout before cs ts stretches tail := by
  generalize start : Position.behind before = p at scanned
  fun_induction tokensFrom p cs generalizing before ts with
  | case1 p =>
    cases scanned
    subst start
    exact ⟨[], [], .nil before⟩
  | case2 p c cs separator ih =>
    subst start
    obtain ⟨stretches, tail, layout⟩ := ih (Position.next_behind before c).symm scanned
    exact layout.gap (.inl separator)
  | case3 => cases scanned
  | case4 => cases scanned
  | case5 p c cs plain piece taken ts' rest w word ih =>
    cases scanned
    subst start
    obtain ⟨stretches, tail, layout⟩ := ih (Position.after_behind before piece.used).symm rest
    obtain ⟨stretches', layout'⟩ := layout.word (spelled_of_piece? taken word _)
    rw [piece?_append taken] at layout'
    exact ⟨stretches', tail, layout'⟩
  | case6 p c cs plain piece taken ts' rest word ih =>
    cases scanned
    subst start
    -- the piece is `c` alone, which starts no token
    have used := used_of_word_none (taken_of_piece? taken) word
    have text := piece?_append taken
    have idle := isSome_word_of_piece? taken
    obtain ⟨stretches, tail, layout⟩ := ih (Position.after_behind before piece.used).symm rest
    rw [used] at layout text
    obtain rfl : piece.rest = cs := (List.cons.inj text).2
    rw [word] at idle
    exact layout.gap (.inr idle.symm)

/-- The tokens of a text have a layout on it: they follow one another without overlapping, each is
spelled by the characters that start at its place, the text between them has nothing that could
start a token, and the one end of file is behind it all. -/
theorem tokens_layout {source : String} {ts : List Token} (scanned : tokens source = .ok ts) :
    ∃ stretches tail, Layout [] source.toList ts stretches tail :=
  layout_of_tokensFrom scanned

/-- A name with an accent, a comparison of one character, a character that is skipped, and a string
over two lines that holds its own quote. -/
theorem tokens_layout_lines :
    ∃ ts, tokens "é ≥;\n\"a\\\"\n b\" x " = .ok ts ∧
      ts.map (fun t => (t.kind, t.text, t.line, t.column)) =
        [(.identifier, "é", 1, 1), (.greaterEq, ">=", 1, 3), (.newline, "\n", 1, 5),
          (.string, "a\"\n b", 2, 1), (.identifier, "x", 3, 5), (.eof, "", 3, 7)] ∧
      ∃ stretches tail, Layout [] "é ≥;\n\"a\\\"\n b\" x ".toList ts stretches tail := by
  have scanned : tokens "é ≥;\n\"a\\\"\n b\" x " = .ok
      [{ kind := .identifier, text := "é", line := 1, column := 1 },
        { kind := .greaterEq, text := ">=", line := 1, column := 3 },
        { kind := .newline, text := "\n", line := 1, column := 5 },
        { kind := .string, text := "a\"\n b", line := 2, column := 1 },
        { kind := .identifier, text := "x", line := 3, column := 5 },
        { kind := .eof, line := 3, column := 7 }] := by with_unfolding_all rfl
  exact ⟨_, scanned, rfl, tokens_layout scanned⟩

end Scan

end Pseudocode
