import Pseudocode.Token.Scan

/-!
# Rendering tokens

The tokens of a text can be written down again: their texts with single spaces between them, a
string in double quotes with a backslash before every double quote in it. Scanning what was written
gives the same tokens at other places (`tokens_render`).

* What is taken off the front of a text is of one of eight sorts (`Taken`, `taken_of_piece?`).
* A word of every sort is stable: its spelling, with a space behind it, is taken as that word again
  (`Word.Stable`, `stable_of_taken`). For numbers and names this is because the longest run of
  characters ends at the space, for strings because their contents never end with a backslash, which
  would keep the closing quote from closing (`getLast?_stringBody?`).
* A text is scanned piece by piece, so its rendering is (`tokensFrom_spelled`).
-/

namespace Pseudocode

/-- What a token says apart from its place. -/
def Token.word (t : Token) : Scan.Word :=
  { kind := t.kind, text := t.text, number := t.number }

namespace Scan

theorem word_at (w : Word) (p : Position) : (w.at p).word = w := rfl

/-! ## Spelling -/

/-- The contents of a string for double quotes: a backslash comes before every double quote. -/
def escape (cs : List Char) : List Char :=
  cs.flatMap fun c => if c = '"' then ['\\', '"'] else [c]

/-- A word as text. A line break is a line feed, a string stands in double quotes, the end of the
file is nothing, and every other word is its own text. -/
def Word.spell (w : Word) : List Char :=
  match w.kind with
  | .eof => []
  | .newline => ['\n']
  | .string => '"' :: (escape w.text.toList ++ ['"'])
  | _ => w.text.toList

/-- Tokens as text, with single spaces between them. -/
def render (ts : List Token) : String :=
  String.ofList (List.intercalate [' '] (ts.map fun t => t.word.spell))

/-! ## What is taken off the front of a text -/

/-- The sorts of pieces at the front of the text `c :: cs`. -/
inductive Taken (c : Char) (cs : List Char) : Piece → Prop
  | newline (feed : c = '\n') : Taken c cs (fixed .newline "\n" [c] cs)
  | number (digit : Decimal.isDigit c = true) : Taken c cs (number (c :: cs))
  | string {body used rest : List Char} (quote : c = '"' ∨ c = '\'')
      (closed : stringBody? c cs = some (body, used, rest)) :
      Taken c cs { word := some { kind := .string, text := String.ofList body }
                   used := c :: used, rest }
  | name (letter : isLetter c = true) : Taken c cs (name (c :: cs))
  | greaterEq {rest : List Char} (sign : c = '>') (follows : cs = '=' :: rest) :
      Taken c cs (fixed .greaterEq ">=" ['>', '='] rest)
  | lessEq {rest : List Char} (sign : c = '<') (follows : cs = '=' :: rest) :
      Taken c cs (fixed .lessEq "<=" ['<', '='] rest)
  | operator {kind : Kind} {text : String} (sign : (c, kind, text) ∈ operators) :
      Taken c cs (fixed kind text [c] cs)
  | skipped : Taken c cs { word := none, used := [c], rest := cs }

theorem taken_of_piece? {c : Char} {cs : List Char} {p : Piece} (h : piece? c cs = some p) :
    Taken c cs p := by
  unfold piece? at h
  split at h
  · rename_i feed
    cases h
    exact .newline feed
  split at h
  · rename_i digit
    cases h
    exact .number digit
  split at h
  · rename_i quote
    obtain ⟨⟨body, used, rest⟩, closed, rfl⟩ := Option.map_eq_some_iff.mp h
    exact .string quote closed
  split at h
  · rename_i letter
    cases h
    exact .name letter
  split at h
  · cases h
    exact .greaterEq rfl rfl
  · cases h
    exact .lessEq rfl rfl
  · split at h
    · rename_i kind text found
      cases h
      obtain ⟨before, behind, split, -⟩ := List.lookup_eq_some_iff.mp found
      exact .operator (by rw [split]; simp)
    · cases h
      exact .skipped

/-! ## Strings -/

/-- A string without contents is closed by its first character. -/
theorem head?_of_stringBody?_nil {quote : Char} {cs used rest : List Char}
    (h : stringBody? quote cs = some ([], used, rest)) : cs.head? = some quote := by
  fun_cases stringBody? quote cs with
  | case1 => cases h
  | case2 => rfl
  | case3 c open' => simp [stringBody?, open'] at h
  | case4 d cs => rfl
  | case5 c d cs open' escaped =>
    rw [stringBody?, if_neg open', if_pos escaped] at h
    simp at h
  | case6 c d cs open' plain =>
    rw [stringBody?, if_neg open', if_neg plain] at h
    simp at h

/-- The contents of a string do not end with a backslash: one before the closing quote would have
kept it from closing. -/
theorem getLast?_stringBody? {quote : Char} (apart : quote ≠ '\\') {cs body used rest : List Char}
    (h : stringBody? quote cs = some (body, used, rest)) : body.getLast? ≠ some '\\' := by
  fun_induction stringBody? quote cs generalizing body used rest with
  | case1 => cases h
  | case2 => cases h; simp
  | case3 => cases h
  | case4 => cases h; simp
  | case5 c d cs _ escaped ih =>
    obtain ⟨⟨body, used, rest⟩, inner, eq⟩ := Option.map_eq_some_iff.mp h
    cases eq
    have tail := ih inner
    rw [List.getLast?_cons]
    cases last : body.getLast? with
    | none => simpa [escaped.2] using apart
    | some e => simpa [last] using tail
  | case6 c d cs open' plain ih =>
    obtain ⟨⟨body, used, rest⟩, inner, eq⟩ := Option.map_eq_some_iff.mp h
    cases eq
    have tail := ih inner
    rw [List.getLast?_cons]
    cases last : body.getLast? with
    | some e => simpa [last] using tail
    | none =>
      -- nothing comes after `c`, so the quote does, and `c` does not escape it
      have empty : body = [] := List.getLast?_eq_none_iff.mp last
      have closes : d = quote := by
        rw [empty] at inner
        simpa using head?_of_stringBody?_nil inner
      simp only [Option.getD_none, ne_eq, Option.some.injEq]
      exact fun backslash => plain ⟨backslash, closes⟩

theorem escape_cons (c : Char) (cs : List Char) :
    escape (c :: cs) = (if c = '"' then ['\\', '"'] else [c]) ++ escape cs := rfl

/-- No double quote comes first in what was escaped. -/
theorem head?_escape (cs : List Char) : (escape cs).head? ≠ some '"' := by
  cases cs with
  | nil => simp [escape]
  | cons c cs =>
    rw [escape_cons]
    split
    · simp
    · rename_i plain
      simpa using plain

/-- Contents that do not end with a backslash are read back between double quotes. -/
theorem stringBody?_escape {body : List Char} (closes : body.getLast? ≠ some '\\')
    (rest : List Char) :
    stringBody? '"' (escape body ++ '"' :: rest) = some (body, escape body ++ ['"'], rest) := by
  induction body with
  | nil => cases rest <;> rfl
  | cons c body ih =>
    have closes' : body.getLast? ≠ some '\\' := by
      intro last
      rw [List.getLast?_cons, last] at closes
      exact closes rfl
    have inner := ih closes'
    rw [escape_cons]
    by_cases quote : c = '"'
    · subst quote
      simp only [↓reduceIte, List.cons_append, List.nil_append]
      rw [stringBody?, if_neg (by decide), if_pos (by decide), inner]
      rfl
    · rw [if_neg quote, List.singleton_append]
      obtain ⟨d, ds, follows⟩ : ∃ d ds, escape body ++ '"' :: rest = d :: ds :=
        List.exists_cons_of_ne_nil (by simp)
      have plain : ¬(c = '\\' ∧ d = '"') := by
        -- what follows starts with a double quote only if `c` is the last of the contents
        rintro ⟨rfl, rfl⟩
        cases empty : escape body with
        | nil =>
          have : body = [] := by
            cases body with
            | nil => rfl
            | cons e es => rw [escape_cons] at empty; split at empty <;> cases empty
          rw [this] at closes
          exact closes rfl
        | cons e es =>
          rw [empty] at follows
          cases follows
          exact head?_escape body (by rw [empty]; rfl)
      rw [List.cons_append, List.cons_append, follows, stringBody?, if_neg quote, if_neg plain,
        ← follows, inner]
      rfl

/-! ## Numbers and names -/

theorem takeWhile_takeWhile_append {p : Char → Bool} {c : Char} (stop : p c = false)
    (cs rest : List Char) : (cs.takeWhile p ++ c :: rest).takeWhile p = cs.takeWhile p := by
  rw [List.takeWhile_append_of_pos (List.all_eq_true.mp List.all_takeWhile), List.takeWhile_cons,
    stop]
  simp

theorem dropWhile_takeWhile_append {p : Char → Bool} {c : Char} (stop : p c = false)
    (cs rest : List Char) : (cs.takeWhile p ++ c :: rest).dropWhile p = c :: rest := by
  rw [List.dropWhile_append_of_pos (List.all_eq_true.mp List.all_takeWhile), List.dropWhile_cons,
    stop]
  simp

/-- The characters of a number, with a space behind them, are the same number. -/
theorem numberParts_used (cs rest : List Char) :
    numberParts ((numberParts cs).2.1 ++ ' ' :: rest)
      = ((numberParts cs).1, (numberParts cs).2.1, ' ' :: rest) := by
  have stop : Decimal.isDigit ' ' = false := by decide
  have point : Decimal.isDigit '.' = false := by decide
  rw [numberParts.eq_def cs]
  simp only
  split
  · rename_i fraction split
    simp only [numberParts, List.append_assoc, List.cons_append,
      takeWhile_takeWhile_append point, dropWhile_takeWhile_append point,
      takeWhile_takeWhile_append stop, dropWhile_takeWhile_append stop]
  · simp only [numberParts, takeWhile_takeWhile_append stop, dropWhile_takeWhile_append stop]
    rfl

theorem numberParts_head {c : Char} (digit : Decimal.isDigit c = true) (cs : List Char) :
    ∃ tail, (numberParts (c :: cs)).2.1 = c :: tail := by
  simp only [numberParts, List.takeWhile_cons, digit, if_true]
  split
  · exact ⟨_, rfl⟩
  · exact ⟨_, rfl⟩

theorem not_digit_of_letter {c : Char} (letter : isLetter c = true) :
    Decimal.isDigit c = false := by
  simp only [isLetter, Decimal.isDigit, Bool.or_eq_true, Bool.and_eq_true, decide_eq_true_eq,
    Bool.and_eq_false_iff, decide_eq_false_iff_not, Char.le_def, UInt32.le_iff_toNat_le,
    Char.toNat] at letter ⊢
  simp at letter ⊢
  omega

/-- The kind of a word is a keyword's or a name's. -/
theorem kind_ofWord (text : String) :
    Kind.ofWord text ≠ .eof ∧ Kind.ofWord text ≠ .newline ∧ Kind.ofWord text ≠ .string := by
  unfold Kind.ofWord
  cases found : Kind.keywords.lookup text with
  | none => decide
  | some kind =>
    obtain ⟨before, behind, split, -⟩ := List.lookup_eq_some_iff.mp found
    have keyword : (text, kind) ∈ Kind.keywords := by rw [split]; simp
    have all : ∀ e ∈ Kind.keywords, e.2 ≠ .eof ∧ e.2 ≠ .newline ∧ e.2 ≠ .string := by decide
    exact all _ keyword

/-- A word that the scanner makes of a name is spelled by its text. -/
theorem spell_name (text : String) : Word.spell { kind := .ofWord text, text } = text.toList := by
  have kinds := kind_ofWord text
  unfold Word.spell
  split <;> simp_all

/-! ## Words are taken back -/

/-- The spelling of a word, with a space behind it, is taken as that word. -/
def Word.Stable (w : Word) : Prop :=
  ∃ c cs, w.spell = c :: cs ∧ isSeparator c = false ∧ ∀ rest,
    piece? c (cs ++ ' ' :: rest) = some { word := some w, used := c :: cs, rest := ' ' :: rest }

theorem piece?_of_digit {c : Char} (digit : Decimal.isDigit c = true) (cs : List Char) :
    piece? c cs = some (number (c :: cs)) := by
  have feed : c ≠ '\n' := by rintro rfl; cases digit
  unfold piece?
  rw [if_neg feed, if_pos digit]

theorem piece?_of_letter {c : Char} (letter : isLetter c = true) (cs : List Char) :
    piece? c cs = some (name (c :: cs)) := by
  have feed : c ≠ '\n' := by rintro rfl; cases letter
  have digit : ¬Decimal.isDigit c = true := by rw [not_digit_of_letter letter]; decide
  have quote : ¬(c = '"' ∨ c = '\'') := by rintro (rfl | rfl) <;> cases letter
  unfold piece?
  rw [if_neg feed, if_neg digit, if_neg quote, if_pos letter]

/-- A class of characters that leaves the three separators out. -/
theorem not_separator {p : Char → Bool} (apart : [' ', '\t', '\r'].all fun c => !p c) {c : Char}
    (h : p c = true) : isSeparator c = false := by
  cases separator : isSeparator c with
  | false => rfl
  | true =>
    simp only [isSeparator, Bool.or_eq_true, decide_eq_true_eq] at separator
    rcases separator with (rfl | rfl) | rfl <;> simp [h] at apart

theorem stable_number {c : Char} (digit : Decimal.isDigit c = true) (cs : List Char) {w : Word}
    (word : (number (c :: cs)).word = some w) : w.Stable := by
  obtain ⟨tail, head⟩ := numberParts_head digit cs
  obtain rfl : { kind := .number, text := String.ofList (numberParts (c :: cs)).2.1
                 number := (numberParts (c :: cs)).1.toFloat?.getD 0 } = w :=
    Option.some.inj word
  refine ⟨c, tail, ?_, not_separator (by decide) digit, fun rest => ?_⟩
  · rw [Word.spell, String.toList_ofList, head]
  · have parts := numberParts_used (c :: cs) rest
    rw [head, List.cons_append] at parts
    rw [piece?_of_digit digit, number, parts, head]

theorem stable_name {c : Char} (letter : isLetter c = true) (cs : List Char) {w : Word}
    (word : (name (c :: cs)).word = some w) : w.Stable := by
  cases word
  have part : isNamePart c = true := by simp [isNamePart, letter]
  have head : (c :: cs).takeWhile isNamePart = c :: cs.takeWhile isNamePart := by
    rw [List.takeWhile_cons, if_pos part]
  have stop : isNamePart ' ' = false := by decide
  refine ⟨c, cs.takeWhile isNamePart, ?_, not_separator (by decide) letter, fun rest => ?_⟩
  · rw [spell_name, String.toList_ofList, head]
  · have taken := takeWhile_takeWhile_append stop (c :: cs) rest
    have left := dropWhile_takeWhile_append stop (c :: cs) rest
    rw [head, List.cons_append] at taken left
    rw [piece?_of_letter letter, name, taken, left, head]

theorem stable_string {body : List Char} (closes : body.getLast? ≠ some '\\') :
    Word.Stable { kind := .string, text := String.ofList body } := by
  refine ⟨'"', escape body ++ ['"'], ?_, rfl, fun rest => ?_⟩
  · rw [Word.spell, String.toList_ofList]
  · have read := stringBody?_escape closes (' ' :: rest)
    show string? '"' _ = _
    rw [List.append_assoc, List.singleton_append, string?, read]
    rfl

theorem stable_operator {c : Char} {kind : Kind} {text : String}
    (sign : (c, kind, text) ∈ operators) : Word.Stable { kind, text } := by
  simp only [operators, List.mem_cons, Prod.mk.injEq, List.not_mem_nil, or_false] at sign
  rcases sign with ⟨rfl, rfl, rfl⟩ | ⟨rfl, rfl, rfl⟩ | ⟨rfl, rfl, rfl⟩ | ⟨rfl, rfl, rfl⟩ |
    ⟨rfl, rfl, rfl⟩ | ⟨rfl, rfl, rfl⟩ | ⟨rfl, rfl, rfl⟩ | ⟨rfl, rfl, rfl⟩ | ⟨rfl, rfl, rfl⟩ |
    ⟨rfl, rfl, rfl⟩ <;> exact ⟨_, _, rfl, rfl, fun _ => rfl⟩

/-- Every word that is taken off a text is stable. -/
theorem stable_of_taken {c : Char} {cs : List Char} {p : Piece} {w : Word} (taken : Taken c cs p)
    (word : p.word = some w) : w.Stable := by
  cases taken with
  | newline feed =>
    cases word
    exact ⟨'\n', [], rfl, rfl, fun _ => rfl⟩
  | number digit => exact stable_number digit cs word
  | string quote closed =>
    cases word
    refine stable_string (getLast?_stringBody? ?_ closed)
    rcases quote with rfl | rfl <;> decide
  | name letter => exact stable_name letter cs word
  | greaterEq sign follows =>
    cases word
    exact ⟨'>', ['='], rfl, rfl, fun _ => rfl⟩
  | lessEq sign follows =>
    cases word
    exact ⟨'<', ['='], rfl, rfl, fun _ => rfl⟩
  | operator sign =>
    cases word
    exact stable_operator sign
  | skipped => cases word

/-! ## Texts -/

theorem tokensFrom_of_separator {c : Char} (separator : isSeparator c = true) (p : Position)
    (cs : List Char) : tokensFrom p (c :: cs) = tokensFrom (p.next c) cs := by
  rw [tokensFrom, if_pos separator]

/-- A text is scanned by taking a piece off its front and scanning what is left. -/
theorem tokensFrom_of_piece {c : Char} {cs : List Char} {piece : Piece}
    (plain : isSeparator c = false) (taken : piece? c cs = some piece) (p : Position) :
    tokensFrom p (c :: cs) = (tokensFrom (p.after piece.used) piece.rest).map fun ts =>
      (piece.word.map fun w => w.at p).toList ++ ts := by
  rw [tokensFrom, if_neg (by rw [plain]; decide)]
  split
  · rename_i none
    rw [taken] at none
    cases none
  · rename_i found
    rw [taken] at found
    cases found
    cases tokensFrom (p.after piece.used) piece.rest with
    | error e => rfl
    | ok ts => cases piece.word <;> rfl

/-- The last word of every text. -/
def Word.final : Word := { kind := .eof, text := "" }

/-- The tokens of a text are stable words and the end of the file. -/
theorem words_of_tokensFrom {p : Position} {cs : List Char} {ts : List Token}
    (scanned : tokensFrom p cs = .ok ts) :
    ∃ ws : List Word, ts.map Token.word = ws ++ [.final] ∧ ∀ w ∈ ws, w.Stable := by
  fun_induction tokensFrom p cs generalizing ts with
  | case1 p =>
    cases scanned
    exact ⟨[], rfl, by simp⟩
  | case2 p c cs separator ih => exact ih scanned
  | case3 => cases scanned
  | case4 => cases scanned
  | case5 p c cs plain piece taken ts' rest w word ih =>
    cases scanned
    obtain ⟨ws, split, stable⟩ := ih rest
    refine ⟨w :: ws, by rw [List.map_cons, split, word_at]; rfl, ?_⟩
    intro v member
    rcases List.mem_cons.mp member with rfl | member
    · exact stable_of_taken (taken_of_piece? taken) word
    · exact stable v member
  | case6 p c cs plain piece taken ts' rest word ih =>
    cases scanned
    exact ih rest

/-- Single spaces between words and nothing at the end, word by word. -/
theorem intercalate_spell (ws : List Word) :
    List.intercalate [' '] ((ws ++ [Word.final]).map Word.spell)
      = ws.flatMap fun w => w.spell ++ [' '] := by
  induction ws with
  | nil => rfl
  | cons w ws ih =>
    obtain ⟨v, vs, more⟩ : ∃ v vs, ws ++ [Word.final] = v :: vs :=
      List.exists_cons_of_ne_nil (by simp)
    rw [more] at ih
    rw [List.cons_append, more, List.flatMap_cons, ← ih]
    simp [List.intercalate]

/-- Stable words with spaces behind them are scanned as these words. -/
theorem tokensFrom_spelled {ws : List Word} (stable : ∀ w ∈ ws, w.Stable) (p : Position) :
    ∃ ts, tokensFrom p (ws.flatMap fun w => w.spell ++ [' ']) = .ok ts ∧
      ts.map Token.word = ws ++ [.final] := by
  induction ws generalizing p with
  | nil => exact ⟨_, by rw [List.flatMap_nil, tokensFrom], rfl⟩
  | cons w ws ih =>
    obtain ⟨c, cs, spelling, plain, taken⟩ := stable w List.mem_cons_self
    let rest := ws.flatMap fun w => w.spell ++ [' ']
    obtain ⟨ts, scanned, words⟩ :=
      ih (fun v member => stable v (List.mem_cons_of_mem w member)) ((p.after (c :: cs)).next ' ')
    refine ⟨w.at p :: ts, ?_, by rw [List.map_cons, words, word_at]; rfl⟩
    have text : (w :: ws).flatMap (fun w => w.spell ++ [' ']) = c :: (cs ++ ' ' :: rest) := by
      rw [List.flatMap_cons, spelling]
      simp [rest]
    rw [text, tokensFrom_of_piece plain (taken rest), tokensFrom_of_separator (by decide), scanned]
    rfl

/-- A stable string does not end with a backslash. -/
theorem Word.Stable.getLast?_text {w : Word} (stable : w.Stable) (string : w.kind = .string) :
    w.text.toList.getLast? ≠ some '\\' := by
  obtain ⟨c, cs, spelling, -, taken⟩ := stable
  obtain rfl : c = '"' := by
    rw [Word.spell, string] at spelling
    exact (List.cons.inj spelling).1.symm
  have read : string? '"' (cs ++ [' ']) = some ⟨some w, '"' :: cs, [' ']⟩ := taken []
  obtain ⟨⟨body, used, rest⟩, closed, eq⟩ := Option.map_eq_some_iff.mp read
  cases eq
  rw [String.toList_ofList]
  exact getLast?_stringBody? (by decide) closed

/-- The strings of texts are those that do not end with a backslash. -/
theorem exists_string_iff (text : String) :
    (∃ source ts, tokens source = .ok ts ∧ ∃ t ∈ ts, t.kind = .string ∧ t.text = text) ↔
      text.toList.getLast? ≠ some '\\' := by
  constructor
  · rintro ⟨source, ts, scanned, t, member, string, rfl⟩
    obtain ⟨ws, split, stable⟩ := words_of_tokensFrom scanned
    have among : t.word ∈ ws ++ [.final] := split ▸ List.mem_map_of_mem member
    rcases List.mem_append.mp among with inside | last
    · exact (stable t.word inside).getLast?_text string
    · have final : t.kind = .eof := congrArg Word.kind (List.mem_singleton.mp last)
      rw [string] at final
      cases final
  · intro closes
    have stable : Word.Stable { kind := .string, text } := by
      have := stable_string closes
      rwa [String.ofList_toList] at this
    have all : ∀ w ∈ [({ kind := .string, text } : Word)], w.Stable := by simpa using stable
    obtain ⟨ts, scanned, words⟩ := tokensFrom_spelled all {}
    cases ts with
    | nil => cases words
    | cons t rest =>
      have word : t.word = { kind := .string, text } := (List.cons.inj words).1
      rw [← String.toList_ofList (l := List.flatMap _ _)] at scanned
      exact ⟨_, _, scanned, t, List.mem_cons_self, congrArg Word.kind word,
        congrArg Word.text word⟩

/-- Scanning is stable under rendering. The tokens of a text, written down with single spaces
between them, are scanned as tokens of the same kinds, texts and numbers. The contents of a string
are any text that does not end with a backslash, and no other. -/
theorem tokens_render :
    (∀ (source : String) (ts : List Token), tokens source = .ok ts →
      ∃ ts', tokens (render ts) = .ok ts' ∧ ts'.map Token.word = ts.map Token.word) ∧
    ∀ text : String,
      (∃ source ts, tokens source = .ok ts ∧ ∃ t ∈ ts, t.kind = .string ∧ t.text = text) ↔
        text.toList.getLast? ≠ some '\\' := by
  refine ⟨fun source ts scanned => ?_, exists_string_iff⟩
  obtain ⟨ws, split, stable⟩ := words_of_tokensFrom scanned
  obtain ⟨ts', scanned', words⟩ := tokensFrom_spelled stable {}
  refine ⟨ts', ?_, words.trans split.symm⟩
  have spelled : ts.map (fun t => t.word.spell) = (ws ++ [Word.final]).map Word.spell := by
    rw [← split, List.map_map]
    rfl
  rw [tokens, render, String.toList_ofList, spelled, intercalate_spell, scanned']

/-- A string in single quotes that holds both quotes and a backslash, with a sign of its own and a
character that is skipped behind it. -/
theorem tokens_render_quotes :
    ∃ ts, tokens "'a\\\"\\'b'≥x;" = .ok ts ∧
      render ts = "\"a\\\\\"'b\" >= x " ∧
      ∃ ts', tokens (render ts) = .ok ts' ∧ ts'.map Token.word = ts.map Token.word := by
  have scanned : tokens "'a\\\"\\'b'≥x;" = .ok
      [{ kind := .string, text := "a\\\"'b", line := 1, column := 1 },
        { kind := .greaterEq, text := ">=", line := 1, column := 9 },
        { kind := .identifier, text := "x", line := 1, column := 10 },
        { kind := .eof, line := 1, column := 12 }] := by with_unfolding_all rfl
  exact ⟨_, scanned, by decide +kernel, tokens_render.1 _ _ scanned⟩

end Scan

end Pseudocode
