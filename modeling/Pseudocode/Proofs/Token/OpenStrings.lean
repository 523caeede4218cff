import Pseudocode.Proofs.Token.Seams

/-!
# Strings without an end

The only error of a scan is a string that is never closed. A quote opens such a string if the text
before it is scanned without failure, and every such quote behind it has a backslash right before
it. The scan fails exactly if there is such a quote, at the place of that quote, and a text has one
of them at most (`Source.tokens_error_iff`).

* Behind a quote the two conditions meet: the reader of strings finds no end exactly if every quote
  is shielded (`stringBody?_eq_none_iff`).
* A quote ends every piece before it, so the text may be cut there: what was scanned up to the quote
  stays scanned without the rest (`exists_open_of_tokensFrom`), and with any other.
* The place of a quote tells how much text is before it (`Position.behind_inj`), so two quotes at
  which a scan fails are the same.
-/

namespace Pseudocode

namespace Scan

/-! ## Scans that fail -/

/-- A string is never closed if every quote behind its own has a backslash before it. -/
theorem stringBody?_eq_none_iff {quote : Char} (apart : quote ≠ '\\') {cs : List Char} :
    stringBody? quote cs = none ↔ Shielded quote cs := by
  constructor
  · intro open'
    fun_induction stringBody? quote cs with
    | case1 => simp [Shielded]
    | case2 => cases open'
    | case3 c other => exact Shielded.cons (by simp [Shielded]) other
    | case4 => cases open'
    | case5 c d cs other escaped ih =>
      obtain ⟨rfl, rfl⟩ := escaped
      exact Shielded.escaped (ih (Option.map_eq_none_iff.mp open')) apart
    | case6 c d cs other plain ih =>
      exact Shielded.cons (ih (Option.map_eq_none_iff.mp open')) other
  · intro shielded
    cases closed : stringBody? quote cs with
    | none => rfl
    | some found =>
      obtain ⟨body, used, rest⟩ := found
      obtain ⟨inside, rfl, -, closes, -⟩ := exists_inside_of_stringBody? apart closed
      have text := stringBody?_append closed
      rw [List.append_assoc, List.singleton_append] at text
      exact absurd (shielded inside rest text.symm) closes

/-- A scan takes no piece only where a string is never closed. -/
theorem piece?_eq_none_iff {c : Char} {cs : List Char} :
    piece? c cs = none ↔ (c = '"' ∨ c = '\'') ∧ Shielded c cs := by
  by_cases quote : c = '"' ∨ c = '\''
  · have apart : c ≠ '\\' := by rcases quote with rfl | rfl <;> decide
    rw [piece?_of_quote quote, string?, Option.map_eq_none_iff, stringBody?_eq_none_iff apart]
    simp [quote]
  · refine iff_of_false (fun open' => ?_) fun both => quote both.1
    unfold piece? at open'
    rw [if_neg quote] at open'
    repeat' split at open'
    all_goals cases open'

theorem tokensFrom_of_open {c : Char} {cs : List Char} (quote : c = '"' ∨ c = '\'')
    (shielded : Shielded c cs) (p : Position) : tokensFrom p (c :: cs) = .error p := by
  have plain : ¬isSeparator c = true := by rcases quote with rfl | rfl <;> decide
  exact tokensFrom_of_none plain (piece?_eq_none_iff.mpr ⟨quote, shielded⟩) p

/-- A scan that fails comes to a quote that is never closed, and the text before it is scanned
without failure. -/
theorem exists_open_of_tokensFrom {p e : Position} {cs : List Char}
    (failed : tokensFrom p cs = .error e) :
    ∃ before quote rest, cs = before ++ quote :: rest ∧ (∃ ts, tokensFrom p before = .ok ts) ∧
      (quote = '"' ∨ quote = '\'') ∧ Shielded quote rest ∧ e = p.after before := by
  fun_induction tokensFrom p cs with
  | case1 => cases failed
  | case2 p c cs separator ih =>
    obtain ⟨before, quote, rest, rfl, ⟨ts, scanned⟩, open'⟩ := ih failed
    refine ⟨c :: before, quote, rest, rfl, ⟨ts, ?_⟩, open'⟩
    rw [tokensFrom_of_separator separator, scanned]
  | case3 p c cs plain open' =>
    cases failed
    obtain ⟨quote, shielded⟩ := piece?_eq_none_iff.mp open'
    exact ⟨[], c, cs, rfl, ⟨_, by rw [tokensFrom]⟩, quote, shielded, rfl⟩
  | case4 p c cs plain piece taken e failed' ih =>
    cases failed
    obtain ⟨before, quote, rest, text, ⟨ts, scanned⟩, delimiter, shielded, rfl⟩ := ih failed'
    -- the piece is still taken if the text is cut before the quote
    have joins : Joins piece.rest before := text ▸ .of_append
    obtain ⟨tail, used, taken'⟩ := piece?_exchange taken joins
    refine ⟨c :: (tail ++ before), quote, rest, ?_, ?_, delimiter, shielded, ?_⟩
    · rw [← piece?_append taken, text, used]
      simp
    · rw [tokensFrom_of_piece (by simpa using plain) taken', scanned]
      exact ⟨_, rfl⟩
    · rw [← Position.after_append, used]
      rfl
  | case5 => cases failed
  | case6 => cases failed

/-- Each character moves the place on. -/
theorem Position.behind_inj {before more : List Char}
    (same : behind before = behind (before ++ more)) : more = [] := by
  obtain ⟨line, column⟩ := Position.mk.inj same
  rw [List.count_append] at line
  have plain : '\n' ∉ more := List.count_eq_zero.mp (by omega)
  have run : ∀ c ∈ more.reverse, (decide (c ≠ '\n')) = true := by
    intro c member
    have other : c ≠ '\n' := fun feed => plain (feed ▸ List.mem_reverse.mp member)
    simpa using other
  rw [List.reverse_append, List.takeWhile_append_of_pos run, List.length_append,
    List.length_reverse] at column
  exact List.eq_nil_of_length_eq_zero (by omega)

end Scan

/-! ## Sources -/

namespace Source

/-- A text cut in three: what comes before a character, the character, and the rest. -/
structure Cut where
  before : String
  quote : Char
  rest : String

def Cut.text (k : Cut) : String :=
  k.before ++ String.singleton k.quote ++ k.rest

/-- The character is a quote that opens a string without an end: the text before it is scanned, and
every such quote behind it has a backslash right before it. -/
structure Cut.Dangles (k : Cut) : Prop where
  scanned : ∃ ts, tokens k.before = .ok ts
  delimiter : k.quote = '"' ∨ k.quote = '\''
  shielded : Scan.Shielded k.quote k.rest.toList

theorem Cut.toList_text (k : Cut) :
    k.text.toList = k.before.toList ++ k.quote :: k.rest.toList := by
  simp [Cut.text]

/-- A quote that dangles is what the scan of the text fails at. -/
theorem Cut.Dangles.tokens {k : Cut} (dangles : k.Dangles) :
    Scan.tokens k.text = .error (.behind k.before.toList) := by
  obtain ⟨ts, scanned⟩ := dangles.scanned
  have fresh : Scan.Fresh (k.quote :: k.rest.toList) := by
    intro d head
    obtain rfl : k.quote = d := Option.some.inj head
    rcases dangles.delimiter with quote | quote <;> rw [quote] <;> decide
  obtain ⟨front, -, more⟩ := Scan.tokensFrom_append (tokens_eq_ok_iff.mp scanned) fresh
  rw [Scan.tokens, k.toList_text, more,
    Scan.tokensFrom_of_open dangles.delimiter dangles.shielded]
  exact congrArg Except.error (Scan.Position.after_behind [] k.before.toList)

theorem Cut.Dangles.unique {k k' : Cut} (dangles : k.Dangles) (dangles' : k'.Dangles)
    (same : k.text = k'.text) : k = k' := by
  have places : Scan.Position.behind k.before.toList = .behind k'.before.toList := by
    have failed := dangles.tokens
    rw [same, dangles'.tokens] at failed
    exact (Except.error.inj failed).symm
  have texts := congrArg String.toList same
  rw [k.toList_text, k'.toList_text] at texts
  have before : k.before.toList = k'.before.toList := by
    rcases List.append_eq_append_iff.mp texts with ⟨more, longer, -⟩ | ⟨more, longer, -⟩
    · rw [longer] at places
      rw [longer, Scan.Position.behind_inj places, List.append_nil]
    · rw [longer] at places
      rw [longer, Scan.Position.behind_inj places.symm, List.append_nil]
  rw [before] at texts
  obtain ⟨quote, rest⟩ := List.cons.inj (List.append_cancel_left texts)
  obtain ⟨b, q, r⟩ := k
  obtain ⟨b', q', r'⟩ := k'
  obtain rfl := String.toList_injective before
  obtain rfl := String.toList_injective rest
  obtain rfl : q = q' := quote
  rfl

/-- A text has tokens unless a string in it has no end. It fails to be scanned exactly if it can be
cut at a quote that opens a string without an end, at whose place the error is reported, and it can
be cut so in one way at most. -/
theorem tokens_error_iff (source : String) :
    (∀ f, tokens source = .error f ↔ ∃ k : Cut, k.text = source ∧ k.Dangles ∧
      f = .unclosedString (Scan.Position.behind k.before.toList).line
        (Scan.Position.behind k.before.toList).column) ∧
    ∀ k k' : Cut, k.text = source → k'.text = source → k.Dangles → k'.Dangles → k = k' := by
  refine ⟨fun f => ⟨fun failed => ?_, ?_⟩, ?_⟩
  · obtain ⟨p, stopped, rfl⟩ := tokens_eq_error_iff.mp failed
    obtain ⟨before, quote, rest, text, ⟨ts, scanned⟩, delimiter, shielded, rfl⟩ :=
      Scan.exists_open_of_tokensFrom stopped
    refine ⟨⟨String.ofList before, quote, String.ofList rest⟩, ?_, ⟨⟨ts, ?_⟩, delimiter, ?_⟩, ?_⟩
    · refine String.toList_injective ?_
      rw [Cut.toList_text, String.toList_ofList, String.toList_ofList, text]
    · rw [tokens_eq_ok_iff, Scan.tokens, String.toList_ofList, scanned]
    · rwa [String.toList_ofList]
    · have place : Scan.Position.after {} before = .behind before :=
        Scan.Position.after_behind [] before
      rw [place, String.toList_ofList]
  · rintro ⟨k, rfl, dangles, rfl⟩
    exact tokens_eq_error_iff.mpr ⟨_, dangles.tokens, rfl⟩
  · rintro k k' text text' dangles dangles'
    exact dangles.unique dangles' (text.trans text'.symm)

/-- A string in single quotes that holds a double quote, and on the next line a double quote behind
which there are only an escaped one and a single quote. -/
theorem tokens_error_iff_escaped :
    let k : Cut := ⟨"x ← 'é\"'\n ", '"', "a\\\" 'b"⟩
    k.Dangles ∧ tokens k.text = .error (.unclosedString 2 2) ∧
      ∀ k' : Cut, k'.text = k.text → k'.Dangles → k' = k := by
  intro k
  have scanned : Scan.tokens "x ← 'é\"'\n " = .ok
      [{ kind := .identifier, text := "x", line := 1, column := 1 },
        { kind := .assign, text := "←", line := 1, column := 3 },
        { kind := .string, text := "é\"", line := 1, column := 5 },
        { kind := .newline, text := "\n", line := 1, column := 9 },
        { kind := .eof, line := 2, column := 2 }] := by with_unfolding_all rfl
  have shielded : Scan.Shielded k.quote k.rest.toList :=
    (Scan.stringBody?_eq_none_iff (by decide)).mp (by decide +kernel)
  have dangles : k.Dangles := ⟨⟨_, tokens_eq_ok_iff.mpr scanned⟩, .inl rfl, shielded⟩
  have place : Scan.Position.behind k.before.toList = ⟨2, 2⟩ := by decide +kernel
  refine ⟨dangles, ((tokens_error_iff k.text).1 _).mpr ⟨k, rfl, dangles, ?_⟩, ?_⟩
  · rw [place]
    rfl
  · exact fun k' text dangles' => (tokens_error_iff k.text).2 k' k text rfl dangles' dangles

end Source

end Pseudocode
