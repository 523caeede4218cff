import Pseudocode.Source
import Pseudocode.Proofs.Tree.Parsing

/-!
# Programs one after the other

A stream is a place in a token list without line breaks that ends with an end of file
(`remaining_ofTokens`, `remaining_after`). Parsing returns a program exactly where the tokens from
that place on start with one (`parse_eq_ok_iff`), and moves behind it. So a stream that is parsed
again and again returns the programs of a token list one after the other
(`programs_eq_map_ok_iff`).
-/

namespace Pseudocode.Parse

open Grammar

/-- The tokens that have a meaning: all but the line breaks, with an end of file on the line of the
last token if they do not end with one. -/
def meaningful (ts : List Token) : List Token :=
  let kept := ts.filter (·.kind ≠ .newline)
  if kept.getLast?.map Token.kind = some .eof then kept
  else kept ++ [{ kind := .eof, line := Stream.ofTokens.lastLine ts }]

namespace Stream

/-- The tokens from the place of a stream on. -/
def remaining (s : Stream) : List Token := s.rest ++ [s.final]

/-- The stream after a number of parses, whether they returned a program or not. -/
def after : Nat → Stream → Stream
  | 0, s => s
  | n + 1, s => after n s.parse.2

variable {s s' : Stream}

theorem remaining_ofTokens (ts : List Token) : (ofTokens ts).remaining = meaningful ts := by
  simp only [ofTokens, meaningful]
  generalize ts.filter (·.kind ≠ .newline) = kept
  rcases List.eq_nil_or_concat kept with rfl | ⟨front, t, rfl⟩
  · rfl
  · simp only [List.concat_eq_append, List.getLast?_concat, List.dropLast_concat, Option.map_some,
      Option.some.injEq]
    split <;> rfl

theorem final_ofTokens (ts : List Token) : (ofTokens ts).final.kind = .eof := by
  simp only [ofTokens]
  split
  · split
    · assumption
    · rfl
  · rfl

/-- Parsing moves on over some of the tokens that remain. -/
theorem remaining_parse (s : Stream) : s.parse.2.remaining <:+ s.remaining := by
  have sound := program_sound s.rest
  rw [parse]
  split
  · rename_i body rest h result
    rw [result] at sound
    obtain ⟨us, split, -⟩ := sound
    exact ⟨us, by simp [remaining, split]⟩
  · rename_i r result
    rw [result] at sound
    obtain ⟨us, split⟩ := sound
    exact ⟨us, by simp [remaining, ← split]⟩

theorem final_parse (s : Stream) : s.parse.2.final = s.final := by
  rw [parse]
  split <;> rfl

theorem remaining_after (n : Nat) (s : Stream) : (s.after n).remaining <:+ s.remaining := by
  induction n generalizing s with
  | zero => exact List.suffix_rfl
  | succ n ih => exact (ih s.parse.2).trans (remaining_parse s)

theorem final_after (n : Nat) (s : Stream) : (s.after n).final = s.final := by
  induction n generalizing s with
  | zero => rfl
  | succ n ih => exact (ih s.parse.2).trans (final_parse s)

theorem parse_eq_ok_iff_takes {p : Program} : s.parse = (.ok p, s') ↔
    p.tag = 0 ∧ s'.final = s.final ∧ Takes (program s.rest) p.statements s'.rest := by
  rw [parse]
  split
  · rename_i body rest h result
    constructor
    · intro eq
      cases eq
      exact ⟨rfl, rfl, h, result⟩
    · rintro ⟨tag, final, taken⟩
      obtain ⟨statements, rest⟩ := taken.unique ⟨h, result⟩
      cases p
      cases s'
      cases tag
      cases final
      cases statements
      cases rest
      rfl
  · rename_i r result
    constructor
    · intro eq
      cases eq
    · rintro ⟨-, -, h, taken⟩
      rw [result] at taken
      cases taken

theorem remaining_eq_append_iff {us : List Token} : s.remaining = us ++ s'.remaining ↔
    s.rest = us ++ s'.rest ∧ s.final = s'.final := by
  simp only [remaining]
  rw [← List.append_assoc]
  constructor
  · intro same
    obtain ⟨rest, final⟩ := List.append_inj' same rfl
    exact ⟨rest, List.singleton_inj.mp final⟩
  · rintro ⟨rest, final⟩
    rw [rest, final]

/-- Parsing returns the program that the remaining tokens start with, and moves behind it. -/
theorem parse_eq_ok_iff {p : Program} : s.parse = (.ok p, s') ↔
    p.tag = 0 ∧ ∃ us, Whole us p.statements ∧ s.remaining = us ++ s'.remaining := by
  rw [parse_eq_ok_iff_takes, program_takes_iff]
  simp only [remaining_eq_append_iff]
  constructor
  · rintro ⟨tag, final, us, rest, isWhole⟩
    exact ⟨tag, us, isWhole, rest, final.symm⟩
  · rintro ⟨tag, us, isWhole, rest, final⟩
    exact ⟨tag, final.symm, us, rest, isWhole⟩

/-- A program ends before the end of file, so what follows it is the rest of a stream again. -/
theorem exists_remaining_of_whole (closed : s.final.kind = .eof) {us rest : List Token}
    {body : List Stmt} (isWhole : Whole us body) (starts : s.remaining = us ++ rest) :
    ∃ s' : Stream, s'.final.kind = .eof ∧ rest = s'.remaining := by
  rcases List.eq_nil_or_concat rest with rfl | ⟨front, t, rfl⟩
  · -- with nothing behind it the program would end with the end of file, and it ends with `Fin`
    obtain @⟨debut, fin, ts, body, isDebut, isBody, isFin⟩ := isWhole
    rw [remaining, List.append_nil, ← List.cons_append] at starts
    obtain ⟨-, same⟩ := List.append_inj' starts rfl
    cases same
    rw [isFin] at closed
    cases closed
  · rw [remaining, List.concat_eq_append, ← List.append_assoc] at starts
    obtain ⟨-, same⟩ := List.append_inj' starts rfl
    cases same
    exact ⟨⟨front, s.final⟩, closed, by simp [remaining]⟩

/-- Parsing fails exactly where no program starts. -/
theorem parse_eq_error_iff (closed : s.final.kind = .eof) :
    (∃ e s', s.parse = (.error e, s')) ↔
      ¬ ∃ us rest body, s.remaining = us ++ rest ∧ Whole us body := by
  constructor
  · rintro ⟨e, s', failed⟩ ⟨us, rest, body, starts, isWhole⟩
    obtain ⟨s'', -, rfl⟩ := exists_remaining_of_whole closed isWhole starts
    have parsed : s.parse = (.ok { statements := body }, s'') :=
      parse_eq_ok_iff.mpr ⟨rfl, us, isWhole, starts⟩
    rw [failed] at parsed
    cases parsed
  · intro noProgram
    rcases result : s.parse with ⟨e | p, s'⟩
    · exact ⟨e, s', rfl⟩
    · obtain ⟨-, us, isWhole, starts⟩ := parse_eq_ok_iff.mp result
      exact absurd ⟨us, s'.remaining, p.statements, starts, isWhole⟩ noProgram

theorem wholes_cons_iff {ts : List Token} {body : List Stmt} {bodies : List (List Stmt)} :
    Wholes ts (body :: bodies) ↔
      ∃ us vs, ts = us ++ vs ∧ Whole us body ∧ Wholes vs bodies := by
  constructor
  · intro h
    cases h with
    | cons head tail => exact ⟨_, _, rfl, head, tail⟩
  · rintro ⟨us, vs, rfl, head, tail⟩
    exact .cons head tail

/-- Repeated parsing returns the programs that the remaining tokens start with, in their order. -/
theorem programs_eq_map_ok_iff (closed : s.final.kind = .eof) {bodies : List (List Stmt)} :
    Source.programs bodies.length s = bodies.map (fun body => .ok { statements := body }) ↔
      ∃ us rest, s.remaining = us ++ rest ∧ Wholes us bodies := by
  induction bodies generalizing s with
  | nil => exact ⟨fun _ => ⟨[], s.remaining, rfl, .nil⟩, fun _ => rfl⟩
  | cons body bodies ih =>
    have again := ih (s := s.parse.2) (by rw [final_parse]; exact closed)
    rcases result : s.parse with ⟨e | p, s'⟩
    · -- no program starts here, so neither side has a first one
      have noProgram := (parse_eq_error_iff closed).mp ⟨e, s', result⟩
      constructor
      · intro returned
        simp only [Source.programs, result, List.length_cons, List.map_cons, List.cons.injEq]
          at returned
        cases returned.1
      · rintro ⟨_, rest, starts, wholes⟩
        obtain ⟨us, vs, rfl, isWhole, -⟩ := wholes_cons_iff.mp wholes
        rw [List.append_assoc] at starts
        exact absurd ⟨us, vs ++ rest, body, starts, isWhole⟩ noProgram
    · obtain ⟨tag, us, isWhole, starts⟩ := parse_eq_ok_iff.mp result
      rw [result] at again
      constructor
      · intro returned
        simp only [Source.programs, result, List.length_cons, List.map_cons, List.cons.injEq]
          at returned
        obtain ⟨isBody, returned⟩ := returned
        cases isBody
        obtain ⟨vs, rest, starts', areWhole⟩ := again.mp returned
        exact ⟨us ++ vs, rest, by rw [starts, starts', List.append_assoc], .cons isWhole areWhole⟩
      · rintro ⟨_, rest, starts', wholes⟩
        obtain ⟨us', vs, rfl, isWhole', areWhole⟩ := wholes_cons_iff.mp wholes
        have same : us ++ s'.remaining = us' ++ (vs ++ rest) := by
          rw [← starts, starts', List.append_assoc]
        obtain ⟨rfl, isBody⟩ := whole_unique isWhole isWhole' same
        have returned := again.mpr ⟨vs, rest, List.append_cancel_left same, areWhole⟩
        simp only [Source.programs, result, List.length_cons, List.map_cons, returned]
        cases p
        cases tag
        cases isBody
        rfl

end Stream

/-! ## Parsing a token list -/

/-- Parsing accepts exactly the grammar and builds its tree, at every place that a stream over a
token list can come to. A program is returned where one starts, together with the place behind it;
no place starts with two programs; elsewhere there is an error; and parsing on returns the programs
that stand there one after the other. -/
theorem parse_accepts_grammar (ts : List Token) (n : Nat) :
    let s := (Stream.ofTokens ts).after n
    s.remaining <:+ meaningful ts ∧
    (∀ (p : Program) (s' : Stream), s.parse = (.ok p, s') ↔
      p.tag = 0 ∧ ∃ us, Whole us p.statements ∧ s.remaining = us ++ s'.remaining) ∧
    (∀ us us' rest rest' body body', s.remaining = us ++ rest ∧ Whole us body →
      s.remaining = us' ++ rest' ∧ Whole us' body' → us = us' ∧ body = body') ∧
    ((∃ e s', s.parse = (.error e, s')) ↔
      ¬ ∃ us rest body, s.remaining = us ++ rest ∧ Whole us body) ∧
    (∀ bodies : List (List Stmt),
      Source.programs bodies.length s = bodies.map (fun body => .ok { statements := body }) ↔
        ∃ us rest, s.remaining = us ++ rest ∧ Wholes us bodies) := by
  intro s
  have closed : s.final.kind = .eof := by
    rw [Stream.final_after, Stream.final_ofTokens]
  have place : s.remaining <:+ meaningful ts := by
    rw [← Stream.remaining_ofTokens]
    exact Stream.remaining_after n _
  refine ⟨place, fun p s' => Stream.parse_eq_ok_iff, ?_, Stream.parse_eq_error_iff closed,
    fun bodies => Stream.programs_eq_map_ok_iff closed⟩
  rintro us us' rest rest' body body' ⟨starts, isWhole⟩ ⟨starts', isWhole'⟩
  exact whole_unique isWhole isWhole' (starts.symm.trans starts')

/-- Two programs on three lines, the second one empty. -/
def twoPrograms : List Token :=
  [{ kind := .debut, line := 1 }, { kind := .newline, line := 1 },
    { kind := .lire, line := 2 }, { kind := .identifier, text := "x", line := 2 },
    { kind := .newline, line := 2 }, { kind := .fin, line := 3 },
    { kind := .debut, line := 3 }, { kind := .fin, line := 3 }]

theorem parse_accepts_grammar_twoPrograms :
    Source.programs 2 (Stream.ofTokens twoPrograms) =
      [.ok { statements := [.read "x" 2] }, .ok { statements := [] }] := by
  obtain ⟨-, -, -, -, returns⟩ := parse_accepts_grammar twoPrograms 0
  have first : Whole [{ kind := .debut, line := 1 }, { kind := .lire, line := 2 },
      { kind := .identifier, text := "x", line := 2 }, { kind := .fin, line := 3 }]
      [.read "x" 2] :=
    .intro rfl (.cons (.read rfl rfl) .nil) rfl
  have second : Whole [{ kind := .debut, line := 3 }, { kind := .fin, line := 3 }] [] :=
    .intro rfl .nil rfl
  exact (returns [[.read "x" 2], []]).mpr ⟨_, _, rfl, .cons first (.cons second .nil)⟩

end Pseudocode.Parse
