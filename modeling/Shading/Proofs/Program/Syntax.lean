import Shading.Proofs.Grammar.Accepts

/-! Define sets have no part in syntax errors: they decide only what is declared before one. -/

namespace Shading

/-- A fault in the characters of a source or in the order of its words, and not in what it declares. -/
def ParseError.IsSyntax : ParseError → Prop
  | .lexical _ | .grammar _ => True
  | .declaration _ => False

namespace Program

/-- The first fault in the characters of a source or in the order of its words, if there is one. -/
def syntaxFault? (source : String) : Option ParseError :=
  match tokenize source with
  | .error fault => some (.lexical fault)
  | .ok tokens =>
    match (Source.sourceItems maxNesting tokens).rest with
    | .error fault => some (.grammar fault)
    | .ok _ => none

/-- The outcome of reading a source: a declaration at fault, its syntax error, or a program. -/
theorem parse_cases (name : String) (defines : Defines) (source : String) :
    (∃ fault, parse name defines source = .error (.declaration fault)) ∨
      (∃ fault, syntaxFault? source = some fault ∧ parse name defines source = .error fault) ∨
      syntaxFault? source = none ∧ ∃ program, parse name defines source = .ok program := by
  unfold syntaxFault?
  cases cut : tokenize source with
  | error fault =>
    -- Without words nothing is declared.
    refine .inr (.inl ⟨_, rfl, ?_⟩)
    unfold parse
    rw [cut]
    rfl
  | ok tokens =>
    rw [Grammar.parse_eq_ofTokens cut, Grammar.ofTokens_eq]
    dsimp only
    -- What was completed is declared first; only then does the end of the reading count.
    cases Draft.declareAll ⟨.empty name defines, false⟩
        (activeItems defines.isDefined (Source.sourceItems maxNesting tokens).completed) with
    | error fault => exact .inl ⟨fault, rfl⟩
    | ok draft =>
      cases (Source.sourceItems maxNesting tokens).rest with
      | error fault => exact .inr (.inl ⟨_, rfl, rfl⟩)
      | ok rest => exact .inr (.inr ⟨rfl, _, rfl⟩)

/--
Syntax errors are the same under all define sets.

A source with a syntax error under one define set is a program under none.
Under every other one it has that very error, unless a declaration before it is at fault.
-/
theorem parse_syntaxError {name source : String} {defines : Defines} {error : ParseError}
    (failed : parse name defines source = .error error) (isSyntax : error.IsSyntax)
    (name' : String) (defines' : Defines) :
    parse name' defines' source = .error error ∨
      ∃ fault, parse name' defines' source = .error (.declaration fault) := by
  -- The error is the one that the source has without any define set.
  have found : syntaxFault? source = some error := by
    rcases parse_cases name defines source with
      ⟨fault, same⟩ | ⟨fault, found, same⟩ | ⟨-, program, same⟩
    · rw [failed] at same
      cases same
      cases isSyntax
    · rw [failed] at same
      cases same
      exact found
    · rw [failed] at same
      cases same
  -- The other define set has no part in the syntax error, but a declaration may fail before it.
  rcases parse_cases name' defines' source with
    declared | ⟨fault, found', same⟩ | ⟨none, -⟩
  · exact .inr declared
  · rw [found] at found'
    cases found'
    exact .inl same
  · rw [found] at none
    cases none

/-- A missing name is missed under all define sets but those under which a name before it is repeated. -/
theorem parse_syntaxError_region :
    let parseUnder := fun defines => parse "region" defines
      "ifdef twice \x7b uniform int a; uniform int a; \x7d uniform float ;"
    let missing : ParseError := .grammar ⟨1, .unexpected .name (.symbol .semicolon)⟩
    parseUnder .empty = .error missing ∧
      parseUnder (Defines.empty.define "once") = .error missing ∧
      parseUnder (Defines.empty.define "twice") = .error (.declaration ⟨1, .duplicateUniform "a"⟩) := by
  -- The errors are those of two names that are equal, and of a name that is missing.
  have failed : parse "region" .empty
      "ifdef twice \x7b uniform int a; uniform int a; \x7d uniform float ;" =
        .error (.grammar ⟨1, .unexpected .name (.symbol .semicolon)⟩) := rfl
  have others := parse_syntaxError failed trivial "region"
  refine ⟨failed, ?_, ?_⟩
  · rcases others (Defines.empty.define "once") with same | ⟨fault, declared⟩
    · exact same
    · cases declared
  · -- Here the region counts, and its second name is refused before the missing one is reached.
    rcases others (Defines.empty.define "twice") with same | ⟨fault, declared⟩
    · cases same
    · exact declared.trans (congrArg _ (congrArg _ (by cases declared; rfl)))

end Program

end Shading
