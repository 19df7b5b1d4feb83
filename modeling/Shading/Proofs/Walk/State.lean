import Shading.Language.TokenStream
import Shading.Program.Parse

/-! Reading with a state: a cursor on the words, a count of levels and a switch, all three shared. -/

namespace Shading

namespace Walk

/-- The readers whose calls are kept a record of. -/
inductive Call
  | item | conditional | region | block | statement | localDeclaration | selection
  | expression | binary | unary | suffixed | arguments
deriving DecidableEq

/-- What a call shares with its caller. -/
structure Frame where
  position : Nat
  active : Bool
  depth : Nat
deriving DecidableEq

/-- A call that is over: what it found, what it left and whether it succeeded. -/
structure Visit where
  call : Call
  entry : Frame
  exit : Frame
  succeeded : Bool
deriving DecidableEq

/-- All that the readers of a source share. -/
structure State where
  stream : TokenStream
  draft : Draft
  /-- Whether declarations count, which they do not within a region that is not taken. -/
  active : Bool := true
  /-- The levels that were entered and are not left yet. -/
  depth : Nat := 0
  /-- The most levels that were ever entered at once. -/
  deepest : Nat := 0
  /-- The top-level parts that were begun. -/
  rounds : Nat := 0
  /-- The calls that are over, the last one first. -/
  visits : List Visit := []

namespace State

/-- The words from the cursor on. -/
def words (state : State) : List Token :=
  state.stream.tokens.toList.drop state.stream.position

/-- What a call that begins or ends here shares with its caller. -/
def frame (state : State) : Frame :=
  ⟨state.stream.position, state.active, state.depth⟩

/-- The state one level deeper. -/
def deeper (state : State) : State :=
  { state with
    depth := state.depth + 1
    deepest := max state.deepest (state.depth + 1) }

end State

end Walk

/-- Reading that may fail with an error, or give no answer at all when it goes on beyond a limit. -/
def Walk (α : Type) : Type :=
  -- The state that a failure leaves is kept, since what was left there matters as well.
  Walk.State → Option (Except ParseError α × Walk.State)

namespace Walk

instance : Monad Walk where
  pure value := fun state => some (.ok value, state)
  bind first next := fun state =>
    match first state with
    | some (.ok value, state) => next value state
    | some (.error error, state) => some (.error error, state)
    | none => none

variable {α β : Type}

/-- What follows a reader that succeeds goes on in the state that it leaves. -/
theorem bind_of_ok {first : Walk α} {next : α → Walk β} {value : α} {s s' : State}
    (done : first s = some (.ok value, s')) : (first >>= next) s = next value s' := by
  -- The first reader decides which branch is taken.
  simp only [Bind.bind, done]

/-- Nothing follows a reader that fails. -/
theorem bind_of_error {first : Walk α} {next : α → Walk β} {error : ParseError} {s s' : State}
    (failed : first s = some (.error error, s')) :
    (first >>= next) s = some (.error error, s') := by
  -- The first reader decides which branch is taken.
  simp only [Bind.bind, failed]

/-- Goes on beyond a limit, which no reading of a source should do. -/
def stuck : Walk α := fun _ => none

/-- Moves the cursor to the next word, if there is one. -/
def advance : Walk Unit := fun state =>
  some (.ok (), { state with stream := state.stream.advance })

/-- Asks something of the word at the cursor. -/
def looking (ask : List Token → β) : Walk β := fun state =>
  -- Only that word is handed on, so that nothing behind it can be asked about.
  some (.ok (ask [state.stream.current]), state)

/-- Asks something of the word behind the one at the cursor. -/
def peeking (ask : List Token → β) : Walk β := fun state =>
  some (.ok (ask [state.stream.peek 1]), state)

/-- Whether more than the end of the source is left. -/
def hasMore : Walk Bool := fun state => some (.ok state.stream.hasMore, state)

/-- Faults the word at the cursor. -/
def fault (cause : Token → GrammarError.Cause) : Walk α := fun state =>
  let token := state.stream.current
  some (.error (.grammar ⟨token.line, cause token⟩), state)

/-- Faults the word at the cursor for not being what is expected. -/
def unexpected (expected : Expectation) : Walk α :=
  fault fun token => .unexpected expected token.lexeme

/-- The levels that were entered and are not left yet. -/
def depth : Walk Nat := fun state => some (.ok state.depth, state)

/-- Reads one level deeper, unless there is no level left, and comes back in any case. -/
def nested (inner : Walk α) : Walk α := fun state =>
  if maxNesting ≤ state.depth then fault (fun _ => .tooDeep) state
  -- A failure is passed on only once the level is left.
  else (inner state.deeper).map fun (result, state) =>
    (result, { state with depth := state.depth - 1 })

/-- Reads a region that may not be taken, and puts the switch back if that succeeds. -/
def gated (taken : Bool) (inner : Walk α) : Walk α := fun state =>
  match inner { state with active := state.active && taken } with
  | some (.ok value, after) => some (.ok value, { after with active := state.active })
  -- A failure leaves the switch as it is.
  | failure => failure

/-- Reads a region that may not be taken, and puts the switch back in any case. -/
def gatedAlways (taken : Bool) (inner : Walk α) : Walk α := fun state =>
  (inner { state with active := state.active && taken }).map fun (result, after) =>
    (result, { after with active := state.active })

/-- Keeps a record of a call. -/
def visiting (call : Call) (inner : Walk α) : Walk α := fun state =>
  (inner state).map fun (result, after) =>
    let visit := ⟨call, state.frame, after.frame, result.isOk⟩
    (result, { after with visits := visit :: after.visits })

/-- Runs a loop, of which every round should take a word. -/
def looping (loop : Nat → Walk α) : Walk α := fun state =>
  -- The round that takes no word, and so ends the loop, is counted as well.
  loop (state.stream.tokens.size + 1) state

/-- Counts a round of the outermost loop. -/
def countRound : Walk Unit := fun state =>
  some (.ok (), { state with rounds := state.rounds + 1 })

/-- Declares a part of the source if declarations count. -/
def declare (item : Item (List Statement)) : Walk Unit := fun state =>
  -- Outside of the regions that are taken nothing is declared, so that nothing clashes.
  if state.active then
    match state.draft.declare item with
    | .ok draft => some (.ok (), { state with draft })
    | .error error => some (.error (.declaration error), state)
  else some (.ok (), state)

/-- Passes a symbol. -/
def pass (symbol : Symbol) : Walk Unit := do
  if ← looking (Source.startsWith symbol) then advance
  else unexpected (.symbol symbol)

/-- Reads an identifier that is not reserved. -/
def name (expected : Expectation) : Walk String := do
  match (← looking Source.headToken).lexeme with
  | .identifier name =>
    if isReserved name then unexpected expected
    else
      advance
      return name
  | _ => unexpected expected

/-- Reads a data type. -/
def dataType : Walk DataType := do
  match (← looking Source.headToken).lexeme with
  | .identifier name =>
    match DataType.ofKeyword? name with
    | some type =>
      advance
      return type
    | none => fault fun _ => .unknownDataType name
  | _ => unexpected .dataType

end Walk

end Shading
