import Shading.Glsl.Writer
import Shading.Proofs.Grammar.Heads
import Shading.Proofs.Language.Preorder

/-! Writing fails exactly on what GLSL cannot express, and reports the first such thing. -/

namespace Shading.Glsl

/-- Something that GLSL asks of a program. -/
inductive Requirement
  /-- There is a stage of this kind. -/
  | present (stage : Stage)
  /-- Values of the declared type can be passed on from a stage. -/
  | passable (role : Role) (declared : Declaration)
  /-- A variable of a body is no texture. -/
  | untextured (declared : Declaration)
  /-- A stage whose body holds a `discard` is one that can be given up. -/
  | discardable (stage : Stage)

namespace Requirement

/-- A program meets a requirement. -/
def isMet (program : Program) : Requirement → Bool
  | present stage => (program.stage? stage).isSome
  | passable _ declared => declared.type != .bool && declared.type != .texture2D
  | untextured declared => declared.type != .texture2D
  | discardable stage => stage == .fragment

/-- The error about a requirement that is not met. -/
def fault : Requirement → WriteError
  | present stage => .missingStage stage
  | passable role declared => .unsupportedConstruct (.interface role declared)
  | untextured declared => .unsupportedConstruct (.localTexture declared.name)
  | discardable _ => .unsupportedConstruct .discardInVertexStage

/-- The words for the stage, the declaration or the construct that a requirement is about. -/
def subject : Requirement → String
  | present stage => stage.name ++ " stage"
  | passable role declared =>
    declared.type.keyword ++ " " ++ role.describe ++ " `" ++ declared.name ++ "`"
  | untextured declared => "local " ++ declared.type.keyword ++ " `" ++ declared.name ++ "`"
  | discardable stage => "discard in " ++ stage.name ++ " stage"

/-- What a statement of a stage requires in itself, apart from the statements nested in it. -/
def ofStatement? (stage : Stage) : Statement → Option Requirement
  | .declare declaration _ => some (.untextured declaration)
  | .discard => some (.discardable stage)
  | .assign .. | .evaluate _ | .ifThen .. | .ifThenElse .. | .leave => none

/-- What a body of a stage requires at every depth, in the order of its statements. -/
def ofBody (stage : Stage) (body : List Statement) : List Requirement :=
  (preorderAll body).filterMap (ofStatement? stage)

/-- All that GLSL requires of a program: stages come first, then declarations, then bodies. -/
def ofProgram (program : Program) : List Requirement :=
  [.present .vertex, .present .fragment] ++ program.varyings.map (.passable .varying) ++
    program.outputs.map (.passable .output) ++
    ofBody .vertex (program.vertex.getD []) ++ ofBody .fragment (program.fragment.getD [])

/-- The error about the first requirement that is not met, with words that say what it is about. -/
def FirstUnmet (program : Program) (error : WriteError) : Prop :=
  ∃ before requirement after, ofProgram program = before ++ requirement :: after ∧
    (∀ earlier ∈ before, earlier.isMet program = true) ∧ requirement.isMet program = false ∧
    error = requirement.fault ∧ ∃ front, error.message = front ++ requirement.subject

variable {program : Program}

/-- Checks requirements one after the other, up to the first that is not met. -/
def check (program : Program) : List Requirement → Except WriteError Unit
  | [] => .ok ()
  | requirement :: more =>
    if requirement.isMet program then check program more else .error requirement.fault

/-- The requirements in front are checked before those behind them. -/
theorem check_append (before after : List Requirement) :
    check program (before ++ after) = check program before >>= fun _ => check program after := by
  -- Checking goes from the front to the end, and a requirement that is not met ends it.
  induction before with
  | nil => rfl
  | cons requirement before ih =>
    rw [List.cons_append, check, check]
    split
    · exact ih
    · rfl

/-- Nothing is wrong when every requirement is met. -/
theorem check_eq_ok {requirements : List Requirement} :
    check program requirements = .ok () ↔ ∀ r ∈ requirements, r.isMet program = true := by
  -- Each requirement is met or ends the check with its fault.
  induction requirements with
  | nil => simp [check]
  | cons requirement more ih =>
    rw [check, List.forall_mem_cons]
    cases met : requirement.isMet program <;> simp [ih]

/-- What is wrong is said of the first requirement that is not met. -/
theorem check_eq_error {requirements : List Requirement} {error : WriteError} :
    check program requirements = .error error ↔
      ∃ before requirement after, requirements = before ++ requirement :: after ∧
        (∀ earlier ∈ before, earlier.isMet program = true) ∧ requirement.isMet program = false ∧
        error = requirement.fault := by
  constructor
  · intro failed
    induction requirements with
    | nil => cases failed
    | cons requirement more ih =>
      rw [check] at failed
      cases met : requirement.isMet program with
      | true =>
        rw [met] at failed
        obtain ⟨before, first, after, rfl, fine, unmet, same⟩ := ih failed
        exact ⟨requirement :: before, first, after, rfl, List.forall_mem_cons.mpr ⟨met, fine⟩,
          unmet, same⟩
      | false =>
        -- Nothing behind the first one is looked at.
        rw [met] at failed
        cases failed
        exact ⟨[], requirement, more, rfl, by simp, met, rfl⟩
  · rintro ⟨before, requirement, after, rfl, fine, unmet, rfl⟩
    -- Back again, what comes before the requirement passes, and it is the next to be checked.
    rw [check_append, check_eq_ok.mpr fine, Grammar.ok_bind, check, unmet]
    rfl

/-- The error about a requirement that is not met says what this is about. -/
theorem subject_of_unmet {requirement : Requirement} (unmet : requirement.isMet program = false) :
    ∃ front, requirement.fault.message = front ++ requirement.subject := by
  cases requirement with
  | present stage => exact ⟨"no ", String.append_assoc⟩
  | passable role declared => exact ⟨"unsupported construct: ", rfl⟩
  | untextured declared =>
    -- The only type that is refused is the one that the message has.
    have texture : declared.type = .texture2D := by simpa [isMet] using unmet
    refine ⟨"unsupported construct: ", ?_⟩
    rw [subject, texture]
    rfl
  -- Only a vertex stage may not discard.
  | discardable stage =>
    cases stage with
    | vertex => exact ⟨"unsupported construct: ", rfl⟩
    | fragment => cases unmet

end Requirement

open Requirement

variable (program : Program)

/-- Declarations in a role are checked for whether their values can be passed on. -/
theorem checkInterfaces_eq (role : Role) (declarations : List Declaration) :
    declarations.forM (checkInterface role) = check program (declarations.map (.passable role)) := by
  induction declarations with
  | nil => rfl
  | cons declared more ih =>
    change checkInterface role declared >>= (fun _ => more.forM (checkInterface role)) = _
    rw [ih, List.map_cons, check]
    obtain ⟨type, name⟩ := declared
    -- Which types are refused is the same for both.
    cases type <;> rfl

mutual

/-- A statement is checked for what it and the statements nested in it require. -/
theorem checkStatement_eq (stage : Stage) (s : Statement) :
    checkStatement stage s = check program (s.preorder.filterMap (ofStatement? stage)) := by
  -- Structural along the statement, together with its blocks.
  match s with
  | .declare declaration _ =>
    obtain ⟨type, name⟩ := declaration
    cases type <;> rfl
  | .assign .. | .evaluate _ | .leave => rfl
  | .ifThen _ yes => exact checkBlock_eq stage yes
  | .ifThenElse condition yes no =>
    -- The statement itself requires nothing, so its blocks are all there is.
    have blocks : (Statement.ifThenElse condition yes no).preorder.filterMap (ofStatement? stage) =
        ofBody stage yes ++ ofBody stage no := List.filterMap_append
    rw [checkStatement, checkBlock_eq stage yes, checkBlock_eq stage no, blocks, check_append]
  | .discard => cases stage <;> rfl

/-- A block is checked for what its statements require, in their order. -/
theorem checkBlock_eq (stage : Stage) (body : List Statement) :
    checkBlock stage body = check program (ofBody stage body) := by
  -- The requirements of a statement are those of its preorder, in front of the others.
  match body with
  | [] => rfl
  | s :: rest =>
    have parts : ofBody stage (s :: rest) =
        s.preorder.filterMap (ofStatement? stage) ++ ofBody stage rest := List.filterMap_append
    rw [checkBlock, checkStatement_eq stage s, checkBlock_eq stage rest, parts, check_append]

end

/-- The body of a stage is there when the stage is required to be. -/
theorem stageBody_eq (stage : Stage) :
    stageBody program stage =
      check program [.present stage] >>= fun _ => .ok ((program.stage? stage).getD []) := by
  -- Where the stage is missing, its requirement fails with the same fault.
  rw [stageBody, check, isMet, fault]
  split
  next found => rw [found]; rfl
  next missing => rw [missing]; rfl

/-- A program is written when it meets all requirements, which are checked in their order. -/
theorem write_eq_check (version : Version) :
    ∃ converted, write version program =
      check program (ofProgram program) >>= fun _ => .ok converted := by
  -- The requirements are listed in the order in which the steps of writing check them.
  refine ⟨⟨.glsl, render (vertexMarks version program (program.vertex.getD [])),
    render (fragmentMarks version program (program.fragment.getD [])), ⟨program.uniforms⟩⟩, ?_⟩
  have stages : [Requirement.present .vertex, .present .fragment] =
      [.present .vertex] ++ [.present .fragment] := rfl
  simp only [write, stageBody_eq, checkBlock_eq program, ofProgram, stages, check_append,
    checkInterfaces_eq program, bind_assoc, Grammar.ok_bind, Grammar.pure_eq, Program.stage?]

/-- A program that GLSL can express, in its stages, its declarations and its statements at every depth. -/
structure IsExpressible (program : Program) : Prop where
  stages : ∀ stage, ∃ body, program.stage? stage = some body
  varyings : ∀ d ∈ program.varyings, d.type ≠ .bool ∧ d.type ≠ .texture2D
  outputs : ∀ d ∈ program.outputs, d.type ≠ .bool ∧ d.type ≠ .texture2D
  locals : ∀ d initial, program.Contains (.declare d initial) → d.type ≠ .texture2D
  discards : ∀ body, program.vertex = some body → .discard ∉ preorderAll body

/-- A body meets what is required of it when it has no local texture and no `discard` out of place. -/
theorem met_ofBody {stage : Stage} {body : List Statement} :
    (∀ r ∈ ofBody stage body, r.isMet program = true) ↔
      (∀ d initial, .declare d initial ∈ preorderAll body → d.type ≠ .texture2D) ∧
      (.discard ∈ preorderAll body → stage = .fragment) := by
  constructor
  · intro met
    constructor
    · intro d initial member
      -- Each statement of the preorder adds its own requirement to the list.
      have required : untextured d ∈ ofBody stage body := List.mem_filterMap.mpr ⟨_, member, rfl⟩
      simpa [isMet] using met _ required
    · intro member
      have required : discardable stage ∈ ofBody stage body :=
        List.mem_filterMap.mpr ⟨_, member, rfl⟩
      simpa [isMet] using met _ required
  · rintro ⟨locals, discards⟩ r required
    obtain ⟨t, member, asked⟩ := List.mem_filterMap.mp required
    -- Only declarations and `discard` ask for anything.
    cases t with
    | declare d initial =>
      cases asked
      simpa [isMet] using locals d initial member
    | discard =>
      cases asked
      simpa [isMet] using discards member
    | assign | evaluate | ifThen | ifThenElse | leave => cases asked

/-- Declarations meet what is required of them when no type is refused between stages. -/
theorem met_passable {role : Role} {declarations : List Declaration} :
    (∀ r ∈ declarations.map (passable role), r.isMet program = true) ↔
      ∀ d ∈ declarations, d.type ≠ .bool ∧ d.type ≠ .texture2D := by
  -- The requirement is about the type of the declaration alone.
  simp [isMet]

/-- The programs that meet all requirements are those that GLSL can express. -/
theorem met_ofProgram : (∀ r ∈ ofProgram program, r.isMet program = true) ↔ IsExpressible program := by
  -- Each list of requirements is told by what it asks for.
  simp only [ofProgram, List.forall_mem_append, met_ofBody, met_passable, mem_preorderAll_getD]
  constructor
  · -- Every stage is required once, and the locals of both stages are those of the program.
    rintro ⟨⟨⟨⟨present, varyings⟩, outputs⟩, vertexLocals, discards⟩, fragmentLocals, -⟩
    refine ⟨fun stage => ?_, varyings, outputs, ?_, fun body found member => ?_⟩
    · have required : (Requirement.present stage).isMet program = true :=
        present _ (by cases stage <;> simp)
      exact Option.isSome_iff_exists.mp required
    · rintro d initial ⟨stage, body, found, member⟩
      cases stage with
      | vertex => exact vertexLocals d initial ⟨body, found, member⟩
      | fragment => exact fragmentLocals d initial ⟨body, found, member⟩
    · cases discards ⟨body, found, member⟩
  · intro expressible
    refine ⟨⟨⟨⟨?_, expressible.varyings⟩, expressible.outputs⟩, ?_, ?_⟩, ?_, fun _ => trivial⟩
    · -- Back again, each requirement is one of the five properties.
      have present : ∀ stage, (Requirement.present stage).isMet program = true := fun stage =>
        Option.isSome_iff_exists.mpr (expressible.stages stage)
      simp [present]
    · exact fun d initial contained => expressible.locals d initial ⟨.vertex, contained⟩
    · rintro ⟨body, found, member⟩
      exact absurd member (expressible.discards body found)
    · exact fun d initial contained => expressible.locals d initial ⟨.fragment, contained⟩

/--
Writing succeeds on the programs that GLSL can express, and otherwise says what is first in the way.

Stages that are missing come first, then varyings and outputs whose types are refused, and then the
statements of the vertex stage and those of the fragment stage, at every depth.
-/
theorem write_firstUnmet (version : Version) :
    ((∃ converted, write version program = .ok converted) ↔ IsExpressible program) ∧
      ∀ error, write version program = .error error ↔ FirstUnmet program error := by
  -- What the texts are has no part in whether there are any.
  obtain ⟨converted, written⟩ := write_eq_check program version
  rw [written, ← met_ofProgram, ← check_eq_ok]
  constructor
  · constructor
    · rintro ⟨_, succeeded⟩
      obtain ⟨⟨⟩, met, -⟩ := Grammar.bind_eq_ok.mp succeeded
      exact met
    · intro met
      exact ⟨converted, by rw [met]; rfl⟩
  · intro error
    -- Making the texts cannot fail, so that every error is one of the check.
    have failed : (check program (ofProgram program) >>= fun _ => .ok converted) = .error error ↔
        check program (ofProgram program) = .error error := by
      cases check program (ofProgram program) <;> simp [bind, Except.bind]
    rw [failed, check_eq_error]
    constructor
    · rintro ⟨before, requirement, after, parts, fine, unmet, rfl⟩
      exact ⟨before, requirement, after, parts, fine, unmet, rfl, subject_of_unmet unmet⟩
    · rintro ⟨before, requirement, after, parts, fine, unmet, same, -⟩
      exact ⟨before, requirement, after, parts, fine, unmet, same⟩

/-- A `discard` behind `else if` is met before a texture that stands behind the whole statement. -/
example (condition : Expr) :
    let body := [.ifThenElse condition [] [.ifThen condition [.discard]],
      .declare ⟨.texture2D, "image"⟩ none]
    write {} { Program.empty "order" .empty with vertex := some body, fragment := some [.discard] } =
      .error (.unsupportedConstruct .discardInVertexStage) := rfl

end Shading.Glsl
