import Shading.Proofs.Glsl.Sections
import Shading.Proofs.Glsl.Statements

/-! What is lost of a program when it is written: the names of calls that GLSL has others for. -/

namespace Shading.Glsl

open Grammar Source

variable {version : Version} {program p q : Program} {a b converted : Converted}

/-- The statements of a block that is checked are checked. -/
theorem checkBlock_eq_ok {stage : Stage} {ss : List Statement} :
    checkBlock stage ss = .ok () ↔ ∀ s ∈ ss, checkStatement stage s = .ok () := by
  -- The check stops at the first statement that fails.
  induction ss with
  | nil => simp [checkBlock]
  | cons s ss ih => simp [checkBlock, bind_eq_ok, Unique.exists_iff, ih]

/-- A statement that is written and passes the checks has no textures among its variables. -/
theorem isLocal_of_checkStatement {limit : Nat} {stage : Stage} {s : Statement}
    (all : s.All (Written limit) IsAssigned IsNamed) (checked : checkStatement stage s = .ok ()) :
    s.All Expr.Valid IsAssigned IsLocal := by
  -- The only thing that is checked of a declaration is that it declares no texture.
  have isLocal : ∀ {d : Declaration} {initial}, IsNamed d →
      checkStatement stage (.declare d initial) = .ok () → IsLocal d := by
    intro d initial named checked
    refine ⟨named, fun texture => ?_⟩
    simp [checkStatement, texture] at checked
  -- The checks go into the blocks of a statement as the statement itself does.
  induction all with
  | declare named => exact .declare (isLocal named checked)
  | initialise named initial => exact .initialise (isLocal named checked) initial.valid
  | assign assignable target value =>
    exact .assign assignable target.valid value.valid
  | evaluate e => exact .evaluate e.valid
  | ifThen condition _ yes =>
    have each := checkBlock_eq_ok.mp checked
    exact .ifThen condition.valid fun s member => yes s member (each s member)
  -- Both blocks were checked.
  | ifThenElse condition _ _ yes no =>
    simp only [checkStatement, bind_eq_ok] at checked
    obtain ⟨_, checkedYes, checkedNo⟩ := checked
    have each := checkBlock_eq_ok.mp checkedYes
    have eachOther := checkBlock_eq_ok.mp checkedNo
    exact .ifThenElse condition.valid (fun s member => yes s member (each s member))
      fun s member => no s member (eachOther s member)
  | discard => exact .discard
  | leave => exact .leave

/-- A block of a program that passes the checks is read back. -/
theorem blockReads_of_parse {name source : String} {defines : Defines} {stage : Stage}
    {body : List Statement} (parsed : Program.parse name defines source = .ok program)
    (found : program.stage? stage = some body) (checked : checkBlock stage body = .ok ()) :
    BlockReads body := by
  -- What was read gives valid expressions, and what was checked has no local textures.
  have all := (all_of_parse parsed).stages stage body found
  have each := checkBlock_eq_ok.mp checked
  exact blockReads fun s member =>
    statementReads (isLocal_of_checkStatement (all s member) (each s member))

/-- Blocks that are written alike are read back alike, so they are alike but for called names. -/
theorem renamed_of_compound {ss ss' : List Statement} (reads : BlockReads ss)
    (reads' : BlockReads ss')
    (same : chars (compound (blockMarks ss)) = chars (compound (blockMarks ss'))) :
    mapExprsAll Expr.renamed ss = mapExprsAll Expr.renamed ss' := by
  obtain ⟨words, room, cuts, spans, -⟩ := reads.compound
  obtain ⟨words', room', cuts', spans', -⟩ := reads'.compound
  have nothing : NoBlock [] := by simp [NoBlock]
  -- One text is cut into words in one way.
  let source ss := String.ofList (asSource (chars (compound (blockMarks ss))))
  have cut : tokenize (source ss) = .ok (words ++ _) :=
    tokenize_eq_ok (by simpa [source, Reads, asSource] using cuts [] nothing)
  have cut' : tokenize (source ss') = .ok (words' ++ _) :=
    tokenize_eq_ok (by simpa [source, Reads, asSource] using cuts' [] nothing)
  have sameSource : source ss = source ss' := by simp only [source, same]
  rw [sameSource, cut'] at cut
  obtain rfl : words' = words := List.append_cancel_right (Except.ok.inj cut)
  -- With levels enough for both, the words are read as one block.
  have block := ((spans []).mono (Nat.le_max_left room room')).completes
  have block' := ((spans' []).mono (Nat.le_max_right room room')).completes
  simp only [BodyPhrase.Completes] at block block'
  rw [block] at block'
  exact renamed_of_sourceForms (Prod.mk.inj (Except.ok.inj block')).1

/-- A program that is written has both stages, which pass the checks, and its texts hold them. -/
theorem write_eq_ok (written : write version program = .ok converted) : ∃ vertex fragment,
    program.stage? .vertex = some vertex ∧ program.stage? .fragment = some fragment ∧
      checkBlock .vertex vertex = .ok () ∧ checkBlock .fragment fragment = .ok () ∧
      converted.vertex = render (vertexMarks version program vertex) ∧
      converted.fragment = render (fragmentMarks version program fragment) := by
  have stage : ∀ {stage body},
      stageBody program stage = .ok body → program.stage? stage = some body := by
    intro stage body found
    unfold stageBody at found
    split at found
    · rename_i body' present
      cases found
      exact present
    · cases found
  -- A step that fails ends the writing, so all of them have succeeded.
  simp only [write, bind_eq_ok, pure_eq_ok] at written
  -- What is checked between the bodies and the texts has no part in the texts.
  obtain ⟨vertex, foundVertex, fragment, foundFragment, _, -, _, -, _, checkedVertex, _,
    checkedFragment, rfl⟩ := written
  exact ⟨vertex, fragment, stage foundVertex, stage foundFragment, checkedVertex, checkedFragment,
    rfl, rfl⟩

/-- Programs that are alike but for the names that GLSL has others for in calls. -/
structure AlikeButCalls (p q : Program) : Prop where
  layout : p.layout = q.layout
  uniforms : p.uniforms = q.uniforms
  varyings : p.varyings = q.varyings
  outputs : p.outputs = q.outputs
  vertex : p.vertex.map (mapExprsAll Expr.renamed) = q.vertex.map (mapExprsAll Expr.renamed)
  fragment : p.fragment.map (mapExprsAll Expr.renamed) = q.fragment.map (mapExprsAll Expr.renamed)

/--
Writing loses nothing but the names of calls that GLSL has others for.

Programs that are written alike for one version have the same declarations in the same order,
and bodies that become equal when calls are named as they are in GLSL.
-/
theorem write_cancel {name name' source source' : String} {defines defines' : Defines}
    (parsed : Program.parse name defines source = .ok p)
    (parsed' : Program.parse name' defines' source' = .ok q)
    (written : write version p = .ok a) (written' : write version q = .ok b)
    (sameVertex : a.vertex = b.vertex) (sameFragment : a.fragment = b.fragment) :
    AlikeButCalls p q := by
  obtain ⟨vertex, fragment, hasVertex, hasFragment, checkedVertex, checkedFragment, textVertex,
    textFragment⟩ := write_eq_ok written
  obtain ⟨vertex', fragment', hasVertex', hasFragment', checkedVertex', checkedFragment',
    textVertex', textFragment'⟩ := write_eq_ok written'
  -- Both programs were parsed, so that their names are names of the language.
  have all := all_of_parse parsed
  have all' := all_of_parse parsed'
  have names : ∀ {ds : List Declaration}, (∀ d ∈ ds, IsNamed d) → ∀ d ∈ ds, HasName d :=
    fun named d member => (named d member).isName
  -- The sections in front of the functions tell them apart, and leave the functions.
  have same : chars (vertexMarks version p vertex) = chars (vertexMarks version q vertex') := by
    rw [chars, chars, ← textVertex, ← textVertex', sameVertex]
  obtain ⟨uniforms, layout, varyings, mainVertex⟩ := vertexMarks_cancel (names all.uniforms)
    (names all'.uniforms) (names all.varyings) (names all'.varyings) same
  have same : chars (fragmentMarks version p fragment) =
      chars (fragmentMarks version q fragment') := by
    rw [chars, chars, ← textFragment, ← textFragment', sameFragment]
  obtain ⟨outputs, mainFragment⟩ := fragmentMarks_cancel uniforms varyings (names all.outputs)
    (names all'.outputs) same
  -- The functions are read back from what is left.
  have bodyVertex := renamed_of_compound (blockReads_of_parse parsed hasVertex checkedVertex)
    (blockReads_of_parse parsed' hasVertex' checkedVertex') mainVertex
  have bodyFragment := renamed_of_compound (blockReads_of_parse parsed hasFragment checkedFragment)
    (blockReads_of_parse parsed' hasFragment' checkedFragment') mainFragment
  simp only [Program.stage?] at hasVertex hasVertex' hasFragment hasFragment'
  refine ⟨layout, uniforms, varyings, outputs, ?_, ?_⟩
  · rw [hasVertex, hasVertex', Option.map_some, Option.map_some, bodyVertex]
  · rw [hasFragment, hasFragment', Option.map_some, Option.map_some, bodyFragment]

/-- A program that samples a texture by one name is written like one that does by the other. -/
theorem write_cancel_sample :
    let source := "uniform texture2D t; vertex \x7b if (on) \x7b x = sample(t, p); \x7d " ++
      "else \x7b return; \x7d \x7d fragment \x7b discard; \x7d"
    let source' := "uniform texture2D t; vertex \x7b if (on) \x7b x = texture(t, p); \x7d " ++
      "else \x7b return; \x7d \x7d fragment \x7b discard; \x7d"
    let program (name call : String) := { Program.empty name .empty with
      uniforms := [⟨.texture2D, "t"⟩]
      vertex := some [.ifThenElse (.variable "on")
        [.assign (.variable "x") .set (.call call [.variable "t", .variable "p"])] [.leave]]
      fragment := some [.discard] }
    let p := program "first" "sample"
    let q := program "second" "texture"
    ∃ a b, Program.parse "first" .empty source = .ok p ∧
      Program.parse "second" .empty source' = .ok q ∧
      write {} p = .ok a ∧ write {} q = .ok b ∧ a.vertex = b.vertex ∧ a.fragment = b.fragment ∧
      p.vertex ≠ q.vertex ∧ AlikeButCalls p q := by
  -- Both sources are closed, so they are parsed and written by evaluation.
  intro source source' program p q
  have parsed : Program.parse "first" .empty source = .ok p := by
    simp only [source]
    rfl
  have parsed' : Program.parse "second" .empty source' = .ok q := by
    simp only [source']
    rfl
  -- Both names of the call are written as the same one.
  have written : write {} p = .ok _ := rfl
  have written' : write {} q = .ok _ := rfl
  have differ : p.vertex ≠ q.vertex := by simp [p, q, program]
  exact ⟨_, _, parsed, parsed', written, written', rfl, rfl, differ,
    write_cancel parsed parsed' written written' rfl rfl⟩

end Shading.Glsl
