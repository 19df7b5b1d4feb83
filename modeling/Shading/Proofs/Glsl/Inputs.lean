import Shading.Proofs.Glsl.Globals
import Shading.Proofs.Language.Offsets

/-! The inputs that a vertex shader declares are the components that a buffer of vertices holds. -/

namespace Shading.Glsl

/-- An input of a vertex shader: the location it is bound to, the word for its type, and its name. -/
structure Input where
  location : Nat
  type : String
  name : String

/-- The global declaration of an input. -/
def Input.line (input : Input) : String :=
  "layout(location=" ++ input.location.repr ++ ") in " ++ input.type ++ " " ++ input.name ++ ";"

/-- A global declaration that is qualified by a layout, as that of an input is. -/
def isLayoutQualified (line : String) : Bool :=
  "layout(".toList.isPrefixOf line.toList && line.toList.getLast? == some ';'

/-- The number of floats in a vector, by the word for its type. -/
def vectorFloats? : String → Option Nat
  | "vec2" => some 2
  | "vec3" => some 3
  | "vec4" => some 4
  | _ => none

/-- Inputs that read the components of a layout: each one at its place, by its name and as a whole. -/
structure Describes (inputs : List Input) (layout : VertexLayout) : Prop where
  count : inputs.length = layout.components.length
  each : ∀ k component, layout.components[k]? = some component →
    ∃ (input : Input) (floats : Nat), inputs[k]? = some input ∧ input.location = k ∧
      input.name = component.name ∧ vectorFloats? input.type = some floats ∧
      component.size = floats * 4

/-- The inputs for the components of a layout. -/
def inputs (layout : VertexLayout) : List Input :=
  layout.components.mapIdx fun location component =>
    ⟨location, typeWord component.dataType, component.name⟩

variable {rest : List Char} {version : Version} {program : Program} {layout : VertexLayout}
  {converted : Converted}

/-- The bytes of a component are those of the floats in its vector. -/
theorem size_eq_floats (component : VertexComponent) :
    ∃ floats, vectorFloats? (typeWord component.dataType) = some floats ∧
      component.size = floats * 4 := by
  -- Each component is a vector of floats, of four bytes each.
  cases component <;> exact ⟨_, rfl, rfl⟩

/-- The inputs for a layout describe it. -/
theorem describes_inputs (layout : VertexLayout) : Describes (inputs layout) layout where
  count := by rw [inputs, List.length_mapIdx]
  each := by
    intro k component found
    -- The input at a place is made of the component there.
    obtain ⟨floats, vector, size⟩ := size_eq_floats component
    refine ⟨⟨k, typeWord component.dataType, component.name⟩, floats, ?_, rfl, rfl, vector, size⟩
    rw [inputs, List.getElem?_mapIdx, found, Option.map_some]

/-- What is made of the marks of all components is made of their inputs. -/
theorem map_components {α : Type} {ofMarks : List Mark → α} {ofInput : Input → α}
    (same : ∀ location component, ofMarks (located location "in" (componentDeclaration component)) =
      ofInput ⟨location, typeWord component.dataType, component.name⟩) (layout : VertexLayout) :
    (layout.components.mapIdx fun location component =>
      located location "in" (componentDeclaration component)).map ofMarks =
        (inputs layout).map ofInput := by
  -- Both lists are compared place by place, where both have the component there or end.
  refine List.ext_getElem? fun k => ?_
  rw [inputs, List.getElem?_map, List.getElem?_map, List.getElem?_mapIdx, List.getElem?_mapIdx]
  cases layout.components[k]? with
  | none => rfl
  | some component => exact congrArg some (same k component)

/-- The characters of the declaration of an input. -/
theorem Input.toList_line (input : Input) :
    input.line.toList = "layout(location=".toList ++ (input.location.repr.toList ++
      (") in ".toList ++ (input.type.toList ++ ' ' :: (input.name.toList ++ [';'])))) := by
  -- The parts of the declaration are appended in their order.
  unfold Input.line
  simp only [String.toList_append, List.append_assoc]
  rfl

/-- The marks of a component are the declaration of its input. -/
theorem chars_component (location : Nat) (component : VertexComponent) :
    chars (located location "in" (componentDeclaration component)) =
      (Input.line ⟨location, typeWord component.dataType, component.name⟩).toList ++ ['\n'] := by
  -- The marks are spelled out, and so is the declaration.
  rw [Input.toList_line]
  simp [located, qualified, componentDeclaration]

/-- The declaration of an input is qualified by a layout. -/
theorem isLayoutQualified_line (input : Input) : isLayoutQualified input.line = true := by
  -- The declaration starts with the layout and ends with a semicolon.
  rw [isLayoutQualified, Input.toList_line]
  simp [List.getLast?_cons, List.getLast?_append]

section Behind

/-- A list of lines without an empty line behind it, and with one if there are any. -/
theorem chars_paragraph (lines : List (List Mark)) : chars (paragraph lines) =
    lines.flatMap chars ++ if lines.isEmpty then [] else ['\n'] := by
  -- The empty line is written for a list that is not empty.
  have flat : chars lines.flatten = lines.flatMap chars := by
    induction lines with
    | nil => rfl
    | cons l lines ih => simp [ih]
  cases lines with
  | nil => rfl
  | cons l lines => simp [paragraph, ← flat]

/-- The inputs are written one below the other, with an empty line behind them if there are any. -/
theorem chars_inputMarks (layout : VertexLayout) : chars (inputMarks layout) =
    (String.join ((inputs layout).map fun input => input.line ++ "\n")).toList ++
      if layout.isEmpty then [] else ['\n'] := by
  -- The marks of each component are a row, which is an input with its line feed.
  let row : Input → List Char := fun input => (input.line ++ "\n").toList
  have rows : ∀ location component,
      chars (located location "in" (componentDeclaration component)) =
        row ⟨location, typeWord component.dataType, component.name⟩ := by
    intro location component
    rw [chars_component]
    simp only [row, String.toList_append]
    rfl
  rw [inputMarks, chars_paragraph, List.flatMap_def, map_components rows]
  simp [List.flatMap_def, Function.comp_def, VertexLayout.isEmpty, row]

/-- What is right behind the inputs starts with no further one. -/
theorem noLayout_behind (layout : VertexLayout) (varyings : List Declaration) (body : List Statement) :
    StartsIn ['\n', 'f', 'o', 'v'] ((if layout.isEmpty then [] else ['\n']) ++
      (chars (varyingMarks "out" varyings) ++ chars (mainMarks body))) := by
  -- An empty line, a varying or the function is next, whichever is the first that there is.
  have out : "out".toList = 'o' :: "ut".toList := rfl
  have behind := startsIn_varying out (by decide) (startsIn_main body) varyings
  cases layout.isEmpty with
  | true => exact fun c first => List.mem_cons_of_mem _ (behind c first)
  | false => simp [StartsIn]

/-- Right behind the uniforms there are the inputs, and nothing else with a layout is next. -/
theorem exists_behind (version : Version) (program : Program) (body : List Statement) :
    ∃ behind : String, render (vertexMarks version program body) =
        render (versionMarks version ++ uniformMarks program.uniforms) ++
          String.join ((inputs program.layout).map fun input => input.line ++ "\n") ++ behind ∧
      ¬"layout(".toList <+: behind.toList := by
  -- The text is cut behind the inputs, and the rest of it starts with another character.
  refine ⟨String.ofList ((if program.layout.isEmpty then [] else ['\n']) ++
    (chars (varyingMarks "out" program.varyings) ++ chars (mainMarks body))), ?_, ?_⟩
  · apply String.toList_inj.mp
    change chars (vertexMarks version program body) = _
    have header : (render (versionMarks version ++ uniformMarks program.uniforms)).toList =
      chars (versionMarks version ++ uniformMarks program.uniforms) := rfl
    simp [vertexMarks, chars_inputMarks, header]
  · -- Another input would start with the letter that is excluded.
    rintro ⟨rest, same⟩
    have starts := noLayout_behind program.layout program.varyings body
    simp only [String.toList_ofList] at same
    rw [← same] at starts
    exact absurd (starts 'l' rfl) (by decide)

end Behind

section Outside

/-- The declarations with a layout are a kind of their own. -/
theorem isKind_layout : IsKind 'l' isLayoutQualified where
  starts text found := by
    obtain ⟨rest, same⟩ := List.isPrefixOf_iff_prefix.mp (Bool.and_eq_true_iff.mp found).1
    rw [← same]
    rfl
  -- The semicolon is part of the test.
  ends text found := beq_iff_eq.mp (Bool.and_eq_true_iff.mp found).2

/-- The lines of the inputs are their declarations, all of which are qualified by a layout. -/
theorem filter_inputs (layout : VertexLayout) :
    (outerLines (chars (inputMarks layout) ++ rest)).filter isLayoutQualified =
      (inputs layout).map Input.line ++ (outerLines rest).filter isLayoutQualified := by
  -- Each line of the section is that of an input, and all of them pass the test.
  have line : ∀ location component,
      lineText (located location "in" (componentDeclaration component)) =
        Input.line ⟨location, typeWord component.dataType, component.name⟩ :=
    fun location component =>
      (isOneLine_component location component).lineText_eq_iff.mpr (chars_component location component)
  rw [inputMarks, filter_paragraph isKind_layout, map_components line, List.filter_eq_self.mpr]
  · intro text member
    obtain ⟨input, -, rfl⟩ := List.mem_map.mp member
    exact isLayoutQualified_line input
  · -- Each line ends where its text does.
    intro l member
    obtain ⟨location, bound, rfl⟩ := List.mem_mapIdx.mp member
    exact isOneLine_component location _

/-- The global declarations of a vertex shader that are qualified by a layout are its inputs. -/
theorem filter_globals (version : Version) (names : HasInlineNames program) {body : List Statement}
    (found : program.stage? .vertex = some body) :
    (globals version (render (vertexMarks version program body))).filter isLayoutQualified =
      (inputs program.layout).map Input.line := by
  -- Sections of other lines are dropped one by one, from the version to the function.
  have uniforms : ∀ _ : Nat, ∀ d ∈ program.uniforms, IsOneLine (qualified ["uniform"] d) :=
    fun _ d member => isOneLine_qualified (names.uniforms d member) (by simp)
  rw [vertexMarks, List.append_assoc, List.append_assoc, List.append_assoc, globals_render,
    chars_append, uniformMarks, map_eq_mapIdx,
    filter_others isKind_layout (fun _ => isLine_uniform) (by decide) uniforms, chars_append,
    filter_inputs, chars_append,
    filter_varyings isKind_layout rfl (by decide) (by decide) (by simp) names.varyings,
    filter_main isKind_layout (names.balanced found), List.append_nil]

end Outside

/--
A buffer of vertices and the vertex shader that reads it agree on what a vertex is.

In the buffer the components follow each other without gaps and fill the vertex.
Right behind the uniforms, the text declares an input for each component, in the same order.
It is bound to the place of the component, has its name, and is a vector of the floats that it takes.
No other global declaration of the text has a layout, unless a name breaks its line.
-/
theorem inputs_follow_layout (layout : VertexLayout) :
    layout.Packed ∧ ∀ (version : Version) (program : Program) (converted : Converted),
      program.layout = layout → write version program = .ok converted →
      ∃ inputs : List Input, Describes inputs layout ∧
        (∃ behind : String, converted.vertex =
            render (versionMarks version ++ uniformMarks program.uniforms) ++
              String.join (inputs.map fun input => input.line ++ "\n") ++ behind ∧
          ¬"layout(".toList <+: behind.toList) ∧
        (HasInlineNames program →
          (globals version converted.vertex).filter isLayoutQualified = inputs.map Input.line) := by
  -- The packing of the buffer is a law of the layout alone, and the rest is read off the text.
  refine ⟨layout.packed, ?_⟩
  rintro version program converted rfl written
  obtain ⟨body, -, found, -, -, -, text, -⟩ := write_eq_ok written
  refine ⟨inputs program.layout, describes_inputs program.layout, ?_, fun names => ?_⟩
  · rw [text]
    exact exists_behind version program body
  · rw [text]
    exact filter_globals version names found

/-- A component that is repeated has an input and an offset at each of its places. -/
theorem inputs_follow_layout_repeated :
    let layout : VertexLayout := ⟨[.texCoord, .colour, .texCoord]⟩
    let program : Program := { Program.empty "repeated" .empty with
      layout := layout, uniforms := [⟨.mat4, "view"⟩], varyings := [⟨.vec2, "at"⟩]
      vertex := some [.assign (.variable "at") .set (.variable "TexCoord")], fragment := some [] }
    ∃ converted inputs, write {} program = .ok converted ∧ layout.Packed ∧
      layout.offsets = [0, 8, 24] ∧ layout.vertexSize = 32 ∧ Describes inputs layout ∧
      (globals {} converted.vertex).filter isLayoutQualified = inputs.map Input.line := by
  intro layout program
  have written : write {} program = .ok _ := rfl
  have inline : IsInlineName "at" ∧ IsInlineName "view" ∧ IsInlineName "TexCoord" := by
    simp [IsInlineName]
  -- None of the names in the program holds a brace or a line feed.
  have names : HasInlineNames program := by
    refine ⟨by simpa [program] using inline.2.1, by simpa [program] using inline.1, nofun, ?_⟩
    intro stage body found s member
    cases stage with
    | vertex =>
      cases found
      obtain rfl := List.mem_singleton.mp member
      exact .assign trivial (.named inline.1) (.named inline.2.2)
    | fragment =>
      cases found
      cases member
  -- The layout repeats a component, so that three places share two components.
  obtain ⟨packed, texts⟩ := inputs_follow_layout layout
  obtain ⟨inputs, describes, -, lines⟩ := texts {} program _ rfl written
  exact ⟨_, inputs, written, packed, rfl, rfl, describes, lines names⟩

end Shading.Glsl
