import Shading.Glsl.Writer
import Shading.Proofs.Glsl.Reads

/-! The sections in front of the function of a stage are told apart by their texts. -/

namespace Shading.Glsl

open Cursor

variable {α : Type} {rest rest' : List Char} {starts : List Char} {good : α → Prop}

/-- Runs up to the first character that belongs to none of them are told apart. -/
theorem run_cancel {p : Char → Bool} {run run' : List Char} {c : Char}
    (all : ∀ c ∈ run, p c = true) (all' : ∀ c ∈ run', p c = true) (stop : p c = false)
    (same : run ++ c :: rest = run' ++ c :: rest') : run = run' ∧ rest = rest' := by
  have stops : ∀ {after : List Char}, ∀ d ∈ (c :: after).head?, p d = false := by
    intro after d first
    exact Option.some.inj first ▸ stop
  -- Both runs are all that can be taken from the front of one text.
  obtain ⟨taken, dropped⟩ := takeWhile_run all stops
  obtain ⟨taken', dropped'⟩ := takeWhile_run all' stops
  rw [same] at taken dropped
  exact ⟨taken.symm.trans taken', (List.cons.inj (dropped.symm.trans dropped')).2⟩

/-- The word for a type is made of the characters of names. -/
theorem typeWord_continues (type : DataType) :
    ∀ c ∈ (typeWord type).toList, continuesName c = true := by
  -- There are nine types, and their words are checked one by one.
  cases type <;> exact List.all_eq_true.mp rfl

/-- Different types have different words. -/
theorem typeWord_injective {type type' : DataType} (same : typeWord type = typeWord type') :
    type = type' := by
  -- There are nine types, and their words are compared in pairs.
  cases type <;> cases type' <;> first
    | rfl
    | exact absurd same (by decide)

/-- A declaration is its qualifiers, the word for its type and its name. -/
theorem chars_qualified (qualifiers : List String) (d : Declaration) :
    chars (qualified qualifiers d) =
      chars (qualifiers.flatMap fun qualifier => [.token qualifier, .space]) ++
        ((typeWord d.type).toList ++ ' ' :: (d.name.toList ++ ';' :: ['\n'])) := by
  -- The qualifiers come with a blank behind each of them.
  simp [qualified]

/-- Declarations with the same qualifiers are told apart. -/
theorem qualified_cancel {qualifiers : List String} {d d' : Declaration} (isName : IsName d.name)
    (isName' : IsName d'.name)
    (same : chars (qualified qualifiers d) ++ rest = chars (qualified qualifiers d') ++ rest') :
    d = d' ∧ rest = rest' := by
  simp only [chars_qualified, List.append_assoc, List.append_cancel_left_eq,
    List.cons_append] at same
  -- The type goes up to the blank, and the name up to the semicolon.
  obtain ⟨types, afterType⟩ := run_cancel (typeWord_continues d.type)
    (typeWord_continues d'.type) (by decide) same
  obtain ⟨names, afterName⟩ := run_cancel isName.continues isName'.continues (by decide) afterType
  obtain ⟨type, name⟩ := d
  obtain ⟨type', name'⟩ := d'
  obtain rfl := typeWord_injective (String.toList_inj.mp types)
  obtain rfl := String.toList_inj.mp names
  exact ⟨rfl, by simpa using afterName⟩

/-- Lines that start with one of some characters, and that tell what they are written for apart. -/
structure IsLine (starts : List Char) (good : α → Prop) (line : α → List Mark) : Prop where
  opens : ∀ x, ∃ c more, chars (line x) = c :: more ∧ c ∈ starts
  cancel : ∀ {x y rest rest'}, good x → good y →
    chars (line x) ++ rest = chars (line y) ++ rest' → x = y ∧ rest = rest'

/-- A line is not taken for an empty one. -/
theorem IsLine.ne_feed {line : α → List Mark} (isLine : IsLine starts good line)
    (noFeed : '\n' ∉ starts) (x : α) {more : List Char} :
    '\n' :: rest ≠ chars (line x) ++ more := by
  -- No line starts with a line feed.
  intro empty
  obtain ⟨c, _, opens, member⟩ := isLine.opens x
  rw [opens] at empty
  exact noFeed ((List.cons.inj empty).1 ▸ member)

/-- Lines up to an empty one are told apart. -/
theorem lines_cancel {line : Nat → α → List Mark} (isLine : ∀ i, IsLine starts good (line i))
    (noFeed : '\n' ∉ starts) {xs ys : List α} (goodXs : ∀ x ∈ xs, good x)
    (goodYs : ∀ y ∈ ys, good y)
    (same : chars (xs.mapIdx line).flatten ++ '\n' :: rest =
      chars (ys.mapIdx line).flatten ++ '\n' :: rest') : xs = ys ∧ rest = rest' := by
  -- Along both lists, whose ends show in the empty line that no line is taken for.
  induction xs generalizing line ys with
  | nil =>
    cases ys with
    | nil => exact ⟨rfl, by simpa using same⟩
    | cons y ys =>
      refine absurd same ?_
      simpa using (isLine 0).ne_feed noFeed y
  | cons x xs ih =>
    cases ys with
    | nil =>
      refine absurd same.symm ?_
      simpa using (isLine 0).ne_feed noFeed x
    | cons y ys =>
      obtain ⟨goodX, goodXs⟩ := List.forall_mem_cons.mp goodXs
      obtain ⟨goodY, goodYs⟩ := List.forall_mem_cons.mp goodYs
      simp only [List.mapIdx_cons, List.flatten_cons, chars_append, List.append_assoc] at same
      obtain ⟨first, more⟩ := (isLine 0).cancel goodX goodY same
      -- The lines that remain are written at places one further.
      have later : ∀ i, IsLine starts good (line (i + 1)) := fun i => isLine (i + 1)
      obtain ⟨others, behind⟩ := @ih (fun i => line (i + 1)) later ys goodXs goodYs more
      exact ⟨by rw [first, others], behind⟩

/-- A text starts with one of some characters, unless it is empty. -/
def StartsIn (starts text : List Char) : Prop :=
  ∀ c ∈ text.head?, c ∈ starts

/-- A section, or what follows it where it is empty, starts the text. -/
theorem StartsIn.paragraph {line : Nat → α → List Mark} {others : List Char}
    (startsIn : StartsIn others rest) (isLine : ∀ i, IsLine starts good (line i)) (xs : List α) :
    StartsIn (starts ++ others) (chars (paragraph (xs.mapIdx line)) ++ rest) := by
  intro c first
  -- The first line of a section starts it, and without lines there is nothing in front of the rest.
  cases xs with
  | nil => exact List.mem_append_right _ (startsIn c (by simpa [Glsl.paragraph] using first))
  | cons x xs =>
    obtain ⟨d, more, opens, member⟩ := (isLine 0).opens x
    refine List.mem_append_left _ ?_
    simp only [Glsl.paragraph, List.mapIdx_cons, List.isEmpty_cons, Bool.false_eq_true, if_false,
      List.flatten_cons, chars_append, opens, List.cons_append, List.head?_cons,
      Option.mem_def, Option.some.injEq] at first
    exact first ▸ member

/-- Sections in front of what starts like none of their lines are told apart. -/
theorem paragraph_cancel {line : Nat → α → List Mark} (isLine : ∀ i, IsLine starts good (line i))
    (noFeed : '\n' ∉ starts) {xs ys : List α} (goodXs : ∀ x ∈ xs, good x)
    (goodYs : ∀ y ∈ ys, good y)
    {others : List Char} (ends : StartsIn others rest) (ends' : StartsIn others rest')
    (apart : ∀ c ∈ others, c ∉ starts)
    (same : chars (paragraph (xs.mapIdx line)) ++ rest =
      chars (paragraph (ys.mapIdx line)) ++ rest') : xs = ys ∧ rest = rest' := by
  -- A section that is not empty starts with the first character of its first line.
  have noSection : ∀ {z zs more more'}, StartsIn others more →
      more ≠ chars (paragraph ((z :: zs).mapIdx line)) ++ more' := by
    rintro z zs _ more' startsIn rfl
    obtain ⟨d, more, opens, member⟩ := (isLine 0).opens z
    refine apart d (startsIn d ?_) member
    simp [paragraph, opens]
  -- The two sections are both empty, or neither of them is.
  cases xs with
  | nil =>
    cases ys with
    | nil => exact ⟨rfl, by simpa [paragraph] using same⟩
    | cons y ys => exact absurd (by simpa [paragraph] using same) (noSection ends)
  | cons x xs =>
    cases ys with
    | nil => exact absurd (by simpa [paragraph] using same.symm) (noSection ends')
    | cons y ys =>
      -- Two sections that are not empty both end with an empty line.
      have lines : ∀ (z : α) (zs : List α) (after : List Char),
          chars (paragraph ((z :: zs).mapIdx line)) ++ after =
            chars ((z :: zs).mapIdx line).flatten ++ '\n' :: after := by
        intro z zs after
        simp [paragraph]
      rw [lines, lines] at same
      exact lines_cancel isLine noFeed goodXs goodYs same

/-- Every list is written with its places, even where these do not matter. -/
theorem map_eq_mapIdx {β : Type} (f : α → β) (xs : List α) : xs.map f = xs.mapIdx fun _ => f := by
  -- Nothing depends on the place, so that it can be dropped.
  induction xs with
  | nil => rfl
  | cons x xs ih => rw [List.map_cons, List.mapIdx_cons, ih]

/-- A declaration of a name that is one. -/
def HasName (d : Declaration) : Prop :=
  IsName d.name

/-- Lines of uniforms are told apart. -/
theorem isLine_uniform : IsLine ['u'] HasName (qualified ["uniform"]) :=
  -- All these lines start with the word for uniforms, so they differ by what follows it.
  ⟨fun d => ⟨'u', _, chars_qualified ["uniform"] d, by simp⟩, qualified_cancel⟩

/-- Lines at the same location are told apart. -/
theorem isLine_located (location : Nat) (qualifier : String) :
    IsLine ['l'] HasName (located location qualifier) := by
  refine ⟨fun d => ?_, fun isName isName' same => ?_⟩
  · refine ⟨'l', "ayout".toList ++ chars ((located location qualifier d).tail), ?_, by simp⟩
    simp [located]
  · -- Up to the qualifier, both lines are the same.
    unfold located at same
    simp only [chars_token, chars_space, List.append_assoc, List.append_cancel_left_eq,
      List.cons_append, List.cons.injEq, true_and] at same
    exact qualified_cancel isName isName' same

/-- The names of vertex components are names. -/
theorem hasName_component (component : VertexComponent) :
    HasName (componentDeclaration component) := by
  -- There are six components, and their names are checked one by one.
  cases component <;> exact ⟨⟨_, _, rfl, rfl⟩, List.all_eq_true.mp rfl, by decide, by decide⟩

/-- Lines of vertex components at the same location are told apart. -/
theorem isLine_component (location : Nat) : IsLine ['l'] (fun _ => True)
    fun component => located location "in" (componentDeclaration component) := by
  have isLine := isLine_located location "in"
  refine ⟨fun component => isLine.opens _, ?_⟩
  intro x y _ _ _ _ same
  obtain ⟨declarations, behind⟩ := isLine.cancel (hasName_component x) (hasName_component y) same
  -- A component is known by its name, of which its type is a function.
  have names : x.name = y.name := congrArg Declaration.name declarations
  refine ⟨Option.some.inj ?_, behind⟩
  rw [← VertexComponent.ofName?_name, names, VertexComponent.ofName?_name]

/-- The qualifiers of a varying: integers are not interpolated. -/
def varyingQualifiers (direction : String) (d : Declaration) : List String :=
  if d.type = .int then ["flat", direction] else [direction]

/-- Lines of varyings in a direction are told apart. -/
theorem isLine_varying {direction : String} {first : Char} {more : List Char}
    (spelled : direction.toList = first :: more) (noFlat : first ≠ 'f') :
    IsLine ['f', first] HasName fun d => qualified (varyingQualifiers direction d) d := by
  -- An integer varying is `flat`, and all others start with their direction.
  have flat : ∀ d : Declaration, d.type = .int → ∃ after,
      chars (qualified (varyingQualifiers direction d) d) = 'f' :: after := by
    intro d int
    refine List.head?_eq_some_iff.mp ?_
    simp [varyingQualifiers, int, qualified]
  have plain : ∀ d : Declaration, d.type ≠ .int → ∃ after,
      chars (qualified (varyingQualifiers direction d) d) = first :: after := by
    intro d noInt
    refine List.head?_eq_some_iff.mp ?_
    simp [varyingQualifiers, noInt, qualified, spelled]
  refine ⟨fun d => ?_, ?_⟩
  · by_cases int : d.type = .int
    · obtain ⟨after, opens⟩ := flat d int
      exact ⟨'f', after, opens, by simp⟩
    · obtain ⟨after, opens⟩ := plain d int
      exact ⟨first, after, opens, by simp⟩
  · intro x y _ _ isName isName' same
    -- Whether a varying is an integer shows in the first character.
    have shows : ∀ {d d' : Declaration} {after after' : List Char},
        chars (qualified (varyingQualifiers direction d) d) ++ after =
          chars (qualified (varyingQualifiers direction d') d') ++ after' →
        d.type = .int → d'.type = .int := by
      intro d d' after after' same int
      refine Classical.byContradiction fun noInt => ?_
      obtain ⟨_, opens⟩ := flat d int
      obtain ⟨_, opens'⟩ := plain d' noInt
      rw [opens, opens'] at same
      exact noFlat (List.cons.inj same).1.symm
    have alike : x.type = .int ↔ y.type = .int := ⟨shows same, shows same.symm⟩
    -- Integers or not, both have the same words in front of their types.
    have qualifiers : varyingQualifiers direction x = varyingQualifiers direction y := by
      simp [varyingQualifiers, alike]
    rw [qualifiers] at same
    exact qualified_cancel isName isName' same

section Stages

variable {version : Version} {p q : Program} {body body' : List Statement} {others : List Char}

/-- Uniforms in front of what starts otherwise are told apart. -/
theorem uniformMarks_cancel {ds ds' : List Declaration} (named : ∀ d ∈ ds, HasName d)
    (named' : ∀ d ∈ ds', HasName d) (ends : StartsIn others rest) (ends' : StartsIn others rest')
    (apart : ∀ c ∈ others, c ∉ ['u'])
    (same : chars (uniformMarks ds) ++ rest = chars (uniformMarks ds') ++ rest') :
    ds = ds' ∧ rest = rest' := by
  -- Uniforms are a paragraph of lines with one kind of start.
  rw [uniformMarks, uniformMarks, map_eq_mapIdx, map_eq_mapIdx] at same
  exact paragraph_cancel (fun _ => isLine_uniform) (by decide) named named' ends ends' apart same

/-- Varyings in front of what starts otherwise are told apart. -/
theorem varyingMarks_cancel {direction : String} {first : Char} {more : List Char}
    (spelled : direction.toList = first :: more) (noFlat : first ≠ 'f') (noFeed : first ≠ '\n')
    {ds ds' : List Declaration} (named : ∀ d ∈ ds, HasName d) (named' : ∀ d ∈ ds', HasName d)
    (ends : StartsIn others rest) (ends' : StartsIn others rest')
    (apart : ∀ c ∈ others, c ∉ ['f', first])
    (same : chars (varyingMarks direction ds) ++ rest =
      chars (varyingMarks direction ds') ++ rest') :
    ds = ds' ∧ rest = rest' := by
  -- Varyings are a paragraph of lines with two kinds of start.
  rw [varyingMarks, varyingMarks, map_eq_mapIdx, map_eq_mapIdx] at same
  exact paragraph_cancel (fun _ => isLine_varying spelled noFlat) (by simp [noFeed.symm]) named
    named' ends ends' apart same

/-- The function of a stage starts with the word for its missing result. -/
theorem startsIn_main (body : List Statement) : StartsIn ['v'] (chars (mainMarks body)) := by
  -- Nothing is written in front of the word `void`.
  intro c first
  simpa [mainMarks, eq_comm] using first

/-- Functions of stages are told apart by what they do. -/
theorem mainMarks_cancel (same : chars (mainMarks body) = chars (mainMarks body')) :
    chars (compound (blockMarks body)) = chars (compound (blockMarks body')) := by
  -- The head of the function is the same for all stages.
  simpa [mainMarks] using same

/-- Varyings, or the function behind them, start the text. -/
theorem startsIn_varying {direction : String} {first : Char} {more : List Char}
    (spelled : direction.toList = first :: more) (noFlat : first ≠ 'f')
    (startsIn : StartsIn others rest) (ds : List Declaration) :
    StartsIn (['f', first] ++ others) (chars (varyingMarks direction ds) ++ rest) := by
  -- The varyings are a paragraph, which may be empty.
  rw [varyingMarks, map_eq_mapIdx]
  exact startsIn.paragraph (fun _ => isLine_varying spelled noFlat) ds

/-- Vertex shaders are told apart by all that is written into them. -/
theorem vertexMarks_cancel (uniforms : ∀ d ∈ p.uniforms, HasName d)
    (uniforms' : ∀ d ∈ q.uniforms, HasName d) (varyings : ∀ d ∈ p.varyings, HasName d)
    (varyings' : ∀ d ∈ q.varyings, HasName d)
    (same : chars (vertexMarks version p body) = chars (vertexMarks version q body')) :
    p.uniforms = q.uniforms ∧ p.layout = q.layout ∧ p.varyings = q.varyings ∧
      chars (compound (blockMarks body)) = chars (compound (blockMarks body')) := by
  simp only [vertexMarks, chars_append, List.append_assoc, List.append_cancel_left_eq] at same
  -- Each section is followed by others, whose lines start otherwise.
  have main := startsIn_main body
  have main' := startsIn_main body'
  have out : "out".toList = 'o' :: "ut".toList := rfl
  have behind := startsIn_varying out (by decide) main p.varyings
  have behind' := startsIn_varying out (by decide) main' q.varyings
  obtain ⟨sameUniforms, same⟩ := uniformMarks_cancel uniforms uniforms'
    (behind.paragraph isLine_component p.layout.components)
    (behind'.paragraph isLine_component q.layout.components) (by simp) same
  obtain ⟨sameComponents, same⟩ := paragraph_cancel isLine_component (by decide)
    (fun _ _ => trivial) (fun _ _ => trivial) behind behind' (by simp) same
  obtain ⟨sameVaryings, same⟩ := varyingMarks_cancel out (by decide) (by decide) varyings varyings'
    main main' (by simp) same
  -- With all sections in front of it gone, the function is left.
  exact ⟨sameUniforms, congrArg VertexLayout.mk sameComponents, sameVaryings, mainMarks_cancel same⟩

/-- Fragment shaders are told apart by their outputs and their functions. -/
theorem fragmentMarks_cancel (sameUniforms : p.uniforms = q.uniforms)
    (sameVaryings : p.varyings = q.varyings) (outputs : ∀ d ∈ p.outputs, HasName d)
    (outputs' : ∀ d ∈ q.outputs, HasName d)
    (same : chars (fragmentMarks version p body) = chars (fragmentMarks version q body')) :
    p.outputs = q.outputs ∧
      chars (compound (blockMarks body)) = chars (compound (blockMarks body')) := by
  -- Equal uniforms and varyings are written alike, and only what follows them can differ.
  simp only [fragmentMarks, chars_append, List.append_assoc, sameUniforms, sameVaryings,
    List.append_cancel_left_eq] at same
  obtain ⟨sameOutputs, same⟩ := paragraph_cancel (fun i => isLine_located i "out") (by decide)
    outputs outputs' (startsIn_main body) (startsIn_main body') (by simp) same
  exact ⟨sameOutputs, mainMarks_cancel same⟩

end Stages

end Shading.Glsl
