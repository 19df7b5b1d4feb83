import Shading.Language.VertexLayout

/-! The components of a vertex follow each other in a buffer without gaps, and fill the vertex. -/

namespace Shading.VertexLayout

variable {layout : VertexLayout} {component : VertexComponent} {k : Nat}

/-- The bytes that the components before a place take, as they do in a vertex without the others. -/
def bytesBefore (layout : VertexLayout) (k : Nat) : Nat :=
  vertexSize ⟨layout.components.take k⟩

/-- A component takes up to four numbers. -/
theorem size_le (component : VertexComponent) : component.size ≤ 16 := by
  -- The largest component is a vector of four numbers of four bytes.
  cases component <;> decide

/-- A vertex takes the bytes of all its components. -/
theorem vertexSize_eq (layout : VertexLayout) :
    layout.vertexSize = layout.bytesBefore layout.components.length := by
  -- All components are before the place behind the last one.
  rw [bytesBefore, List.take_length]

/-- The first component is before every place but the first. -/
theorem bytesBefore_cons (component : VertexComponent) (rest : List VertexComponent) (k : Nat) :
    bytesBefore ⟨component :: rest⟩ (k + 1) = component.size + bytesBefore ⟨rest⟩ k :=
  -- The first component is summed first.
  rfl

/-- One component more takes its size more. -/
theorem bytesBefore_succ (found : layout.components[k]? = some component) :
    layout.bytesBefore (k + 1) = layout.bytesBefore k + component.size := by
  obtain ⟨components⟩ := layout
  induction components generalizing k with
  | nil => cases found
  | cons first rest ih =>
    rw [bytesBefore_cons]
    cases k with
    | zero =>
      -- Nothing is before the first component.
      obtain rfl : first = component := Option.some.inj found
      exact Nat.add_comm _ _
    | succ k => rw [bytesBefore_cons, ih found, Nat.add_assoc]

/-- Every component has an offset. -/
theorem length_offsetsFrom (start : Nat) (components : List VertexComponent) :
    (offsetsFrom start components).length = components.length := by
  -- Each offset stands for the component at its place.
  induction components generalizing start with
  | nil => rfl
  | cons component rest ih => rw [offsetsFrom, List.length_cons, ih, List.length_cons]

/-- Each component starts where those before it end. -/
theorem getElem?_offsetsFrom (start : Nat) (components : List VertexComponent) (k : Nat) :
    (offsetsFrom start components)[k]? =
      components[k]?.map fun _ => start + bytesBefore ⟨components⟩ k := by
  induction components generalizing start k with
  | nil => rfl
  | cons component rest ih =>
    cases k with
    | zero => rfl
    | succ k =>
      -- For the rest, the first component is among what comes before it.
      simp [offsetsFrom, ih, bytesBefore_cons, Nat.add_assoc]

/-- There are as many offsets as components. -/
theorem length_offsets (layout : VertexLayout) :
    layout.offsets.length = layout.components.length :=
  -- Offsets start at zero, which has no part in their number.
  length_offsetsFrom 0 layout.components

/-- The offset of a component is the size of all that is before it. -/
theorem getElem?_offsets (layout : VertexLayout) (k : Nat) :
    layout.offsets[k]? = layout.components[k]?.map fun _ => layout.bytesBefore k := by
  -- The sum starts at zero, so that nothing is added to it.
  simp [offsets, getElem?_offsetsFrom]

/-- The offsets of a layout put its components one behind the other, up to the end of the vertex. -/
structure Packed (layout : VertexLayout) : Prop where
  count : layout.offsets.length = layout.components.length
  first : layout.components ≠ [] → layout.offsets[0]? = some 0
  next : ∀ k component offset following, layout.components[k]? = some component →
    layout.offsets[k]? = some offset → layout.offsets[k + 1]? = some following →
    following = offset + component.size
  last : ∀ component offset, layout.components.getLast? = some component →
    layout.offsets.getLast? = some offset → layout.vertexSize = offset + component.size
  /-- Words of 64 bits hold the offsets of fewer than `2 ^ 60` components. -/
  bounded : layout.vertexSize ≤ 16 * layout.components.length

/-- Every layout puts its components one behind the other, even if it repeats some. -/
theorem packed (layout : VertexLayout) : layout.Packed where
  count := layout.length_offsets
  first := by
    intro nonempty
    have first : 0 < layout.components.length := List.length_pos_iff.mpr nonempty
    rw [getElem?_offsets, List.getElem?_eq_getElem first]
    rfl
  -- The components up to one and this one itself are those before the next one.
  next := by
    intro k component offset following found starts follows
    rw [getElem?_offsets, found] at starts
    obtain ⟨_, -, rfl⟩ := Option.map_eq_some_iff.mp ((layout.getElem?_offsets _).symm.trans follows)
    rw [bytesBefore_succ found, ← Option.some.inj starts]
  last := by
    intro component offset found starts
    -- The last offset stands at the same place as the last component.
    rw [List.getLast?_eq_getElem?] at found starts
    rw [length_offsets, getElem?_offsets, found] at starts
    have one : layout.components.length - 1 + 1 = layout.components.length := by
      obtain ⟨inside, -⟩ := List.getElem?_eq_some_iff.mp found
      omega
    rw [vertexSize_eq, ← one, bytesBefore_succ found, ← Option.some.inj starts]
  -- Each component adds at most as much as the bound does.
  bounded := by
    rw [vertexSize]
    induction layout.components with
    | nil => exact Nat.le_refl 0
    | cons component rest ih =>
      have small := size_le component
      simp only [List.foldr_cons, List.length_cons]
      omega

end Shading.VertexLayout
