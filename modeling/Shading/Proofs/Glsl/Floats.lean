import Shading.Proofs.Binary32.Fewest
import Shading.Proofs.Glsl.Literals
import Shading.Proofs.Lexer.Words

/-! Floats survive being written: their literals are read back, and none ends earlier. -/

namespace Shading.Glsl

open Cursor

variable {x : Binary32} {whole fraction : List Char}

/-- A float is written as its literal. -/
theorem render_float (x : Binary32) : render (exprMarks (.float x)) = floatLiteral x := by
  -- The marks of a float are a single token.
  simp [render, exprMarks, Mark.text]

/-- A written float is a source of one word. -/
theorem tokenize_floatLiteral (finite : x.isFinite = true) (unsigned : x.isNegative = false) :
    tokenize (floatLiteral x) = .ok [⟨.float (floatLiteral x) x, 1⟩, ⟨.endOfFile, 1⟩] := by
  -- Nothing stands behind the literal, so the end of the source is next.
  have read : Cursor.next ⟨(floatLiteral x).toList ++ [], 1⟩ = _ :=
    next_floatLiteral finite unsigned nofun
  rw [List.append_nil] at read
  exact tokenize_eq_ok (.single read rfl)

/-- No digits around a point that are read as a number end before its literal does. -/
theorem places_le (read : Binary32.ofDecimal? (.ofParts whole fraction) = some x) :
    (-x.shortest.exponent).toNat ≤ fraction.length := by
  by_cases zero : x.units = 0
  · -- Zero is written without a digit behind the point.
    have noPlaces : x.shortest = ⟨0, 0⟩ := if_pos zero
    rw [noPlaces]
    exact Nat.zero_le _
  · have least := Binary32.exponent_le_shortest read zero
    have places : (Decimal.ofParts whole fraction).exponent = -fraction.length := rfl
    omega

/--
Every float literal that is read is written as a literal that is read as the same float.

Again it is made of digits, a point and digits, so that it has neither a sign nor an exponent.
No other literal of the float has fewer digits behind its point.
-/
theorem floats_survive {source text : String} {tokens : List Token} {x : Binary32} {line : Nat}
    (read : tokenize source = .ok tokens) (member : ⟨.float text x, line⟩ ∈ tokens) :
    let written := render (exprMarks (.float x))
    tokenize written = .ok [⟨.float written x, 1⟩, ⟨.endOfFile, 1⟩] ∧
      ∃ whole fraction : List Char, written = String.ofList (whole ++ '.' :: fraction) ∧
        whole ≠ [] ∧ (∀ c ∈ whole, c.isDigit = true) ∧ (∀ c ∈ fraction, c.isDigit = true) ∧
        ∀ whole' fraction' : List Char,
          Binary32.ofDecimal? (.ofParts whole' fraction') = some x →
          fraction.length ≤ fraction'.length := by
  -- What is read is finite and has no sign.
  obtain ⟨finite, unsigned⟩ := tokenize_valid read _ member
  obtain ⟨whole, fraction, literal, nonempty, digits, digits', -, places⟩ :=
    floatLiteral_parts finite unsigned
  simp only [render_float]
  refine ⟨tokenize_floatLiteral finite unsigned, whole, fraction, literal, nonempty, digits, digits',
    fun whole' fraction' same => ?_⟩
  rw [places]
  exact places_le same

/-- The smallest float survives, from a literal that is nearer to it than to zero. -/
theorem floats_survive_smallest :
    let source := "0.0000000000000000000000000000000000000000000010"
    let smallest : Binary32 := ⟨1⟩
    let written := render (exprMarks (.float smallest))
    let words : List Token := [⟨.float source smallest, 1⟩, ⟨.endOfFile, 1⟩]
    tokenize source = .ok words ∧ ⟨.float source smallest, 1⟩ ∈ words ∧
      tokenize written = .ok [⟨.float written smallest, 1⟩, ⟨.endOfFile, 1⟩] := by
  -- The literal has more digits than it needs, so it is read by evaluation.
  have read : tokenize "0.0000000000000000000000000000000000000000000010" =
      .ok [⟨.float "0.0000000000000000000000000000000000000000000010" ⟨1⟩, 1⟩,
        ⟨.endOfFile, 1⟩] := by
    decide +kernel
  exact ⟨read, List.mem_cons_self, (floats_survive read List.mem_cons_self).1⟩

end Shading.Glsl
