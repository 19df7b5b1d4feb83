import Mathlib.Data.Finset.Card
import Mathlib.Data.List.Induction
import Shading.Uniform.Locations

/-! Runs of requests for locations: the first request for a name settles what it is answered. -/

namespace Shading.UniformLocations

variable {Location : Type}

/-- A request for the location of a name, with the look-up that may be made for it. -/
structure Request (Location : Type) where
  name : String
  lookup : String → Option Location

/-- The outcome of a request. -/
def Request.ask (request : Request Location) (locations : UniformLocations Location) :
    Answer Location :=
  locations.getOrLookup request.name request.lookup

/-- What is known after a run of requests. -/
def after (locations : UniformLocations Location) (run : List (Request Location)) :
    UniformLocations Location :=
  run.foldl (fun known request => (request.ask known).locations) locations

/-- The names for which there is an answer, the latest first. -/
def names (locations : UniformLocations Location) : List String :=
  locations.known.map Prod.fst

variable {locations : UniformLocations Location} {run : List (Request Location)}
  {request : Request Location} {name : String} {location : Option Location}

/-- A run that continues another one starts where that one ends. -/
@[simp] theorem after_concat (locations : UniformLocations Location)
    (run : List (Request Location)) (request : Request Location) :
    locations.after (run ++ [request]) = (request.ask (locations.after run)).locations := by
  -- The last request is made of what the others left.
  simp [after]

/-- A name that is known is answered from what is known, whatever its look-up would give. -/
theorem ask_known (found : locations.known? request.name = some location) :
    request.ask locations = ⟨location, locations, false⟩ := by
  -- What is found is returned as it is.
  simp only [Request.ask, getOrLookup, found]

/-- A name that is not known is looked up, and the answer is kept in front of the others. -/
theorem ask_unknown (missing : locations.known? request.name = none) :
    request.ask locations = ⟨request.lookup request.name,
      ⟨(request.name, request.lookup request.name) :: locations.known⟩, true⟩ := by
  -- What is not found is the only thing that is looked up.
  simp only [Request.ask, getOrLookup, missing]

/-- Nothing is known of the names for which there is no answer. -/
theorem known?_eq_none_iff : locations.known? name = none ↔ name ∉ locations.names := by
  unfold known? names
  induction locations.known with
  | nil => simp
  | cons pair known ih =>
    obtain ⟨other, answer⟩ := pair
    -- The first answer under a name is the one that is found.
    by_cases same : name = other
    · simp [same]
    · have differs : (name == other) = false := by simpa using same
      simp [List.lookup_cons, differs, ih, same]

/-- A request settles its own name where nothing was known of it, and leaves all other names. -/
theorem known?_ask (locations : UniformLocations Location) (request : Request Location)
    (name : String) :
    (request.ask locations).locations.known? name = (locations.known? name).or
      (if request.name = name then some (request.lookup name) else none) := by
  -- Only a name of which nothing is known changes what is known.
  cases known : locations.known? request.name with
  | some location =>
    rw [ask_known known]
    -- What was known stays, so that the look-up of the request does not count.
    by_cases same : request.name = name
    · subst same
      simp [known]
    · simp [same]
  | none =>
    rw [ask_unknown known]
    by_cases same : request.name = name
    · subst same
      show List.lookup request.name (_ :: locations.known) = _
      simp [known]
    · have differs : (name == request.name) = false := by simpa using Ne.symm same
      show List.lookup name (_ :: locations.known) = (locations.known.lookup name).or _
      simp [List.lookup_cons, differs, same]

/-- What is known of a name is what the first request for it was answered by its look-up. -/
theorem known?_after (run : List (Request Location)) (name : String) :
    (after {} run).known? name =
      (run.find? (·.name == name)).map fun first => first.lookup name := by
  -- From the end of the run: the last request counts only if none before it asked for the name.
  induction run using List.reverseRecOn with
  | nil => rfl
  | append_singleton run request ih =>
    rw [after_concat, known?_ask, ih, List.find?_append]
    cases run.find? (·.name == name) with
    | some first => rfl
    | none => by_cases same : request.name = name <;> simp [same]

/-- A request adds its name in front where it is not yet among the names. -/
theorem names_ask (locations : UniformLocations Location) (request : Request Location) :
    (request.ask locations).locations.names =
      if request.name ∈ locations.names then locations.names
      else request.name :: locations.names := by
  -- A name is known exactly when it is among the names.
  by_cases member : request.name ∈ locations.names
  · obtain ⟨location, found⟩ := Option.ne_none_iff_exists'.mp
      (fun missing => known?_eq_none_iff.mp missing member)
    rw [if_pos member, ask_known found]
  · rw [if_neg member, ask_unknown (known?_eq_none_iff.mpr member)]
    rfl

/-- There is one answer for each name of a run, and for no other name. -/
theorem names_after (run : List (Request Location)) :
    (after {} run).names.Nodup ∧
      (after {} run).names.toFinset = (run.map (·.name)).toFinset := by
  -- By the run from its end, as the last request is made of what the others left.
  induction run using List.reverseRecOn with
  | nil => exact ⟨List.nodup_nil, rfl⟩
  | append_singleton run request ih =>
    obtain ⟨nodup, same⟩ := ih
    rw [after_concat, names_ask, List.map_append, List.toFinset_append, ← same]
    split
    · -- The name was asked for before, which leaves the names as they are.
      rename_i member
      refine ⟨nodup, ?_⟩
      rw [Finset.union_eq_left.mpr]
      simpa using member
    · rename_i isNew
      refine ⟨List.nodup_cons.mpr ⟨isNew, nodup⟩, ?_⟩
      simp [Finset.union_comm]

/--
Every name is looked up once, by the first request for it.

A request makes its look-up exactly when no request before it asked for the same name.
It is answered what the look-up of the first one gave, be it a location or none.
There are as many answers as names that were asked for.
-/
theorem lookedUp_once (run : List (Request Location)) (request : Request Location) :
    let locations := after {} run
    let answer := request.ask locations
    (answer.lookedUp = true ↔ ∀ earlier ∈ run, earlier.name ≠ request.name) ∧
      (∃ first, (run ++ [request]).find? (·.name == request.name) = some first ∧
        answer.location = first.lookup request.name) ∧
      (answer.lookedUp = false → ∀ lookup : String → Option Location,
        locations.getOrLookup request.name lookup = answer) ∧
      locations.size = (run.map (·.name)).toFinset.card ∧
      (locations.isEmpty = true ↔ run = []) := by
  dsimp only
  obtain ⟨nodup, same⟩ := names_after run
  -- The answers are counted by their names.
  have count : (after {} run).size = (run.map (·.name)).toFinset.card := by
    rw [← same, List.toFinset_card_of_nodup nodup, names, List.length_map, size]
  have empty : (after {} run).isEmpty = true ↔ run = [] := by
    have none : (after {} run).isEmpty = true ↔ (after {} run).size = 0 := by
      simp [isEmpty, size]
    rw [none, count, Finset.card_eq_zero]
    simp
  have known := known?_after run request.name
  -- Either an earlier request asked for the name, or this one is the first that does.
  cases found : run.find? (·.name == request.name) with
  | some first =>
    rw [found, Option.map_some] at known
    have member := List.mem_of_find?_eq_some found
    have asked : first.name = request.name := by simpa using List.find?_some found
    rw [ask_known known]
    refine ⟨?_, ⟨first, by simp [found], rfl⟩, ?_, count, empty⟩
    · simpa using ⟨first, member, asked⟩
    · -- Any other look-up would not have been made either.
      intro _ lookup
      let other : Request Location := ⟨request.name, lookup⟩
      exact ask_known (show (after {} run).known? other.name = _ from known)
  | none =>
    rw [found, Option.map_none] at known
    rw [ask_unknown known]
    refine ⟨?_, ⟨request, by simp [found], rfl⟩, nofun, count, empty⟩
    simpa using List.find?_eq_none.mp found

end Shading.UniformLocations
