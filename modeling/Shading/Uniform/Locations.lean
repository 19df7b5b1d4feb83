/-! Locations of uniforms, asked for once each. -/

namespace Shading

/-- The answers to the names asked for so far; a name may be known to have no location. -/
structure UniformLocations (Location : Type) where
  known : List (String × Option Location) := []

namespace UniformLocations

variable {Location : Type}

/-- What is known of a name: nothing, that it has no location, or its location. -/
def known? (locations : UniformLocations Location) (name : String) : Option (Option Location) :=
  locations.known.lookup name

/-- The outcome of a request: the answer, what is known after it, and whether a look-up was needed. -/
structure Answer (Location : Type) where
  location : Option Location
  locations : UniformLocations Location
  lookedUp : Bool

/-- The location of a name, looked up only if the name was never asked for. -/
def getOrLookup (locations : UniformLocations Location) (name : String)
    (lookup : String → Option Location) : Answer Location :=
  match locations.known? name with
  | some location => ⟨location, locations, false⟩
  | none => ⟨lookup name, ⟨(name, lookup name) :: locations.known⟩, true⟩

/-- The number of names asked for. -/
def size (locations : UniformLocations Location) : Nat :=
  locations.known.length

/-- No name was asked for yet. -/
def isEmpty (locations : UniformLocations Location) : Bool :=
  locations.known.isEmpty

end UniformLocations

end Shading
