import VtableMerge.Observation

/-!
The store of observations by class. The last document to observe a class wins as a whole, and
the store remembers which document that was.
-/
namespace VtableMerge

/-- An observation document: for each class, the observations of its slots in order. -/
abbrev ObservationDocument := List (String × List Observation)

/-- The stored observations of one class and the label of the document they came from. -/
structure StoredClass where
  source : String
  slots : List Observation

/-- How the classes of one document fared. -/
structure IngestCounts where
  accepted : Nat
  dropped : Nat
  replaced : Nat
deriving DecidableEq

/-- Stored classes in order of first arrival, each once. -/
structure ObservationStore where
  classes : List (String × StoredClass)

namespace ObservationStore

def empty : ObservationStore := ⟨[]⟩

def entry? (store : ObservationStore) (name : String) : Option StoredClass :=
  store.classes.lookup name

def get? (store : ObservationStore) (name : String) : Option (List Observation) :=
  (store.entry? name).map StoredClass.slots

def contains (store : ObservationStore) (name : String) : Bool := (store.get? name).isSome

def size (store : ObservationStore) : Nat := store.classes.length

def isEmpty (store : ObservationStore) : Bool := store.classes.isEmpty

/-- Puts a class at its old place, or at the end when it has none. -/
def put (name : String) (entry : StoredClass) :
    List (String × StoredClass) → List (String × StoredClass)
  | [] => [(name, entry)]
  | (key, old) :: rest =>
    if key == name then (name, entry) :: rest else (key, old) :: put name entry rest

/-- Stores the normalized observations of a class in place of any earlier ones, and gives the
label of the document these came from. -/
def insertClass (store : ObservationStore) (name : String) (slots : List Observation)
    (source : String) : ObservationStore × Option String :=
  (⟨put name ⟨source, slots.map Observation.normalized⟩ store.classes⟩,
    (store.entry? name).map StoredClass.source)

/-- Stores the classes of a document that are known, in order. -/
def ingest (known : String → Bool) (source : String) :
    ObservationDocument → ObservationStore → ObservationStore × IngestCounts
  | [], store => (store, ⟨0, 0, 0⟩)
  | (name, slots) :: rest, store =>
    if known name then
      let (stored, previous) := store.insertClass name slots source
      let (final, counts) := ingest known source rest stored
      (final, { counts with
        accepted := counts.accepted + 1
        replaced := counts.replaced + if previous.isSome then 1 else 0 })
    else
      let (final, counts) := ingest known source rest store
      (final, { counts with dropped := counts.dropped + 1 })

end ObservationStore

end VtableMerge
