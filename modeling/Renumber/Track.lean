/-! Names of forwarded tracks. -/
namespace Renumber

/-- The name of a forwarded track. Each track has one numbering of its own. -/
structure TrackId where
  name : String
  deriving DecidableEq, Repr

instance : ToString TrackId := ⟨TrackId.name⟩

end Renumber
