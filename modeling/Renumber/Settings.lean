/-! Settings of the forwarder. -/
namespace Renumber

/-- How events are logged. The texts are checked only when logging is set up. -/
structure LogSettings where
  level : String := "info"
  format : String := "pretty"
  /-- Records go to standard output if there is no file. -/
  filePath : Option String := none
  deriving DecidableEq, Repr

/-- Settings of the forwarder. -/
structure Settings where
  /-- How many changes of its offset a track remembers for late packets. -/
  sequenceHistory : UInt64 := 100
  /-- How many tracks may be forwarded at once. Zero sets no limit. -/
  maxStreams : UInt64 := 0
  logging : LogSettings := {}
  deriving DecidableEq, Repr

end Renumber
