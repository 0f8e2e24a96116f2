import Subscript.Location
import Subscript.Logging
import Subscript.Id

/-!
# What a lowering reports

Besides its result a lowering leaves a list of events: the operands it was asked to lower, the
candidates it announced for embedding, the arguments it had to fill in, and news for the log.
-/

namespace Subscript

open Logging (Level)

/-- Something that happened during a lowering. -/
inductive Event where
  /-- an operand of the access was lowered -/
  | operand (place : Location)
  /-- a candidate of a dynamic access was announced, so that its metadata can be embedded -/
  | embed (declaringType : TypeId) (candidate : SymbolId) (site : Location)
  /-- a parameter took its default -/
  | defaulted (parameter : String) (site : Location)
  /-- a parameter collected arguments into an array -/
  | packed (parameter : String) (count : Nat) (site : Location)
  /-- an indexed property was read ahead of its indexing -/
  | indexedProperty (name : String)
  /-- a dynamic receiver was fetched through an indexed property -/
  | dynamicProperty (name : String)
  /-- arguments were bound because their order changes -/
  | spilling (count : Nat)
  /-- an index pattern was lowered -/
  | indexPattern (bindings : Nat)
  /-- a range pattern was lowered -/
  | rangePattern (bindings : Nat)
  /-- the code of an access, in one line -/
  | printed (site : Location) (line : String)
  /-- an access was lowered -/
  | finished (site : Location) (allocated : UInt32)
  deriving DecidableEq, Repr

/-- The log record of an event, where it has one. -/
def Event.record? : Event → Option (Level × String)
  | .operand _ | .embed _ _ _ | .defaulted _ _ | .packed _ _ _ => none
  | .indexedProperty name => some (.debug, "indexed property " ++ name ++ " read before indexing")
  | .dynamicProperty name =>
    some (.trace, "dynamic receiver through indexed property `" ++ name ++ "`")
  | .spilling count => some (.trace, "spilling " ++ toString count ++ " reordered arguments")
  | .indexPattern bindings =>
    some (.debug, "index pattern lowered with " ++ toString bindings ++ " bindings")
  | .rangePattern bindings =>
    some (.debug, "range pattern lowered with " ++ toString bindings ++ " bindings")
  | .printed site line => some (.trace, "lowered " ++ site.text ++ ": " ++ line)
  | .finished site allocated =>
    some (.debug, "lowered access at " ++ site.text ++ " (" ++ toString allocated.toNat ++
      " temporaries allocated so far)")

end Subscript
