/-
`ntserv/bay.c`: the docking bays of a starbase. A docked ship records the base and the bay, and
the base records the ship in the bay.
-/
import Mathlib.Data.List.FinRange
import NetrekServer.Struct

namespace Netrek.Dock

/-- Put a ship in a bay, or vacate it. -/
def setBay (p : Player) (i : Fin numBays) (ship : Option Slot) : Player :=
  { p with bays := Function.update p.bays i ship }

/-- `bay_release`. -/
def bayRelease (m : Memory) (me : Slot) : Memory :=
  let p := m.players me
  if p.flags.has pfDock then
    (m.modifyPlayer p.dockWith fun b => setBay b p.dockBay none).modifyPlayer me fun p => p.clearFlags pfDock
  else m

/-- One bay of `bay_release_all`. -/
def bayReleaseOne (base : Slot) (m : Memory) (i : Fin numBays) : Memory :=
  match (m.players base).bays i with
  | none => m
  | some pl => (m.modifyPlayer base fun b => setBay b i none).modifyPlayer pl fun p => p.clearFlags pfDock

/-- `bay_release_all`. -/
def bayReleaseAll (m : Memory) (base : Slot) : Memory := (List.finRange numBays).foldl (bayReleaseOne base) m

end Netrek.Dock
