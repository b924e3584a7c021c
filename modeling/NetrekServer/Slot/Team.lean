/-
`change_team_quietly` of `ntserv/util.c`, on shared memory and the queues: a player who joins a team is counted in its
queue from then on.
-/
import NetrekServer.Queue.Basic
import NetrekServer.Struct

namespace Netrek

open Queue (PQueue quPickup quHome quAway)

/-- `change_team_quietly`. -/
def Memory.changeTeamQuietly (m : Memory) (queues : Nat → PQueue) (k : Slot) (ours theirs : Word) :
    Memory × (Nat → PQueue) :=
  let addFree (queues : Nat → PQueue) (q : Nat) (n : Int) :=
    Function.update queues q { queues q with freeSlots := (queues q).freeSlots + n }
  let old := (m.players k).wQueue
  let (m, queues) :=
    if old ≠ quPickup ∧ ours ≠ nobody then
      let queue := if ours = fed then quHome else quAway
      (m.modifyPlayer k fun p => { p with wQueue := queue }, addFree (addFree queues old 1) queue (-1))
    else (m, queues)
  (m.modifyPlayer k fun p => p.joinTeam k ours theirs, queues)

end Netrek
