import NetrekServer.Lib.Run
import NetrekServer.Lib.DList
import NetrekServer.Queue.Basic
import NetrekServer.Queue.Invariant
import NetrekServer.Queue.Reach
import NetrekServer.Lib.Ring
import NetrekServer.Uplink.Basic
import NetrekServer.Uplink.Delivery
import NetrekServer.Lib.Buffer
import NetrekServer.Socket.Framing
import NetrekServer.Socket.Segmentation
import NetrekServer.Struct
import NetrekServer.Text
import NetrekServer.Dock.Bay
import NetrekServer.Request.Interface
import NetrekServer.Request.Message
import NetrekServer.Request.Bounds
import NetrekServer.Request.Ping
import NetrekServer.Lib.Binary
import NetrekServer.Server
import NetrekServer.Daemon.Damage
import NetrekServer.Daemon.Death
import NetrekServer.Daemon.Torps
import NetrekServer.Daemon.Blast
import NetrekServer.Daemon.Explode
import NetrekServer.Weapons.Launch
import NetrekServer.Weapons.Phaser
import NetrekServer.Conquer
import NetrekServer.Enter
import NetrekServer.Lib.Pool
import NetrekServer.Weapons.Account
import NetrekServer.Weapons.Counted
import NetrekServer.Weapons.Runs
import NetrekServer.Weapons.Play
import NetrekServer.Slot.Account
import NetrekServer.Slot.Vote
import NetrekServer.Stats.Convert
import NetrekServer.Lib.Exclusive
import NetrekServer.Outfit.Entry
import NetrekServer.Outfit.Starbase
import NetrekServer.Lib.Cells
import NetrekServer.Socket.Output
import NetrekServer.Socket.Integrity
import NetrekServer.Draft.Update
import NetrekServer.Draft.Turns
import NetrekServer.Draft.Safety
import NetrekServer.Inl.Command
import NetrekServer.Inl.Game
import NetrekServer.Inl.Race
import NetrekServer.Inl.Clock
import NetrekServer.Inl.Period
import NetrekServer.Inl.Timely
import NetrekServer.Inl.Sides
import NetrekServer.Inl.Genocide
import NetrekServer.Inl.Captain
import NetrekServer.Newstartd.Basic
import NetrekServer.Newstartd.Children
import NetrekServer.Socket.Fat
import NetrekServer.Socket.FatQueue
import NetrekServer.Socket.Repeat
import NetrekServer.Lib.Shuffle
import NetrekServer.Planet.Populate
import NetrekServer.Lib.Circle
import NetrekServer.Motion.Helm
import NetrekServer.Motion.Turning
import NetrekServer.Empire.Conquest
import NetrekServer.Motion.Walls
import NetrekServer.Empire.Clock
import NetrekServer.Inl.Rescue
import NetrekServer.Lib.Nearest
import NetrekServer.Daemon.Tracking
import NetrekServer.Daemon.Sight
import NetrekServer.Inl.Trade
import NetrekServer.Inl.Lockstep
import NetrekServer.Inl.Independence
import NetrekServer.Database.Findplayer
import NetrekServer.Request.Rate
import NetrekServer.Slot.Refusal
import NetrekServer.Socket.Gwrite
import NetrekServer.Empire.Winners
import NetrekServer.Balance.Teams
import NetrekServer.Bans.Permanent
import NetrekServer.Outfit.TournamentMask
import NetrekServer.Balance.Optimal
import NetrekServer.Distress.Macro
import NetrekServer.Distress.Reader
import NetrekServer.Distress.Safety
import NetrekServer.Weapons.Cost
import NetrekServer.Bans.Cidr
import NetrekServer.Planet.Home
import NetrekServer.Newstartd.Portfile
import NetrekServer.Daemon.Repair
import NetrekServer.Inl.Announce
import NetrekServer.Lib.Boxed
import NetrekServer.Stats.Totals
import NetrekServer.Weapons.Target
import NetrekServer.Draft.Ranks
import NetrekServer.Meta.Solicit
import NetrekServer.Lib.Search
import NetrekServer.Slot.Host
import NetrekServer.Lib.Redraw
import NetrekServer.Planet.Resources
import NetrekServer.Beam.Basic
import NetrekServer.Beam.Frame
import NetrekServer.Beam.Turn
import NetrekServer.Beam.Account
import NetrekServer.Beam.Circle
import NetrekServer.War.Masks
import NetrekServer.War.Keeps
import NetrekServer.War.Runs
import NetrekServer.Planet.Surrender
import NetrekServer.Planet.Ownership
import NetrekServer.Planet.Reign
import NetrekServer.Queue.Findslot
import NetrekServer.Queue.Fair
import NetrekServer.Lib.Packed
import NetrekServer.Short.Torps
import NetrekServer.Short.Layout
import NetrekServer.Short.Readable
import NetrekServer.Short.Galaxy
import NetrekServer.Short.Coverage
import NetrekServer.Lib.Flags
import NetrekServer.Short.OwnFlags
import NetrekServer.Short.Own
