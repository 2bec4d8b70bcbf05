import Cartridge.Game.Fixed
import Cartridge.Main
import Cartridge.Memory.Field
import Cartridge.Route.Navigator
import Cartridge.Script.Cache
import Cartridge.Proofs.Memory.LittleEndian
import Cartridge.Proofs.Memory.Mapped
import Cartridge.Proofs.Script.Coverage
import Cartridge.Proofs.Script.SameState
import Cartridge.Proofs.Script.Replay
import Cartridge.Proofs.Script.Ending
import Cartridge.Proofs.Script.Unread
import Cartridge.Proofs.Script.Answers
import Cartridge.Proofs.Route.Shortest
import Cartridge.Proofs.Route.WellFormed
import Cartridge.Proofs.Route.Memory
import Cartridge.Proofs.Route.Journey
import Cartridge.Proofs.Walk.Complete
import Cartridge.Proofs.Script.Frame
import Cartridge.Proofs.Script.Bracket
import Cartridge.Proofs.Walk.Verdict
import Cartridge.Proofs.Walk.Span
import Cartridge.Proofs.Walk.Whole
import Cartridge.Proofs.Walk.Price
import Cartridge.Proofs.Walk.Small
import Cartridge.Proofs.Walk.Cheapest
import Cartridge.Proofs.Script.Limits
import Cartridge.Proofs.Listing.Closure
import Cartridge.Proofs.Route.Arrival
import Cartridge.Proofs.Walk.Links
import Cartridge.Proofs.Route.BorderRun
import Cartridge.Proofs.Route.Person
import Cartridge.Proofs.Script.Encoding
import Cartridge.Proofs.Script.Memo
import Cartridge.Proofs.Route.BothSides
import Cartridge.Proofs.Memory.Store
import Cartridge.Proofs.Actor.Snapshot
import Cartridge.Proofs.World.Tiles
import Cartridge.Proofs.World.Placed
import Cartridge.Proofs.Game.PersonFlag
import Cartridge.Proofs.Game.SaveBlock
import Cartridge.Proofs.Memory.Record
