import SlotLanes.Main
import SlotLanes.Files.Tree
import SlotLanes.Text.Lines
import SlotLanes.Proofs.Capacity
import SlotLanes.Proofs.Resolve
import SlotLanes.Proofs.Termination
import SlotLanes.Proofs.Richest
import SlotLanes.Proofs.CycleGuard
import SlotLanes.Proofs.OverCapacity
import SlotLanes.Proofs.HostView
import SlotLanes.Proofs.Delimited
import SlotLanes.Proofs.NumberEnds
import SlotLanes.Proofs.Outcome
import SlotLanes.Proofs.TextEnds
import SlotLanes.Proofs.Reading
import SlotLanes.Proofs.Boundaries
import SlotLanes.Proofs.Entries
import SlotLanes.Proofs.ListEnds
import SlotLanes.Proofs.ObjectReadings
import SlotLanes.Proofs.TwoReadings
import SlotLanes.Proofs.TornRead
import SlotLanes.Proofs.Routes
import SlotLanes.Proofs.Freshness
import SlotLanes.Proofs.WorkingSet
import SlotLanes.Proofs.ChildOrder
import SlotLanes.Proofs.Utf8Sequences
import SlotLanes.Proofs.WrittenScalars
import SlotLanes.Proofs.CleanNodes
import SlotLanes.Proofs.WrittenValues
import SlotLanes.Proofs.WrittenTable
import SlotLanes.Proofs.WrittenInventory
import SlotLanes.Proofs.OpaqueDevices
import SlotLanes.Proofs.OutOfReach
import SlotLanes.Proofs.ChildFilter
import SlotLanes.Proofs.Refusals
import SlotLanes.Proofs.CallOrder
import SlotLanes.Proofs.Documents
import SlotLanes.Proofs.TableOutcomes
import SlotLanes.Proofs.DistinctKeys
import SlotLanes.Proofs.Settled
import SlotLanes.Proofs.ConfigGrammar
import SlotLanes.Proofs.InventoryGrammar
import SlotLanes.Proofs.HexTokens
import SlotLanes.Proofs.FirstFailure
import SlotLanes.Proofs.PrintedBytes
import SlotLanes.Proofs.Insertions
