import PackModels.Atlas.Grid
import PackModels.Atlas.Lookup
import PackModels.Atlas.Sprite
import PackModels.Audit.Arguments
import PackModels.Audit.Report
import PackModels.Audit.Run
import PackModels.Baking.Bake
import PackModels.Baking.BakedModel
import PackModels.Baking.Batch
import PackModels.Baking.Cache
import PackModels.Baking.Draw
import PackModels.Baking.Quad
import PackModels.Binding.Binding
import PackModels.Binding.Condition
import PackModels.Binding.StateFile
import PackModels.Block.Definition
import PackModels.Block.Registry
import PackModels.Decimal.Layout
import PackModels.Decimal.Shortest
import PackModels.Direction
import PackModels.Discovery
import PackModels.Geometry.Face
import PackModels.Geometry.Rotation
import PackModels.Geometry.Vec3
import PackModels.Groups
import PackModels.Id
import PackModels.Item
import PackModels.Json.Decode
import PackModels.Json.Node
import PackModels.Json.Number
import PackModels.Json.Reader
import PackModels.Json.Value
import PackModels.Main
import PackModels.Model.Definition
import PackModels.Model.Display
import PackModels.Model.Element
import PackModels.Model.Slots
import PackModels.Pack.Blocks
import PackModels.Pack.Disk
import PackModels.Pack.FileTree
import PackModels.Pack.Files
import PackModels.Pack.Textures
import PackModels.Proofs.Atlas.Grid
import PackModels.Proofs.Atlas.Tiles
import PackModels.Proofs.Baking.Assemble
import PackModels.Proofs.Baking.Attempts
import PackModels.Proofs.Baking.Bake
import PackModels.Proofs.Baking.Batch
import PackModels.Proofs.Baking.Cache
import PackModels.Proofs.Baking.Calls
import PackModels.Proofs.Baking.Collect
import PackModels.Proofs.Baking.FaceSlots
import PackModels.Proofs.Baking.Getter
import PackModels.Proofs.Baking.Leaves
import PackModels.Proofs.Baking.Misses
import PackModels.Proofs.Baking.Missing
import PackModels.Proofs.Baking.Names
import PackModels.Proofs.Baking.Quads
import PackModels.Proofs.Baking.Shares
import PackModels.Proofs.Baking.Weights
import PackModels.Proofs.Binding.Apart
import PackModels.Proofs.Binding.Closed
import PackModels.Proofs.Binding.Condition
import PackModels.Proofs.Binding.Load
import PackModels.Proofs.Binding.Lookup
import PackModels.Proofs.Binding.Reading
import PackModels.Proofs.Binding.Spell
import PackModels.Proofs.Binding.Taken
import PackModels.Proofs.Block.Answers
import PackModels.Proofs.Block.Fluids
import PackModels.Proofs.Block.Growth
import PackModels.Proofs.Block.Inferred
import PackModels.Proofs.Block.Keys
import PackModels.Proofs.Block.Layout
import PackModels.Proofs.Block.Mentions
import PackModels.Proofs.Block.Registry
import PackModels.Proofs.Block.Siblings
import PackModels.Proofs.Bytes
import PackModels.Proofs.Direct.Chain
import PackModels.Proofs.Direct.Snapshot
import PackModels.Proofs.Discovery.Ancestry
import PackModels.Proofs.Discovery.Chain
import PackModels.Proofs.Discovery.Complaints
import PackModels.Proofs.Discovery.Coverage
import PackModels.Proofs.Discovery.Walk
import PackModels.Proofs.Geometry.Alignment
import PackModels.Proofs.Geometry.Nearest
import PackModels.Proofs.Grouping
import PackModels.Proofs.Groups
import PackModels.Proofs.Json.Write
import PackModels.Proofs.Lineage
import PackModels.Proofs.Model.Inheritance
import PackModels.Proofs.Model.References
import PackModels.Proofs.Numbering
import PackModels.Proofs.Orders.Arrange
import PackModels.Proofs.Orders.Baking
import PackModels.Proofs.Orders.Discovery
import PackModels.Proofs.Orders.Models
import PackModels.Proofs.Orders.Reload
import PackModels.Proofs.Reload.Accounting
import PackModels.Proofs.Reload.Inputs
import PackModels.Proofs.Reload.Local
import PackModels.Proofs.Reload.Queue
import PackModels.Proofs.Reload.Redraw
import PackModels.Proofs.Reload.Unseen
import PackModels.Proofs.Sides
import PackModels.Proofs.Sorted
import PackModels.Proofs.Tags
import PackModels.Proofs.Text
import PackModels.Proofs.Tints
import PackModels.Reload.Gates
import PackModels.Reload.Inputs
import PackModels.Reload.Live
import PackModels.Reload.Prepare
import PackModels.Reload.Queue
import PackModels.Reload.Snapshot
import PackModels.Settings
import PackModels.Shared
import PackModels.Table
import PackModels.Text
import PackModels.Toml.Node
import PackModels.Toml.Reader
import PackModels.Toml.Scalar
import PackModels.Warning
