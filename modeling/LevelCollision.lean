import LevelCollision.World
import LevelCollision.Proofs.LoadedLevel
import LevelCollision.Proofs.PackedLevel
import LevelCollision.Proofs.AreaFloods
import LevelCollision.Proofs.AreaComponents
import LevelCollision.Proofs.PortalHistory
import LevelCollision.Proofs.StoredLumps
import LevelCollision.Proofs.RoundTrip
import LevelCollision.Proofs.AcyclicTrees
import LevelCollision.Proofs.SweepRuns
import LevelCollision.Proofs.ExactGeometry
import LevelCollision.Proofs.SweepSegments
import LevelCollision.Proofs.SweepCoverage
import LevelCollision.Proofs.FloodFaults
import LevelCollision.Proofs.ScalarOrder
import LevelCollision.Proofs.QueryRuns
import LevelCollision.Proofs.Crossings
import LevelCollision.Proofs.TraceConsistency
import LevelCollision.Proofs.HullTrees
import LevelCollision.Proofs.ExactCrossings
import LevelCollision.Proofs.HullDepth
import LevelCollision.Proofs.Retraces
import LevelCollision.Proofs.ExactRetraces
import LevelCollision.Proofs.OfferedHeads
import LevelCollision.Proofs.AreaQueries
import LevelCollision.Proofs.Sessions
import LevelCollision.Proofs.WalksEnd
import LevelCollision.Proofs.FloodReach
import LevelCollision.Proofs.FloodConflicts
import LevelCollision.Proofs.AlikePasses
import LevelCollision.Proofs.AreaMemory
import LevelCollision.Proofs.CheckedReading
import LevelCollision.Proofs.CheckedLoading
import LevelCollision.Proofs.SafeLoading
import LevelCollision.Proofs.TouchedLeaves
import LevelCollision.Proofs.LeafLimits
import LevelCollision.Proofs.PointsInBoxes
import LevelCollision.Proofs.EntityGrammar
import LevelCollision.Proofs.BinaryRounding
import LevelCollision.Proofs.BinaryArithmetic
import LevelCollision.Proofs.BinaryPacking
import LevelCollision.Proofs.UnitScalars
import LevelCollision.Proofs.SkipPolicies
import LevelCollision.Proofs.RepeatedClips
import LevelCollision.Proofs.BrushDepth
import LevelCollision.Proofs.ScalarDifferences
import LevelCollision.Proofs.HullPoints
import LevelCollision.Proofs.PositionTests
import LevelCollision.Proofs.NearestBrush
import LevelCollision.Proofs.BrushOrder
import LevelCollision.Proofs.RowExpansions
import LevelCollision.Proofs.FatRows
import LevelCollision.Proofs.HullOverlaps
import LevelCollision.Proofs.TouchedClusters
import LevelCollision.Proofs.PlaneSigns
import LevelCollision.Proofs.ExactScalars
import LevelCollision.Proofs.Rotations
import LevelCollision.Proofs.HeldSweeps
import LevelCollision.Proofs.LumpBytes
import LevelCollision.Proofs.ClusterRows
import LevelCollision.Proofs.AreaRows
import LevelCollision.Proofs.AppendedText
import LevelCollision.Proofs.ModelNames
