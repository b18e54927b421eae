import ApertureSynthesis.Report.Convolution
import ApertureSynthesis.Workflow.Partition
import ApertureSynthesis.Session.Tables
import ApertureSynthesis.Session.Pictures
import ApertureSynthesis.Session.Gridding
import ApertureSynthesis.Session.Passes
import ApertureSynthesis.Session.Graphs
import ApertureSynthesis.Visibility.Simulated
import ApertureSynthesis.Proofs.Gridder.Adjoint
import ApertureSynthesis.Proofs.Gridder.OnCell
import ApertureSynthesis.Proofs.Grid.Flagged
import ApertureSynthesis.Proofs.Gridder.PointSpread
import ApertureSynthesis.Proofs.Gridder.Safety
import ApertureSynthesis.Proofs.Kernel.Construction
import ApertureSynthesis.Proofs.Kernel.Phases
import ApertureSynthesis.Proofs.Workflow.Partition
import ApertureSynthesis.Proofs.Gridder.Refusal
import ApertureSynthesis.Proofs.Grid.Refusal
import ApertureSynthesis.Proofs.Workflow.Deferred
import ApertureSynthesis.Proofs.Fourier.Inversion
import ApertureSynthesis.Proofs.Kernel.BareTaper
import ApertureSynthesis.Proofs.Gridder.SinglePlane
import ApertureSynthesis.Proofs.Plane.Spacing
import ApertureSynthesis.Proofs.Kernel.OppositeW
import ApertureSynthesis.Proofs.Gridder.FlaggedRow
import ApertureSynthesis.Proofs.Grid.Counters
import ApertureSynthesis.Proofs.Gridder.UniformWeight
import ApertureSynthesis.Proofs.Grid.RoundTrip
import ApertureSynthesis.Proofs.Kernel.Support
import ApertureSynthesis.Proofs.Kernel.WorkingGrid
import ApertureSynthesis.Proofs.Grid.Channels
import ApertureSynthesis.Proofs.Grid.MultiFrequency
import ApertureSynthesis.Proofs.Rounding
import ApertureSynthesis.Proofs.Image.PointSource
import ApertureSynthesis.Proofs.Grid.Mirror
import ApertureSynthesis.Proofs.Kernel.Decreasing
import ApertureSynthesis.Proofs.Workflow.InPlace
