import ArrayBench.Layout.View
import ArrayBench.Backend.Bounded
import ArrayBench.Backend.Recorder
import ArrayBench.Bench.Script
import ArrayBench.Bench.Section
import ArrayBench.Proofs.Buffer.Edits
import ArrayBench.Proofs.Layout.Bounds
import ArrayBench.Proofs.Cpu.Loops
import ArrayBench.Proofs.Cpu.Accumulation
import ArrayBench.Proofs.Cpu.Checks
import ArrayBench.Proofs.Cpu.Runs
import ArrayBench.Proofs.Cpu.Safety
import ArrayBench.Proofs.Cpu.Independence
import ArrayBench.Proofs.Bench.Rounds
import ArrayBench.Proofs.Bench.Resets
import ArrayBench.Proofs.Bench.Fallback
import ArrayBench.Proofs.Backend.LikeCpu
import ArrayBench.Proofs.Bench.Steady
import ArrayBench.Proofs.Bench.Prepared
import ArrayBench.Proofs.Bench.Catalog
import ArrayBench.Proofs.Bench.Acceptance
import ArrayBench.Proofs.Layout.Chains
import ArrayBench.Proofs.Cpu.Forms
import ArrayBench.Proofs.Cpu.InPlace
import ArrayBench.Proofs.Backend.Recorded
import ArrayBench.Proofs.Bench.NoDrift
import ArrayBench.Proofs.Cpu.Elements
import ArrayBench.Proofs.Shape.Broadcasting
import ArrayBench.Proofs.Cpu.Atomic
import ArrayBench.Proofs.Bench.Panels
import ArrayBench.Proofs.Bench.Sections
import ArrayBench.Proofs.Layout.Walks
import ArrayBench.Proofs.Number.Sums
import ArrayBench.Proofs.Cpu.Products
import ArrayBench.Proofs.Cpu.Sums
import ArrayBench.Proofs.Shape.Exchange
import ArrayBench.Proofs.Cpu.SumOrder
import ArrayBench.Proofs.Cpu.Results
import ArrayBench.Proofs.Number.Exact
import ArrayBench.Proofs.Cpu.Powers
import ArrayBench.Proofs.Cpu.Division
import ArrayBench.Proofs.Bench.Exactness
import ArrayBench.Proofs.Bench.Figures
import ArrayBench.Proofs.Bench.Fills
import ArrayBench.Proofs.Cpu.Scalars
import ArrayBench.Proofs.Cpu.ProductLaws
import ArrayBench.Proofs.Bench.Alignment
import ArrayBench.Proofs.Bench.Measured
import ArrayBench.Proofs.Bench.Output
import ArrayBench.Proofs.Bench.Rows
import ArrayBench.Proofs.Shape.Labels
import ArrayBench.Proofs.Bench.Edges
import ArrayBench.Proofs.Bench.Legend
import ArrayBench.Proofs.Bench.ElementCounts
import ArrayBench.Proofs.Bench.Faults
import ArrayBench.Proofs.Bench.InOrder
import ArrayBench.Proofs.Number.Casts
import ArrayBench.Proofs.Number.Floors
import ArrayBench.Proofs.Cpu.Targets
import ArrayBench.Proofs.Cpu.ShortCuts
