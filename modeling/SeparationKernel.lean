import SeparationKernel.Main
import SeparationKernel.Proofs.Config.Truth
import SeparationKernel.Proofs.Datum.Forms
import SeparationKernel.Proofs.Process.Ranking
import SeparationKernel.Proofs.Register.Count
import SeparationKernel.Proofs.Register.MaskedAccess
import SeparationKernel.Proofs.Scheduler.Generation
import SeparationKernel.Proofs.Scheduler.Rotation
import SeparationKernel.Proofs.Session.BufferNames
import SeparationKernel.Proofs.Session.KernelOwned
import SeparationKernel.Proofs.Session.Order
import SeparationKernel.Proofs.Simulation.Accounting
import SeparationKernel.Proofs.Simulation.Overruns
