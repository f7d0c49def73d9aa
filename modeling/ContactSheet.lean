import ContactSheet.Step
import ContactSheet.Step.Checked
import ContactSheet.Records
import ContactSheet.Projection
import ContactSheet.Projection.Checked
import ContactSheet.Json.Writer
import ContactSheet.Proofs.Blit
import ContactSheet.Proofs.CycleRun
import ContactSheet.Proofs.Layout
import ContactSheet.Proofs.StepRun
import ContactSheet.Proofs.Composite
import ContactSheet.Proofs.Conversation
import ContactSheet.Proofs.Generation
import ContactSheet.Proofs.Spacing
import ContactSheet.Proofs.GivingUp
import ContactSheet.Proofs.Unnoticed
import ContactSheet.Proofs.Cancellation
import ContactSheet.Proofs.Accounts
import ContactSheet.Proofs.Extent
import ContactSheet.Proofs.Checked.Image
import ContactSheet.Proofs.Checked.Planes
import ContactSheet.Proofs.Checked.Step
import ContactSheet.Proofs.Decoding
import ContactSheet.Proofs.Resolution
import ContactSheet.Proofs.Fitting
import ContactSheet.Proofs.Logging
import ContactSheet.Proofs.Skipping
import ContactSheet.Proofs.Json.Writing
import ContactSheet.Proofs.Json.Members
import ContactSheet.Proofs.Mapping
import ContactSheet.Proofs.Keeping
import ContactSheet.Proofs.Selection
import ContactSheet.Proofs.Stages
import ContactSheet.Proofs.Flattening
import ContactSheet.Proofs.Clipping
import ContactSheet.Proofs.Resampling
import ContactSheet.Proofs.Proportions
import ContactSheet.Proofs.Levels
import ContactSheet.Proofs.Projecting
import ContactSheet.Proofs.Waiting
import ContactSheet.Proofs.Tiling
