import ReleaseGate.Main
import ReleaseGate.Proofs.Audit.Assembly
import ReleaseGate.Proofs.Audit.Export
import ReleaseGate.Proofs.Audit.Selection
import ReleaseGate.Proofs.Audit.TamperEvidence
import ReleaseGate.Proofs.Audit.UniqueDecoding
import ReleaseGate.Proofs.Configuration.Partial
import ReleaseGate.Proofs.Evidence.Bundle
import ReleaseGate.Proofs.Evidence.Summary
import ReleaseGate.Proofs.Policy.Configured
import ReleaseGate.Proofs.Policy.Enablement
import ReleaseGate.Proofs.Policy.FailClosed
import ReleaseGate.Proofs.Policy.Schedule
import ReleaseGate.Proofs.Policy.Status
import ReleaseGate.Proofs.Policy.Tightening
import ReleaseGate.Proofs.Scoring.AggregatorRuns
import ReleaseGate.Proofs.Scoring.Bands
import ReleaseGate.Proofs.Scoring.FirstFault
import ReleaseGate.Proofs.Scoring.FourPlaces
import ReleaseGate.Proofs.Scoring.Rearrangement
