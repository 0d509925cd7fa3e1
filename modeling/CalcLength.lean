import CalcLength.Json.Forms
import CalcLength.Session
import CalcLength.Proofs.Phrase
import CalcLength.Proofs.Action
import CalcLength.Proofs.Binary64.Exact
import CalcLength.Proofs.Cleanup
import CalcLength.Proofs.Completeness
import CalcLength.Proofs.Declarations.Atomicity
import CalcLength.Proofs.Disturbance
import CalcLength.Proofs.Lexing
import CalcLength.Proofs.Reachable
import CalcLength.Proofs.Repetition
import CalcLength.Proofs.SharedScale
import CalcLength.Proofs.Soundness
import CalcLength.Proofs.Unambiguity
import CalcLength.Proofs.Tokenizing
import CalcLength.Proofs.Misfit
import CalcLength.Proofs.Composition
import CalcLength.Proofs.Consultation
import CalcLength.Proofs.Binary64.Product
import CalcLength.Proofs.Overflow
import CalcLength.Proofs.KnownUnits
import CalcLength.Proofs.Restoration
import CalcLength.Proofs.Suffixed
import CalcLength.Proofs.Precedence
import CalcLength.Proofs.FixedPoint
import CalcLength.Proofs.Declarations.Settled
import CalcLength.Proofs.Protocol
import CalcLength.Proofs.Height
import CalcLength.Proofs.Demand
import CalcLength.Proofs.Calibration
import CalcLength.Proofs.Warnings
import CalcLength.Proofs.Descent
import CalcLength.Proofs.ProbeWidth
import CalcLength.Proofs.Spans
