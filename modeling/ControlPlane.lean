import ControlPlane.Main
import ControlPlane.Controller.SharedQueue
import ControlPlane.Manifest.Source
import ControlPlane.Plane.Run
import ControlPlane.Settings.Read
import ControlPlane.Proofs.Discovery.Incremental
import ControlPlane.Proofs.Discovery.Multiplexing
import ControlPlane.Proofs.Discovery.StateOfTheWorld
import ControlPlane.Proofs.Pipeline.Identity
import ControlPlane.Proofs.Pipeline.Quiescence
import ControlPlane.Proofs.Store.Snapshots
import ControlPlane.Proofs.Store.Tokens
import ControlPlane.Proofs.Store.Concurrency
import ControlPlane.Proofs.Controller.Crew
import ControlPlane.Proofs.Controller.Interleaving
import ControlPlane.Proofs.Controller.Truthfulness
import ControlPlane.Proofs.Controller.Provenance
import ControlPlane.Proofs.Manifest.Ownership
import ControlPlane.Proofs.Manifest.RoundTrip
import ControlPlane.Proofs.Discovery.Authenticity
import ControlPlane.Proofs.Discovery.Resending
import ControlPlane.Proofs.Controller.StoredKeys
import ControlPlane.Proofs.Command.Judgement
import ControlPlane.Proofs.Discovery.Interest
import ControlPlane.Proofs.Discovery.Names
import ControlPlane.Proofs.Store.Newest
import ControlPlane.Proofs.Controller.Retries
import ControlPlane.Proofs.Discovery.Passes
import ControlPlane.Proofs.Object.History
import ControlPlane.Proofs.Validation.Timeout
