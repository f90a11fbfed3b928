import ClassDiagram.Main
import ClassDiagram.Proofs.Output.RoundTrip
import ClassDiagram.Proofs.Reader.WellFormed
import ClassDiagram.Session
import ClassDiagram.Proofs.Session.Fold
import ClassDiagram.Proofs.Reader.Shared
import ClassDiagram.Proofs.Session.OpenBody
import ClassDiagram.Proofs.Reader.Concat
import ClassDiagram.Proofs.Session.Frame
import ClassDiagram.Proofs.Output.Title
import ClassDiagram.Proofs.Encoding.TextFile
import ClassDiagram.Proofs.Run.Diagram
import ClassDiagram.Proofs.Form.Relationship
import ClassDiagram.Proofs.Reader.Noise
import ClassDiagram.Proofs.Output.Listing
import ClassDiagram.Proofs.Output.Json
import ClassDiagram.Proofs.Model.Dangling
import ClassDiagram.Proofs.Form.Splits
import ClassDiagram.Proofs.Registry
import ClassDiagram.Proofs.Session.Refusal
import ClassDiagram.Proofs.Run.Inside
