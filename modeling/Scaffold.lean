import Scaffold.Catalog.Reading
import Scaffold.Code.Trace
import Scaffold.Proofs.Absorption
import Scaffold.Proofs.Acceptance
import Scaffold.Proofs.Apartness
import Scaffold.Proofs.Commentary
import Scaffold.Proofs.Comments
import Scaffold.Proofs.Commuting
import Scaffold.Proofs.Declaring
import Scaffold.Proofs.Defaults
import Scaffold.Proofs.DistinctKeys
import Scaffold.Proofs.Documents
import Scaffold.Proofs.Fitting
import Scaffold.Proofs.Indentation
import Scaffold.Proofs.KeyLines
import Scaffold.Proofs.Labels
import Scaffold.Proofs.Levels
import Scaffold.Proofs.NormalForm
import Scaffold.Proofs.Outline
import Scaffold.Proofs.Overwriting
import Scaffold.Proofs.ReadBack
import Scaffold.Proofs.Records
import Scaffold.Proofs.Relocation
import Scaffold.Proofs.Setters
import Scaffold.Proofs.Snippets
import Scaffold.Proofs.Splicing
import Scaffold.Proofs.Sugar
