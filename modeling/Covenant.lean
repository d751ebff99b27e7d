import Covenant.Module.Outline
import Covenant.Proofs.AliasDiscipline
import Covenant.Proofs.Annotation
import Covenant.Proofs.CollectionLibraries
import Covenant.Proofs.CompoundAssignment
import Covenant.Proofs.ConstantNames
import Covenant.Proofs.ImportedContracts
import Covenant.Proofs.Initialization
import Covenant.Proofs.LetterCase
import Covenant.Proofs.LoopSafety
import Covenant.Proofs.ModuleNames
import Covenant.Proofs.PartialAssignment
import Covenant.Proofs.RegisterDiscipline
import Covenant.Proofs.RegisterRequests
import Covenant.Proofs.ReportedLines
import Covenant.Proofs.Returning
import Covenant.Proofs.RoutineTables
import Covenant.Proofs.SignedOperands
import Covenant.Proofs.SquareRoot
import Covenant.Proofs.TemplateText
import Covenant.Proofs.Termination
import Covenant.Proofs.TypeNumbers
import Covenant.Report
import Covenant.Settings.Basic
import Covenant.Proofs.CallingConvention
