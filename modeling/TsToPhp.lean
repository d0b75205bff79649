import TsToPhp.Emit.Rule
import TsToPhp.FileSystem.Tree
import TsToPhp.Main
import TsToPhp.Proofs.Balance
import TsToPhp.Proofs.Carets
import TsToPhp.Proofs.Chunks
import TsToPhp.Proofs.ClassAccess
import TsToPhp.Proofs.Collected
import TsToPhp.Proofs.Colors
import TsToPhp.Proofs.Commas
import TsToPhp.Proofs.DeclarationOrder
import TsToPhp.Proofs.Discarded
import TsToPhp.Proofs.Existence
import TsToPhp.Proofs.Faults
import TsToPhp.Proofs.FaultsStatement
import TsToPhp.Proofs.Grouping
import TsToPhp.Proofs.HelperCalls
import TsToPhp.Proofs.Indentation
import TsToPhp.Proofs.Initializers
import TsToPhp.Proofs.Jumps
import TsToPhp.Proofs.Linearity
import TsToPhp.Proofs.Literals
import TsToPhp.Proofs.Margins
import TsToPhp.Proofs.Messages
import TsToPhp.Proofs.MethodCalls
import TsToPhp.Proofs.Methods
import TsToPhp.Proofs.ObjectEntries
import TsToPhp.Proofs.ObjectReports
import TsToPhp.Proofs.Operands
import TsToPhp.Proofs.Options
import TsToPhp.Proofs.Outputs
import TsToPhp.Proofs.Parameters
import TsToPhp.Proofs.Paths
import TsToPhp.Proofs.Places
import TsToPhp.Proofs.Position
import TsToPhp.Proofs.PrefixSigns
import TsToPhp.Proofs.PrintedLists
import TsToPhp.Proofs.Promoted
import TsToPhp.Proofs.Reading
import TsToPhp.Proofs.Routes
import TsToPhp.Proofs.RuleCopies
import TsToPhp.Proofs.Shorthand
import TsToPhp.Proofs.SimpleVariables
import TsToPhp.Proofs.SourceText
import TsToPhp.Proofs.Spans
import TsToPhp.Proofs.Structure
import TsToPhp.Proofs.TemplateOperands
import TsToPhp.Proofs.Unions
import TsToPhp.Proofs.Variables
import TsToPhp.Proofs.Verdicts
import TsToPhp.Proofs.Wrappers
