import ModuleSurface.Example
import ModuleSurface.Main
import ModuleSurface.Session
import ModuleSurface.Proofs.DepthFirst
import ModuleSurface.Proofs.Lines
import ModuleSurface.Proofs.Writes
import ModuleSurface.Proofs.Declarations
import ModuleSurface.Proofs.Walk
import ModuleSurface.Proofs.Coverage
import ModuleSurface.Proofs.Decoding
import ModuleSurface.Proofs.Demands
import ModuleSurface.Proofs.Offences
import ModuleSurface.Proofs.ReadBack
import ModuleSurface.Proofs.Encoding
import ModuleSurface.Proofs.Renaming
import ModuleSurface.Proofs.RoundTrip
import ModuleSurface.Proofs.Repeats
import ModuleSurface.Proofs.Recognition
import ModuleSurface.Proofs.WrittenOut
import ModuleSurface.Proofs.FullDraft
import ModuleSurface.Proofs.TreeCopy
import ModuleSurface.Proofs.JsonNumber
import ModuleSurface.Proofs.DecimalText
import ModuleSurface.Proofs.NumeralText
import ModuleSurface.Proofs.DefinitionsNumber
import ModuleSurface.Proofs.UnsharedWalk
import ModuleSurface.Proofs.JsonText
import ModuleSurface.Proofs.JsonTree
import ModuleSurface.Proofs.CarriedDrafts
import ModuleSurface.Proofs.Frames
import ModuleSurface.Proofs.Stopping
import ModuleSurface.Proofs.Agreement
import ModuleSurface.Proofs.Refusals
import ModuleSurface.Proofs.Likeness
import ModuleSurface.Proofs.Observation
import ModuleSurface.Proofs.FirstVisits
import ModuleSurface.Proofs.Representation
import ModuleSurface.Proofs.UnsharedDocuments
import ModuleSurface.Proofs.StrictBuild
import ModuleSurface.Proofs.OneParent
import ModuleSurface.Proofs.JsonRoundTrip
import ModuleSurface.Proofs.Contents
import ModuleSurface.Proofs.Cycles
import ModuleSurface.Proofs.JsonOutcome
import ModuleSurface.Proofs.PlainPrinter
import ModuleSurface.Proofs.Grammar
import ModuleSurface.Proofs.Layout
import ModuleSurface.Proofs.AcceptedHeads
import ModuleSurface.Proofs.Acceptance
import ModuleSurface.Proofs.Messages
import ModuleSurface.Proofs.Faults
import ModuleSurface.Proofs.Answers
import ModuleSurface.Proofs.Blocks
import ModuleSurface.Proofs.Indentation
import ModuleSurface.Proofs.Widths
import ModuleSurface.Proofs.NestedReading
import ModuleSurface.Proofs.NestedBuild
import ModuleSurface.Proofs.Nesting
import ModuleSurface.Proofs.Independence
import ModuleSurface.Proofs.NormalSignatures
import ModuleSurface.Proofs.Publication
import ModuleSurface.Proofs.SameData
import ModuleSurface.Proofs.Respelling
import ModuleSurface.Proofs.RespelledDocuments
import ModuleSurface.Proofs.RespelledReading
import ModuleSurface.Proofs.RespelledDefinitions
