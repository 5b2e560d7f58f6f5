import NibbleAsm.Interchange
import NibbleAsm.Main
import NibbleAsm.Proofs.Acceptance
import NibbleAsm.Proofs.Composition
import NibbleAsm.Proofs.Cursor
import NibbleAsm.Proofs.Declarations
import NibbleAsm.Proofs.Decodability
import NibbleAsm.Proofs.DefaultOutput
import NibbleAsm.Proofs.Diagnostics
import NibbleAsm.Proofs.Directory
import NibbleAsm.Proofs.Dump
import NibbleAsm.Proofs.FileSystem
import NibbleAsm.Proofs.FirstMarker
import NibbleAsm.Proofs.FirstPass
import NibbleAsm.Proofs.FrontEnds
import NibbleAsm.Proofs.HexNumeral
import NibbleAsm.Proofs.InertLabels
import NibbleAsm.Proofs.JsonReading
import NibbleAsm.Proofs.LabelHistory
import NibbleAsm.Proofs.LabelResolution
import NibbleAsm.Proofs.LabelTable
import NibbleAsm.Proofs.Layout
import NibbleAsm.Proofs.LineBreaks
import NibbleAsm.Proofs.Linking
import NibbleAsm.Proofs.OperandSlips
import NibbleAsm.Proofs.PrintedLines
import NibbleAsm.Proofs.Provenance
import NibbleAsm.Proofs.Redeclarations
import NibbleAsm.Proofs.Relabeling
import NibbleAsm.Proofs.Renaming
import NibbleAsm.Proofs.Rendering
import NibbleAsm.Proofs.ReportEntries
import NibbleAsm.Proofs.Run
import NibbleAsm.Proofs.SourceForm
import NibbleAsm.Proofs.Spelling
import NibbleAsm.Proofs.Tiling
