import Maketree.Text.Ranges
import Maketree.Text.Blank
import Maketree.Text.WordChar
import Maketree.Text.Printable
import Maketree.Text.Hex
import Maketree.Text.Quoted
import Maketree.Text.Utf8
import Maketree.Path
import Maketree.FileSystem
import Maketree.Location
import Maketree.Error
import Maketree.Notice
import Maketree.Source
import Maketree.LineKind
import Maketree.LineStream
import Maketree.LogicalLine
import Maketree.Expansion
import Maketree.Context
import Maketree.Statement
import Maketree.Parse.Reader
import Maketree.Parse.Recipe
import Maketree.Parse.Statement
import Maketree.Makefile
import Maketree.Command
import Maketree.Main
import Maketree.Proofs.Journal
import Maketree.Proofs.LineStream
import Maketree.Proofs.OpenFiles
import Maketree.Proofs.LineKind
import Maketree.Proofs.ReadSteps
import Maketree.Proofs.SourceSize
import Maketree.Proofs.Termination
import Maketree.Proofs.FlatReading
import Maketree.Proofs.DroppedLines
import Maketree.Proofs.Constructs
import Maketree.Proofs.Recipes
import Maketree.Proofs.Rules
import Maketree.Proofs.EncodedText
import Maketree.Proofs.Outcomes
import Maketree.Proofs.FileAsText
import Maketree.Proofs.TwinReaders
import Maketree.Proofs.MirrorLoop
import Maketree.Proofs.NormalPaths
import Maketree.Proofs.CargoDirectories
import Maketree.Proofs.Assignments
import Maketree.Proofs.SolidLines
import Maketree.Proofs.MirrorStatements
import Maketree.Proofs.JoinedPaths
import Maketree.Proofs.IndentedDumps
import Maketree.Proofs.LocatedErrors
import Maketree.Proofs.IncludePlacement
import Maketree.Proofs.FlattenedParse
import Maketree.Proofs.DirectivesDropped
