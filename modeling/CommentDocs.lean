import CommentDocs.Arguments
import CommentDocs.Batch
import CommentDocs.Cursor
import CommentDocs.Document.Format
import CommentDocs.FileTree
import CommentDocs.Json
import CommentDocs.Main
import CommentDocs.Path
import CommentDocs.Position
import CommentDocs.Proofs.LinkedTree
import CommentDocs.Proofs.NormalForm
import CommentDocs.Record
import CommentDocs.Record.Grammar
import CommentDocs.Registry
import CommentDocs.Run
import CommentDocs.Session
import CommentDocs.Settings
import CommentDocs.Sources
import CommentDocs.Toml
import CommentDocs.Tree
import CommentDocs.Workspace
import CommentDocs.Proofs.Visible
import CommentDocs.Proofs.Rejections
import CommentDocs.Proofs.Reordering
import CommentDocs.Proofs.FaultPlaces
import CommentDocs.Proofs.WellFormed
import CommentDocs.Proofs.Representation
import CommentDocs.Proofs.NestedDocuments
import CommentDocs.Proofs.TextRuns
import CommentDocs.Proofs.Tokenizing
import CommentDocs.Proofs.Walking
import CommentDocs.Proofs.Rerunning
import CommentDocs.Proofs.LaterRecords
import CommentDocs.Proofs.LineEndings
import CommentDocs.Proofs.DocumentationRuns
import CommentDocs.Proofs.BlankLines
import CommentDocs.Proofs.ParameterWords
import CommentDocs.Proofs.Tables
import CommentDocs.Proofs.Discovery
import CommentDocs.Proofs.Overviews
import CommentDocs.Proofs.ParentCycles
import CommentDocs.Proofs.CursorMoves
import CommentDocs.Proofs.PushBack
