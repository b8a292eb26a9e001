import Galley.Build
import Galley.CheckFault
import Galley.Comment
import Galley.Diff
import Galley.Diff.Middle
import Galley.Diff.Run
import Galley.Diff.Slide
import Galley.Discovery
import Galley.Document
import Galley.Entity
import Galley.Fault
import Galley.Fields
import Galley.Files.Path
import Galley.Files.Tree
import Galley.Glob
import Galley.Json
import Galley.Json.Reader
import Galley.Json.Show
import Galley.Log
import Galley.Model
import Galley.Model.Kind
import Galley.NormalForm
import Galley.Number.Binary64
import Galley.Number.Decimal
import Galley.Number.Reader
import Galley.Number.Word
import Galley.Project
import Galley.Proofs.Lines
import Galley.Record
import Galley.Renderer
import Galley.Resolver
import Galley.Scratch
import Galley.Session
import Galley.Session.Check
import Galley.Settings
import Galley.Settings.Decode
import Galley.Settings.Environment
import Galley.Settings.File
import Galley.Settings.Key
import Galley.Settings.Load
import Galley.Supplement
import Galley.Template.Fault
import Galley.Template.Helper
import Galley.Template.Layout
import Galley.Template.Operand
import Galley.Template.Piece
import Galley.Template.Printed
import Galley.Template.Render
import Galley.Template.Scope
import Galley.Template.Syntax
import Galley.Text.Blank
import Galley.Text.Bytes
import Galley.Text.Hidden
import Galley.Text.LetterCase
import Galley.Text.Quoted
import Galley.Text.Words
import Galley.Toml.Reader
import Galley.Toml.Scalar
import Galley.Toml.Text
import Galley.Yaml.Cursor
import Galley.Yaml.Event
import Galley.Yaml.Plain
import Galley.Yaml.Reader
import Galley.Yaml.Scalar
import Galley.Yaml.Show
import Galley.Yaml.Token
import Galley.Yaml.TokenStream
import Galley.Yaml.Value
import Galley.Proofs.Containment
import Galley.Proofs.CommentInsertion
import Galley.Proofs.DistinctKeys
import Galley.Proofs.Merge
import Galley.Proofs.MergePaths
import Galley.Proofs.MergeGrouping
import Galley.Proofs.BuildRuns
import Galley.Proofs.Outcomes
import Galley.Proofs.BuildStages
import Galley.Proofs.Discovered
import Galley.Proofs.ScratchFiles
import Galley.Proofs.SessionCalls
import Galley.Proofs.SessionRuns
import Galley.Proofs.Paths
import Galley.Proofs.Trees
import Galley.Proofs.RepeatedFiles
import Galley.Proofs.LineLayout
import Galley.Proofs.Respacing
import Galley.Proofs.SortedFields
import Galley.Proofs.Reordering
import Galley.Proofs.ResolverWrites
import Galley.Proofs.ResolverOrder
import Galley.Proofs.FileOrder
import Galley.Proofs.ReadKeys
import Galley.Proofs.Overrides
import Galley.Proofs.BaseLayer
import Galley.Proofs.StoredLists
import Galley.Proofs.DeclaredItems
import Galley.Proofs.PlainForms
import Galley.Proofs.UsableSettings
import Galley.Proofs.ListedKeys
import Galley.Proofs.CommentSpans
import Galley.Proofs.CommentExpressions
import Galley.Proofs.Loosening
import Galley.Proofs.NormalForms
import Galley.Proofs.Renormalizing
import Galley.Proofs.LowerCase
import Galley.Proofs.SettingLayers
import Galley.Proofs.CommentPasses
import Galley.Proofs.Occurrences
import Galley.Proofs.DiffSides
import Galley.Proofs.DiffLines
import Galley.Proofs.GridWays
import Galley.Proofs.FurthestRows
import Galley.Proofs.ShortestCuts
import Galley.Proofs.UnchangedLines
import Galley.Proofs.RecordReading
import Galley.Proofs.AllOrNothing
import Galley.Proofs.EntityCodec
import Galley.Proofs.ModelWrites
import Galley.Proofs.FileEndings
import Galley.Proofs.WalkOrder
import Galley.Proofs.DiscoveryOrder
import Galley.Proofs.Margins
import Galley.Proofs.Supplements
import Galley.Proofs.Numerals
import Galley.Proofs.PositionalForms
import Galley.Proofs.TextVariables
