import DeclTree.Diagnostic
import DeclTree.Error
import DeclTree.Handle
import DeclTree.Node.Basic
import DeclTree.Node.Error
import DeclTree.Node.Specifier
import DeclTree.Node.TemplateDecl
import DeclTree.Node.Tree
import DeclTree.Outline
import DeclTree.Parse.Angle
import DeclTree.Parse.Binding
import DeclTree.Parse.Class
import DeclTree.Parse.Complaint
import DeclTree.Parse.Counted
import DeclTree.Parse.Cursor
import DeclTree.Parse.Declaration
import DeclTree.Parse.Declarator
import DeclTree.Parse.Error
import DeclTree.Parse.Function
import DeclTree.Parse.Group
import DeclTree.Parse.Name
import DeclTree.Parse.Reading
import DeclTree.Parse.Rules
import DeclTree.Parse.Scope
import DeclTree.Parse.Simple
import DeclTree.Parse.Specifiers
import DeclTree.Parse.Spelling
import DeclTree.Parse.State
import DeclTree.Parse.Stretch
import DeclTree.Parse.Template
import DeclTree.Parse.Unit
import DeclTree.Session
import DeclTree.Source.Blank
import DeclTree.Source.Counter
import DeclTree.Source.Lines
import DeclTree.Source.Range
import DeclTree.Source.Span
import DeclTree.Symbol.Basic
import DeclTree.Symbol.Conflict
import DeclTree.Symbol.Declare
import DeclTree.Symbol.Error
import DeclTree.Symbol.Factory
import DeclTree.Symbol.Lookup
import DeclTree.Symbol.Table
import DeclTree.Symbol.Template
import DeclTree.Token.Basic
import DeclTree.Token.Counted
import DeclTree.Token.Extent
import DeclTree.Token.Keyword
import DeclTree.Token.LexError
import DeclTree.Token.Lexer
import DeclTree.Token.Piece
import DeclTree.Token.Punctuator
import DeclTree.Token.Trace
import DeclTree.Walk.Basic
import DeclTree.Walk.Trace
import DeclTree.Proofs.OwnerChain
import DeclTree.Proofs.Ownership
import DeclTree.Proofs.FactoryHistory
import DeclTree.Proofs.TableOperation
import DeclTree.Proofs.TableInvariant
import DeclTree.Proofs.TemplateInvariant
import DeclTree.Proofs.LookupTermination
import DeclTree.Proofs.LookupView
import DeclTree.Proofs.Overload
import DeclTree.Proofs.CursorMoves
import DeclTree.Proofs.StretchBounds
import DeclTree.Proofs.Lookahead
import DeclTree.Proofs.Activity
import DeclTree.Proofs.ParseOutcome
import DeclTree.Proofs.ReadingOutcome
import DeclTree.Proofs.BindingOutcome
import DeclTree.Proofs.SpecifierOutcome
import DeclTree.Proofs.DeclaratorOutcome
import DeclTree.Proofs.SimpleOutcome
import DeclTree.Proofs.TemplateOutcome
import DeclTree.Proofs.DeclarationOutcome
import DeclTree.Proofs.FoundSymbols
import DeclTree.Proofs.ParseTermination
import DeclTree.Proofs.ExportedBlocks
import DeclTree.Proofs.FactoryBalance
import DeclTree.Proofs.PartialOutcome
import DeclTree.Proofs.RefusedOperation
import DeclTree.Proofs.ReadOnly
import DeclTree.Proofs.ReadingProgress
import DeclTree.Proofs.TableGrowth
import DeclTree.Proofs.ParseRun
import DeclTree.Proofs.BindingRun
import DeclTree.Proofs.SpecifierRun
import DeclTree.Proofs.TemplateRun
import DeclTree.Proofs.SimpleRun
import DeclTree.Proofs.DeclarationRun
import DeclTree.Proofs.AppendOnly
import DeclTree.Proofs.NodeSymbols
import DeclTree.Proofs.TokenSpans
import DeclTree.Proofs.NodeLayout
import DeclTree.Proofs.TreeGrowth
import DeclTree.Proofs.FrameStacks
import DeclTree.Proofs.StableLookup
import DeclTree.Proofs.OpenTemplates
import DeclTree.Proofs.NameIndex
import DeclTree.Proofs.Standing
import DeclTree.Proofs.FactoryHomes
import DeclTree.Proofs.TableExtension
import DeclTree.Proofs.FrameClosing
import DeclTree.Proofs.TreeFaces
import DeclTree.Proofs.Coherence
import DeclTree.Proofs.NodeCoherence
import DeclTree.Proofs.EnclosedDeclarations
import DeclTree.Proofs.TemplateCoherence
import DeclTree.Proofs.FreeTemplates
import DeclTree.Proofs.CoherentParse
import DeclTree.Proofs.CoherentBinding
import DeclTree.Proofs.CoherentSpecifiers
import DeclTree.Proofs.CoherentSimple
import DeclTree.Proofs.CoherentTemplates
import DeclTree.Proofs.CoherentDeclarations
import DeclTree.Proofs.InternalErrors
import DeclTree.Proofs.TemplateOwners
import DeclTree.Proofs.PlainDeclarations
import DeclTree.Proofs.TokenCoverage
import DeclTree.Proofs.NodeNesting
import DeclTree.Proofs.TreeOrder
import DeclTree.Proofs.WalkEvents
import DeclTree.Proofs.OutlineShape
import DeclTree.Proofs.Respelling
import DeclTree.Proofs.SourcePositions
import DeclTree.Proofs.Provenance
import DeclTree.Proofs.TruthfulReading
import DeclTree.Proofs.TruthfulDeclarations
import DeclTree.Proofs.TruthfulUnits
import DeclTree.Proofs.ErrorPositions
import DeclTree.Proofs.ListedNodes
import DeclTree.Proofs.ListedSymbols
import DeclTree.Proofs.ParseCourse
import DeclTree.Proofs.Steering
import DeclTree.Proofs.DeclarationCourse
import DeclTree.Proofs.NestingDepth
import DeclTree.Proofs.NamespaceTable
import DeclTree.Proofs.ReopenedNamespaces
import DeclTree.Proofs.UsingOrder
import DeclTree.Proofs.VisibleScopes
import DeclTree.Proofs.ListedParameters
import DeclTree.Proofs.BraceMatching
import DeclTree.Proofs.BalancedStretches
import DeclTree.Proofs.PassedDeclarations
import DeclTree.Proofs.BalancedReading
import DeclTree.Proofs.BalancedDeclarators
import DeclTree.Proofs.BalancedDeclarations
import DeclTree.Proofs.TemplateClosing
import DeclTree.Proofs.Shadowing
import DeclTree.Proofs.InnermostNode
import DeclTree.Proofs.DialectWords
import DeclTree.Proofs.TokenTexts
import DeclTree.Proofs.NodeLines
import DeclTree.Proofs.SpelledTokens
import DeclTree.Proofs.CreationOrder
import DeclTree.Proofs.OrderedDeclarations
import DeclTree.Proofs.LongestMarks
import DeclTree.Proofs.ArgumentLists
import DeclTree.Proofs.FactoryCalls
import DeclTree.Proofs.DisplacedStretches
import DeclTree.Proofs.FollowedStretches
import DeclTree.Proofs.JoinedUnits
import DeclTree.Proofs.CountedTokens
import DeclTree.Proofs.CountedUnits
import DeclTree.Proofs.Overrun
import DeclTree.Proofs.SpelledNodes
