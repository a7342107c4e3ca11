import Slideshow.Asset
import Slideshow.CommandLine.Arguments
import Slideshow.CommandLine.Files
import Slideshow.CommandLine.Run
import Slideshow.Deck.Basic
import Slideshow.Deck.Render
import Slideshow.Deck.Slides
import Slideshow.Dialect
import Slideshow.Encoding.Basic
import Slideshow.Encoding.Table
import Slideshow.Encoding.Utf16
import Slideshow.Encoding.Utf8
import Slideshow.Failure
import Slideshow.Main
import Slideshow.Markdown.Autolink
import Slideshow.Markdown.Basic
import Slideshow.Markdown.Block
import Slideshow.Markdown.Builder
import Slideshow.Markdown.Emphasis
import Slideshow.Markdown.Extension
import Slideshow.Markdown.Html
import Slideshow.Markdown.Inline
import Slideshow.Markdown.Line
import Slideshow.Markdown.Note
import Slideshow.Markdown.RawHtml
import Slideshow.Markdown.Reference
import Slideshow.Markdown.Span
import Slideshow.Markdown.Start
import Slideshow.Markdown.Table
import Slideshow.Markup.Heading
import Slideshow.Markup.Tag
import Slideshow.Outcome
import Slideshow.Outline
import Slideshow.Page.Basic
import Slideshow.Page.Standard
import Slideshow.Pass.Basic
import Slideshow.Pass.Code
import Slideshow.Pass.Directive
import Slideshow.Pass.Image
import Slideshow.Pass.Standard
import Slideshow.Proofs.CharacterClasses
import Slideshow.Restructured.Block
import Slideshow.Restructured.Line
import Slideshow.Restructured.Reader
import Slideshow.Restructured.Span
import Slideshow.Settings
import Slideshow.Slide.Basic
import Slideshow.Slide.Extract
import Slideshow.Slide.Fragment
import Slideshow.Store.Basic
import Slideshow.Store.Path
import Slideshow.Template.Basic
import Slideshow.Template.Expr
import Slideshow.Template.Reader
import Slideshow.Template.Token
import Slideshow.Template.Value
import Slideshow.Text.Base64
import Slideshow.Text.Basic
import Slideshow.Text.Blank
import Slideshow.Text.Case
import Slideshow.Text.Entity
import Slideshow.Text.Escaped
import Slideshow.Text.Numeral
import Slideshow.Text.Pattern
import Slideshow.Text.Punctuation
import Slideshow.Text.Quoted
import Slideshow.Text.Visible
import Slideshow.Text.Word
import Slideshow.Theme
import Slideshow.Url.Basic
import Slideshow.Url.Host
import Slideshow.Url.Percent
import Slideshow.Url.Punycode
import Slideshow.Proofs.Forest
import Slideshow.Proofs.NotesWords
import Slideshow.Proofs.ForestSplitting
import Slideshow.Proofs.OutlineParents
import Slideshow.Proofs.BlockEquations
import Slideshow.Proofs.PrintedDocument
import Slideshow.Proofs.PrintedLine
import Slideshow.Proofs.DocumentReading
import Slideshow.Proofs.QuotedForest
import Slideshow.Proofs.TagDepth
import Slideshow.Proofs.WrittenForest
import Slideshow.Proofs.ReadBlocks
import Slideshow.Proofs.WrittenDocument
import Slideshow.Proofs.DocumentMeaning
import Slideshow.Proofs.ReadBackMarkup
import Slideshow.Proofs.Segments
import Slideshow.Proofs.FragmentSplitting
import Slideshow.Proofs.TextualCharacters
import Slideshow.Proofs.ShownText
import Slideshow.Proofs.ConservedText
import Slideshow.Proofs.Sections
import Slideshow.Proofs.SectionFragments
import Slideshow.Proofs.UntouchedContent
import Slideshow.Proofs.SectionContent
import Slideshow.Proofs.SectionSlides
import Slideshow.Proofs.PassCalls
import Slideshow.Proofs.StoreChanges
import Slideshow.Proofs.FirstFailure
import Slideshow.Proofs.SlideNumbers
import Slideshow.Proofs.OutlineDepth
import Slideshow.Proofs.EmittedText
import Slideshow.Proofs.EmittedPage
import Slideshow.Proofs.PageAnchors
import Slideshow.Proofs.NotesBoundary
import Slideshow.Proofs.HiddenNotes
import Slideshow.Proofs.PatternParts
import Slideshow.Proofs.TextBlocks
import Slideshow.Proofs.TextPasses
import Slideshow.Proofs.DocumentPieces
import Slideshow.Proofs.AgreeingStores
import Slideshow.Proofs.EncodedText
import Slideshow.Proofs.LocatedNames
import Slideshow.Proofs.RenderedDeck
import Slideshow.Proofs.SourceEncoding
import Slideshow.Proofs.CommentBodies
import Slideshow.Proofs.HeadingMarks
import Slideshow.Proofs.CommentedHeadings
import Slideshow.Proofs.BalancedText
import Slideshow.Proofs.NodeReading
import Slideshow.Proofs.BalancedParts
import Slideshow.Proofs.NavigationListing
import Slideshow.Proofs.PercentDecoding
import Slideshow.Proofs.FileUrls
import Slideshow.Proofs.EmbeddedImages
import Slideshow.Proofs.LinkedImages
import Slideshow.Proofs.ImageTags
import Slideshow.Proofs.SelfContainedPasses
import Slideshow.Proofs.WrittenImages
import Slideshow.Proofs.EmbeddedDeck
import Slideshow.Proofs.Registrations
import Slideshow.Proofs.Base64Decoding
import Slideshow.Proofs.RewrittenParts
import Slideshow.Proofs.SplicedImages
import Slideshow.Proofs.UrlCharacters
import Slideshow.Proofs.RepeatedPasses
import Slideshow.Proofs.InsertedAnchors
import Slideshow.Proofs.AnchoredText
import Slideshow.Proofs.AnchoredHeadings
import Slideshow.Proofs.DecodedBytes
import Slideshow.Proofs.SlideParts
import Slideshow.Proofs.VerbatimBlocks
import Slideshow.Proofs.TitleStyles
import Slideshow.Proofs.ReadHeadings
import Slideshow.Proofs.HeadingLevels
import Slideshow.Proofs.WrappedNotes
import Slideshow.Proofs.QrCodeData
import Slideshow.Proofs.ReassembledSlides
import Slideshow.Proofs.TitlingHeadings
import Slideshow.Proofs.Placeholders
import Slideshow.Proofs.TitledHeaders
import Slideshow.Proofs.ClassAttributes
import Slideshow.Proofs.TidyMarkup
import Slideshow.Proofs.TidyParts
import Slideshow.Proofs.TidyPasses
import Slideshow.Proofs.TidyContent
import Slideshow.Proofs.OrderedClasses
import Slideshow.Proofs.OpenPath
import Slideshow.Proofs.SourceLayout
import Slideshow.Proofs.IndexedLines
import Slideshow.Proofs.IndexedReader
import Slideshow.Proofs.ReaderProgress
import Slideshow.Proofs.ChosenSpans
import Slideshow.Proofs.InlineProse
