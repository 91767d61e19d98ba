import HashtagSearch.Text.Basic
import HashtagSearch.Text.WordChar
import HashtagSearch.Text.CaseTable
import HashtagSearch.Text.LowerCase
import HashtagSearch.Text.EditDistance
import HashtagSearch.Column
import HashtagSearch.Token
import HashtagSearch.Filter
import HashtagSearch.Grouped
import HashtagSearch.Outcome
import HashtagSearch.Pattern
import HashtagSearch.Picker
import HashtagSearch.Number.Shortest
import HashtagSearch.Date
import HashtagSearch.Json.Printer
import HashtagSearch.Matching
import HashtagSearch.Json.Reader
import HashtagSearch.Shape
import HashtagSearch.Toml.Reader
import HashtagSearch.Display.Search
import HashtagSearch.Display.Listing
import HashtagSearch.Files
import HashtagSearch.Settings
import HashtagSearch.Main
import HashtagSearch.Proofs.Text.Trimming
import HashtagSearch.Proofs.Text.Words
import HashtagSearch.Proofs.Text.Parts
import HashtagSearch.Proofs.Grouped.Grammar
import HashtagSearch.Proofs.Grouped.Reading
import HashtagSearch.Proofs.Splitting
import HashtagSearch.Proofs.Segments
import HashtagSearch.Proofs.Stripping
import HashtagSearch.Proofs.Ranges
import HashtagSearch.Proofs.Finished
import HashtagSearch.Proofs.Flat.Writing
import HashtagSearch.Proofs.Flat.Reading
import HashtagSearch.Proofs.Typing.Drafts
import HashtagSearch.Proofs.Typing.Invariant
import HashtagSearch.Proofs.Typing.Committing
import HashtagSearch.Proofs.Text.Keywords
import HashtagSearch.Proofs.Values.Ends
import HashtagSearch.Proofs.Values.Typed
import HashtagSearch.Proofs.Continuation
import HashtagSearch.Proofs.Values.Searches
import HashtagSearch.Proofs.Grouped.Leaves
import HashtagSearch.Proofs.Filters.Shape
import HashtagSearch.Proofs.Filters.Sources
import HashtagSearch.Proofs.Filters.Tags
import HashtagSearch.Proofs.Typing.Extending
import HashtagSearch.Proofs.Text.SmallLetters
import HashtagSearch.Proofs.Catalog.Checking
import HashtagSearch.Proofs.Catalog.Typeable
import HashtagSearch.Proofs.Tokens
import HashtagSearch.Proofs.Grouped.Writing
import HashtagSearch.Proofs.Dispatch
import HashtagSearch.Proofs.Typing.Valuing
import HashtagSearch.Proofs.Picking
import HashtagSearch.Proofs.Patterns
import HashtagSearch.Proofs.HalfTyped
import HashtagSearch.Proofs.Json.Sameness
import HashtagSearch.Proofs.Json.Shapes
import HashtagSearch.Proofs.Files.Contents
import HashtagSearch.Proofs.Runs
import HashtagSearch.Proofs.Gaps
import HashtagSearch.Proofs.OpenRanges
import HashtagSearch.Proofs.Values.Literals
import HashtagSearch.Proofs.SingleValues
import HashtagSearch.Proofs.Tokens.Spans
import HashtagSearch.Proofs.Cuts
import HashtagSearch.Proofs.Values.Written
import HashtagSearch.Proofs.Matching.Joining
import HashtagSearch.Proofs.Matching.Duality
import HashtagSearch.Proofs.Matching.Regrouping
import HashtagSearch.Proofs.Matching.Scales
import HashtagSearch.Proofs.Matching.FreeText
import HashtagSearch.Proofs.OuterBlanks
import HashtagSearch.Proofs.Text.Sigmas
import HashtagSearch.Proofs.Matching.LiteralText
import HashtagSearch.Proofs.Text.CaseClasses
import HashtagSearch.Proofs.Text.WordEnds
import HashtagSearch.Proofs.Catalog.Offers
import HashtagSearch.Proofs.Catalog.Narrowing
import HashtagSearch.Proofs.Catalog.Faults
import HashtagSearch.Proofs.Display.Sequences
import HashtagSearch.Proofs.Json.Printing
import HashtagSearch.Proofs.Display.Colours
import HashtagSearch.Proofs.Grouped.Cursor
import HashtagSearch.Proofs.Grouped.Calls
