import AttrGrammar.Main
import AttrGrammar.Proofs.Lexing.Layout
import AttrGrammar.Proofs.Lexing.Places
import AttrGrammar.Proofs.Lexing.LineBreaks
import AttrGrammar.Proofs.Literal.RoundTrip
import AttrGrammar.Proofs.Literal.Suffixes
import AttrGrammar.Proofs.Literal.Integers
import AttrGrammar.Proofs.Literal.Bytes
import AttrGrammar.Proofs.Literal.Escapes
import AttrGrammar.Proofs.Trees.RoundTrip
import AttrGrammar.Proofs.Trees.Balance
import AttrGrammar.Proofs.Expression.Correctness
import AttrGrammar.Proofs.Printing.Emission
import AttrGrammar.Proofs.Printing.Faithful
import AttrGrammar.Proofs.Reading.Items
import AttrGrammar.Proofs.Reading.Agreement
import AttrGrammar.Proofs.Reading.Locality
import AttrGrammar.Proofs.Reading.Failures
import AttrGrammar.Proofs.Reading.Outcomes
import AttrGrammar.Proofs.Reading.Walks
import AttrGrammar.Proofs.Attributes.Locality
import AttrGrammar.Proofs.Attributes.Lists
import AttrGrammar.Proofs.Attributes.Spellings
import AttrGrammar.Proofs.Attributes.Rendering
import AttrGrammar.Proofs.Attributes.Failures
import AttrGrammar.Proofs.Attributes.Answers
import AttrGrammar.Proofs.Attributes.Places
import AttrGrammar.Proofs.Attributes.Placeless
import AttrGrammar.Proofs.Attributes.Walks
import AttrGrammar.Proofs.Linting.Lines
import AttrGrammar.Proofs.Definitions.Keywords
import AttrGrammar.Proofs.Attributes.Ends
import AttrGrammar.Proofs.Attributes.KeywordPlaces
import AttrGrammar.Proofs.Attributes.Sessions
import AttrGrammar.Proofs.Expression.Viable
import AttrGrammar.Proofs.Expression.Calls
import AttrGrammar.Proofs.Expression.Precedence
import AttrGrammar.Proofs.Types.Exactness
import AttrGrammar.Proofs.Literal.Overflow
import AttrGrammar.Proofs.Reading.Rejections
import AttrGrammar.Proofs.Attributes.Dispatch
import AttrGrammar.Proofs.Types.Surplus
import AttrGrammar.Proofs.Expression.Sites
import AttrGrammar.Proofs.Attributes.Situations
import AttrGrammar.Proofs.Expression.Shifts
import AttrGrammar.Proofs.Linting.Status
