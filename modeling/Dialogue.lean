import Dialogue.Authoring
import Dialogue.Character.Alphabetic
import Dialogue.Character.Blank
import Dialogue.Character.CaseContext
import Dialogue.Character.Casing
import Dialogue.Character.Edition
import Dialogue.Character.Emoji
import Dialogue.Character.Mark
import Dialogue.Character.Numeric
import Dialogue.Character.Ranges
import Dialogue.Character.Word
import Dialogue.Conversation.Cycle
import Dialogue.Conversation.Action
import Dialogue.Conversation.Delay
import Dialogue.Conversation.Exchange
import Dialogue.Conversation.Memory
import Dialogue.Conversation.Session
import Dialogue.Conversation.State
import Dialogue.Conversation.Turn
import Dialogue.Conversation.Visit
import Dialogue.Failure
import Dialogue.Json.Basic
import Dialogue.Json.Numeral
import Dialogue.Json.Reader
import Dialogue.Json.Shortest
import Dialogue.Json.Token
import Dialogue.Options
import Dialogue.Pattern.Basic
import Dialogue.Pattern.Library
import Dialogue.Pattern.Replace
import Dialogue.Pattern.Table
import Dialogue.Pattern.WholeWord
import Dialogue.Proofs.Character.Word
import Dialogue.Proofs.Conversation.Invariants
import Dialogue.Proofs.Conversation.Redirects
import Dialogue.Proofs.Conversation.Restart
import Dialogue.Proofs.Pattern.Meaning
import Dialogue.Proofs.Pattern.Notation
import Dialogue.Proofs.Pattern.WholeWord
import Dialogue.Proofs.Script.Keyword
import Dialogue.Proofs.Template.Reading
import Dialogue.Proofs.Template.Split
import Dialogue.Proofs.Text.Scan
import Dialogue.Proofs.Text.Tidy
import Dialogue.Random.Draws
import Dialogue.Random.Seeded
import Dialogue.Random.Shuffle
import Dialogue.Script.Basic
import Dialogue.Script.Compile
import Dialogue.Script.Declaration
import Dialogue.Script.Doctor
import Dialogue.Script.Reply
import Dialogue.Script.Shape
import Dialogue.Segmentation
import Dialogue.Substitution
import Dialogue.Template
import Dialogue.Text.Basic
import Dialogue.Text.Lowercase
import Dialogue.Text.Scan
import Dialogue.Text.Words
import Dialogue.Proofs.Text.Blank
import Dialogue.Proofs.Conversation.Ending
import Dialogue.Proofs.Conversation.Fairness
import Dialogue.Proofs.Conversation.Silence
import Dialogue.Proofs.Authoring.Format
import Dialogue.Proofs.Json.Commas
import Dialogue.Proofs.Authoring.Comments
import Dialogue.Proofs.Authoring.Wrapper
import Dialogue.Proofs.Authoring.Commas
import Dialogue.Proofs.Authoring.Reading
import Dialogue.Proofs.Script.Readers
import Dialogue.Proofs.Script.Ranking
import Dialogue.Proofs.Conversation.Reordering
import Dialogue.Proofs.Conversation.Recollection
import Dialogue.Proofs.Script.Building
import Dialogue.Proofs.Script.Requirements
import Dialogue.Proofs.Script.Declared
import Dialogue.Proofs.Script.Acceptance
import Dialogue.Proofs.Pattern.Replace
import Dialogue.Proofs.Text.Lowercase
import Dialogue.Proofs.Text.Pieces
import Dialogue.Proofs.Text.Spacing
import Dialogue.Proofs.Segmentation.StopWords
import Dialogue.Proofs.Segmentation.Parts
import Dialogue.Proofs.Conversation.Fallback
import Dialogue.Proofs.Conversation.Chance
import Dialogue.Proofs.Segmentation.Ink
import Dialogue.Proofs.Conversation.Phrases
import Dialogue.Proofs.Conversation.Sayings
import Dialogue.Proofs.Script.Wording
import Dialogue.Proofs.Script.Hubs
import Dialogue.Proofs.Conversation.Doctor
import Dialogue.Proofs.Substitution.WordPass
import Dialogue.Proofs.Conversation.Bystander
import Dialogue.Proofs.Conversation.Keeping
import Dialogue.Proofs.Conversation.Apart
import Dialogue.Proofs.Pattern.Findable
import Dialogue.Proofs.Script.Filling
import Dialogue.Proofs.Conversation.Supply
import Dialogue.Proofs.Conversation.Turns
import Dialogue.Proofs.Character.Folding
import Dialogue.Proofs.Substitution.LetterCase
import Dialogue.Proofs.Script.Naming
import Dialogue.Proofs.Segmentation.Standing
import Dialogue.Proofs.Segmentation.StopCharacters
import Dialogue.Proofs.Script.CatchAll
import Dialogue.Proofs.Random.Shuffle
import Dialogue.Proofs.Script.Destination
import Dialogue.Proofs.Conversation.Custody
import Dialogue.Proofs.Script.TrailingRank
import Dialogue.Proofs.Conversation.Waiting
import Dialogue.Proofs.Json.Members
import Dialogue.Proofs.Options.Fields
import Dialogue.Proofs.Options.Overlay
import Dialogue.Proofs.Authoring.Lines
import Dialogue.Proofs.Json.Grammar
import Dialogue.Proofs.Json.LooseCommas
import Dialogue.Proofs.Authoring.Tolerance
