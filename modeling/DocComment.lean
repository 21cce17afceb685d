import DocComment.Main
import DocComment.Payload.Visit
import DocComment.Proofs.Event
import DocComment.Proofs.Meaning
import DocComment.Proofs.Calls
import DocComment.Proofs.Destination
import DocComment.Proofs.Discussion
import DocComment.Proofs.Distinction
import DocComment.Proofs.JsonText
import DocComment.Proofs.RecordText
import DocComment.Proofs.Acceptable
import DocComment.Proofs.PlainRecord
import DocComment.Proofs.KeptFields
import DocComment.Proofs.DepthLimit
import DocComment.Proofs.DiscussionShape
import DocComment.Proofs.Growth
import DocComment.Proofs.NestedBlocks
import DocComment.Proofs.NewlineStyle
import DocComment.Proofs.FieldGrammar
import DocComment.Proofs.FieldLayout
import DocComment.Proofs.CommandFiles
import DocComment.Proofs.ParameterSpellings
import DocComment.Proofs.FailingVisits
import DocComment.Proofs.LetterCase
import DocComment.Proofs.Refusals
import DocComment.Proofs.TypedPayload
