import NimiqApp.AccountNumber
import NimiqApp.Approval
import NimiqApp.Base32Buffer
import NimiqApp.BlindSigning
import NimiqApp.ChunkLengths
import NimiqApp.CleanFailure
import NimiqApp.Consent
import NimiqApp.Decisions
import NimiqApp.Foundation.Delimited
import NimiqApp.Foundation.Overlay
import NimiqApp.Foundation.Runs
import NimiqApp.HandheldProtocol
import NimiqApp.Heartbeats
import NimiqApp.HtlcReview
import NimiqApp.IbanAccesses
import NimiqApp.Leftovers
import NimiqApp.MessageDisplay
import NimiqApp.PrintedAmount
import NimiqApp.ProtocolRuns
import NimiqApp.Replies
import NimiqApp.ReviewAgreement
import NimiqApp.ReviewInjectivity
import NimiqApp.StakerReview
import NimiqApp.VestingReview
