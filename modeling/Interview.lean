import Interview.Main
import Interview.Proofs.LoopMembers
import Interview.Proofs.LoopTrace
import Interview.Proofs.Termination
import Interview.Proofs.Destinations
import Interview.Proofs.OneView
import Interview.Proofs.TopicPlaces
import Interview.Proofs.RowAlerts
import Interview.Proofs.HiddenSections
import Interview.Proofs.Walks
import Interview.Proofs.EmptyLoops
import Interview.Proofs.AlertLinks
import Interview.Proofs.WrittenOutlines
import Interview.Proofs.Outcomes
import Interview.Proofs.HeldBackRows
import Interview.Proofs.AlertArrivals
import Interview.Proofs.ItemLocks
import Interview.Proofs.WithoutItem
import Interview.Proofs.ConditionGrammar
import Interview.Proofs.OperatorLaws
import Interview.Proofs.ScreenAddresses
import Interview.Proofs.MemberSteps
import Interview.Proofs.WalkEnds
import Interview.Proofs.ReportedLines
import Interview.Proofs.PublicationStatus
import Interview.Proofs.ItemFacts
