import CallProfile.Dictionary
import CallProfile.Main
import CallProfile.Proofs.Tree.StackDepth
import CallProfile.Proofs.View.TreeAgreement
import CallProfile.Report.Reader
import CallProfile.Storage.FileSystem
import CallProfile.Tree.CallTree
import CallProfile.Proofs.Tree.EntryPoint
import CallProfile.Proofs.Tree.Attribution
import CallProfile.Proofs.Json.MemberOrder
import CallProfile.Proofs.Dataset.DictionaryOrder
import CallProfile.Proofs.Tree.HeavyNodes
import CallProfile.Proofs.View.Batches
import CallProfile.Proofs.View.LineMarkers
import CallProfile.Proofs.Dataset.Acceptance
import CallProfile.Proofs.Dataset.Promises
import CallProfile.Proofs.Dataset.Runtime
import CallProfile.Proofs.Report.RoundTrip
import CallProfile.Proofs.Command.Refusals
import CallProfile.Proofs.Tree.HeaviestChain
import CallProfile.Proofs.Tree.Reattribution
import CallProfile.Proofs.View.FlatView
import CallProfile.Proofs.View.CalleeView
import CallProfile.Proofs.Tree.Refiltering
import CallProfile.Proofs.Tree.ChainedInsertion
import CallProfile.Proofs.Tree.ExchangeContent
import CallProfile.Proofs.Dataset.Classification
import CallProfile.Proofs.Dictionary.Laws
import CallProfile.Proofs.Command.Choice
import CallProfile.Proofs.Tree.Settling
import CallProfile.Proofs.Tree.Listing
