import ModelClient.Main
import ModelClient.Proofs.AdvertisedTools
import ModelClient.Proofs.Aggregation
import ModelClient.Proofs.Attempts
import ModelClient.Proofs.Authorization
import ModelClient.Proofs.Backoffs
import ModelClient.Proofs.Blocks
import ModelClient.Proofs.CallHistory
import ModelClient.Proofs.CallObservations
import ModelClient.Proofs.CompactTexts
import ModelClient.Proofs.ConfigRoundTrips
import ModelClient.Proofs.Conversation
import ModelClient.Proofs.Dictionaries
import ModelClient.Proofs.EmbeddingBatches
import ModelClient.Proofs.EmbeddingUsage
import ModelClient.Proofs.EnabledTools
import ModelClient.Proofs.EndMark
import ModelClient.Proofs.EnvironmentOverlay
import ModelClient.Proofs.EventLines
import ModelClient.Proofs.FiniteNumbers
import ModelClient.Proofs.FollowUp
import ModelClient.Proofs.Fragmentation
import ModelClient.Proofs.HandOvers
import ModelClient.Proofs.HandlerLogs
import ModelClient.Proofs.LatestValues
import ModelClient.Proofs.Layering
import ModelClient.Proofs.Lifetimes
import ModelClient.Proofs.Numerals
import ModelClient.Proofs.ObservedOptions
import ModelClient.Proofs.OptionLayers
import ModelClient.Proofs.ParsedDocuments
import ModelClient.Proofs.PartialResponses
import ModelClient.Proofs.Printing
import ModelClient.Proofs.ProxiedCalls
import ModelClient.Proofs.Rearranged
import ModelClient.Proofs.Reassembly
import ModelClient.Proofs.Records
import ModelClient.Proofs.Repetition
import ModelClient.Proofs.RoleMemory
import ModelClient.Proofs.RoundLimit
import ModelClient.Proofs.RoundTrips
import ModelClient.Proofs.Runs
import ModelClient.Proofs.Segments
import ModelClient.Proofs.SeveralCalls
import ModelClient.Proofs.StatusErrors
import ModelClient.Proofs.StreamBodies
import ModelClient.Proofs.StreamErrors
import ModelClient.Proofs.StreamObservations
import ModelClient.Proofs.StreamTraces
import ModelClient.Proofs.StreamedParts
import ModelClient.Proofs.StreamedText
import ModelClient.Proofs.Timestamps
import ModelClient.Proofs.ToolAnswers
import ModelClient.Proofs.ToolOutcomes
import ModelClient.Proofs.ToolRounds
import ModelClient.Proofs.VisibleMetadata
import ModelClient.Proofs.WireRoundTrips
import ModelClient.Proofs.Wiring
import ModelClient.Proofs.WrittenChunks
