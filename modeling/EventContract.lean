import EventContract.Client.Subscriber
import EventContract.Consumption.Evaluation
import EventContract.Main
import EventContract.Proofs.ChainFlattening
import EventContract.Proofs.MatchingArtifacts
import EventContract.Proofs.OwnedStream
import EventContract.Proofs.RetryWait
import EventContract.Proofs.SavedSchema
import EventContract.Proofs.BackoffDelay
import EventContract.Proofs.RetryAccount
import EventContract.Proofs.RegistrationLog
import EventContract.Proofs.SilentClient
import EventContract.Proofs.ScriptedConnection
import EventContract.Proofs.NestedDispatch
import EventContract.Proofs.DeclaredNames
import EventContract.Proofs.FieldModel
import EventContract.Proofs.HeaderComments
import EventContract.Proofs.LiteralBytes
import EventContract.Proofs.ParameterSearch
import EventContract.Proofs.KeywordParameters
import EventContract.Proofs.CapturedTypes
import EventContract.Proofs.FoldedChain
import EventContract.Proofs.DocumentFaults
import EventContract.Proofs.LiteralLists
import EventContract.Proofs.DocumentationComments
import EventContract.Proofs.NameWords
import EventContract.Proofs.BalancedArtifacts
import EventContract.Proofs.ChainLocality
import EventContract.Proofs.SettingLayers
import EventContract.Proofs.SavedArtifacts
import EventContract.Proofs.LiteralScan
