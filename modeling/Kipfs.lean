import Kipfs.Foundation.Effects
import Kipfs.Foundation.Parts
import Kipfs.Foundation.Machine
import Kipfs.Foundation.RefTable
import Kipfs.Foundation.Credits
import Kipfs.Foundation.Owners
import Kipfs.Foundation.Ledger
import Kipfs.Foundation.Reader
import Kipfs.Foundation.Unicode
import Kipfs.Go.Ipfsapi
import Kipfs.Go.Shell
import Kipfs.Go.Cids
import Kipfs.Go.Process
import Kipfs.Go.Exports
import Kipfs.Go.Lifetimes
import Kipfs.Go.Atoms
import Kipfs.Kotlin.Native
import Kipfs.Kotlin.Jni
import Kipfs.Kotlin.Objects
import Kipfs.Go.Streaming
import Kipfs.Go.Posting
import Kipfs.Go.Callbacks
import Kipfs.Go.Sessions
import Kipfs.Kotlin.Text
import Kipfs.Kotlin.Multibase
import Kipfs.Kotlin.Outcomes
import Kipfs.Kotlin.Results
import Kipfs.Kotlin.Resources
import Kipfs.Kotlin.Handles
import Kipfs.Kotlin.Leaks
import Kipfs.Kotlin.Residue
import Kipfs.Kotlin.Posts
import Kipfs.Kotlin.Marshalling
import Kipfs.Kotlin.OneShot
import Kipfs.Kotlin.Ideal
import Kipfs.Kotlin.Simulation
import Kipfs.Kotlin.Guarantees
import Kipfs.Kotlin.Portable
import Kipfs.Kotlin.Overlap
import Kipfs.Kotlin.Isolation
import Kipfs.Kotlin.Progress
import Kipfs.Kotlin.Clients
import Kipfs.Kotlin.Contention
import Kipfs.Kotlin.Alone
import Kipfs.Api.Functions
import Kipfs.Api.Parameters
import Kipfs.Api.Answers
