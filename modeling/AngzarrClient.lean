import AngzarrClient.Lib.Utf8
import AngzarrClient.Router.Conflict
import AngzarrClient.Router.Replay
import AngzarrClient.Router.Writes
import AngzarrClient.Router.Router
import AngzarrClient.Router.Coded
import AngzarrClient.Child
import AngzarrClient.Child.Launch
import AngzarrClient.Child.Reading
import AngzarrClient.Compensation
import AngzarrClient.Host.Lifecycle
import AngzarrClient.Lib.Protobuf
import AngzarrClient.GoogleRpc
import AngzarrClient.Host.Dispatcher
import AngzarrClient.Host.Secrecy
import AngzarrClient.Errors
import AngzarrClient.Host.Health
import AngzarrClient.Host.Hosting
import AngzarrClient.Lib.Store
import AngzarrClient.Router.Objects
import AngzarrClient.Router.Pipeline
import AngzarrClient.Helpers
import AngzarrClient.Lib.Hex
import AngzarrClient.Builder
import AngzarrClient.Compensation.Attribution
import AngzarrClient.Retry
import AngzarrClient.Wrappers
import AngzarrClient.Diagnostic
import AngzarrClient.Diagnostic.Render
import AngzarrClient.Descriptor
import AngzarrClient.Router.Causes
import AngzarrClient.Diagnostic.Marks
import AngzarrClient.Diagnostic.Fluent
import AngzarrClient.Child.Escaping
import AngzarrClient.Lib.Scoped
import AngzarrClient.Router.Pages
import AngzarrClient.Router.Sightings
import AngzarrClient.Router.Watched
import AngzarrClient.Lib.EventSourced
import AngzarrClient.Router.Session
import AngzarrClient.Client.Endpoint
import AngzarrClient.Client.Metadata
import AngzarrClient.Client.Calls
import AngzarrClient.Client.Channels
import AngzarrClient.Client.CommandBuilder
import AngzarrClient.Lib.Lines
import AngzarrClient.Diagnostic.Catalog
import AngzarrClient.Router.Manager
import AngzarrClient.Host.Signalled
import AngzarrClient.Host.Serving
import AngzarrClient.Lib.Sha1
import AngzarrClient.Identity
import AngzarrClient.Router.Readers
import AngzarrClient.Validation
