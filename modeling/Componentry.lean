import Componentry.Describe.Instance
import Componentry.Engine.Api
import Componentry.Engine.Release
import Componentry.Options.OfJson
import Componentry.Options.ScriptOfJson
import Componentry.Proofs.Class.Idempotent
import Componentry.Proofs.Class.LateEdit
import Componentry.Proofs.Class.LateWatch
import Componentry.Proofs.Class.OwnName
import Componentry.Proofs.Class.Pinned
import Componentry.Proofs.Class.Removal
import Componentry.Proofs.Class.Scratch
import Componentry.Proofs.Engine.FastPath
import Componentry.Proofs.Engine.MountedOnce
import Componentry.Proofs.Engine.Tags
import Componentry.Proofs.Options.Grouping
import Componentry.Proofs.Options.HandlerOrder
import Componentry.Render.SpecOfJson
import Componentry.Proofs.Engine.Landing
import Componentry.Proofs.Engine.HostPage
import Componentry.Proofs.Engine.SetUpOnce
import Componentry.Proofs.Engine.InstanceTree
import Componentry.Proofs.Engine.CompileMemo
import Componentry.Proofs.Likeness
import Componentry.Proofs.Template.Fingerprint
import Componentry.Proofs.Template.Hoist
import Componentry.Proofs.Diagnostics.Alike
import Componentry.Proofs.Diagnostics.Classes
import Componentry.Proofs.Diagnostics.Compiling
import Componentry.Proofs.Diagnostics.Mounting
import Componentry.Proofs.Diagnostics.Operations
import Componentry.Proofs.Class.SourceLine
import Componentry.Proofs.Options.WatcherOrder
import Componentry.Proofs.Engine.Hydration
import Componentry.Proofs.Engine.Propagation
import Componentry.Proofs.Engine.Callbacks
import Componentry.Proofs.Engine.Properties
import Componentry.Proofs.Engine.Injections
import Componentry.Proofs.Render.Slots
import Componentry.Proofs.Options.PropNames
import Componentry.Proofs.Template.Interpolation
import Componentry.Proofs.Engine.PassedProps
import Componentry.Proofs.Template.Verbatim
import Componentry.Proofs.Template.Pieces
import Componentry.Proofs.Template.QuotedTexts
import Componentry.Proofs.Template.Attributes
import Componentry.Proofs.Options.Reading
import Componentry.Proofs.Template.GuardedAttributes
import Componentry.Proofs.Markup.Unambiguous
import Componentry.Proofs.Class.Depth
import Componentry.Proofs.Engine.Filling
import Componentry.Proofs.Engine.Sourcing
import Componentry.Proofs.Engine.SourcedOnce
