import Bitty.Attach.Conserved
import Bitty.Config.ArgsJson
import Bitty.Config.Keymap
import Bitty.Daemon.Events.Run
import Bitty.Daemon.Frame
import Bitty.Daemon.Grants.OneShot
import Bitty.Daemon.Idempotency.Commute
import Bitty.Daemon.Lease.InStep
import Bitty.Daemon.Lease.Termination
import Bitty.Daemon.Lease.Token
import Bitty.Daemon.Lease.Unseen
import Bitty.Daemon.Orphan.Signals
import Bitty.Package.Atomic
import Bitty.Package.Binding
import Bitty.Package.Compat
import Bitty.Package.Digest
import Bitty.Package.Drift
import Bitty.Package.Verdict
import Bitty.Plugin.Authority.Authorize
import Bitty.Plugin.Event.Construct
import Bitty.Plugin.Event.Overflow
import Bitty.Plugin.Fs.Authorize
import Bitty.Plugin.Fs.Glob
import Bitty.Plugin.Grant.Save
import Bitty.Plugin.Store.Durable
import Bitty.Render.Frame
import Bitty.Runtime.Mouse
import Bitty.Term.Kitty.Animation
import Bitty.Term.Kitty.Scroll
import Bitty.Term.Screen.Insert
import Bitty.Term.Screen.Isolation
import Bitty.Term.Screen.KittyRuns
import Bitty.Ui.Drag
import Bitty.Ui.Focus
import Bitty.Ui.HitTest
import Bitty.Ui.Label
import Bitty.Ui.Lift
import Bitty.Ui.Retained
import Bitty.Ui.Scratchpad
import Bitty.Ui.Search
import Bitty.Ui.Word
import Bitty.Vt.Kitty.Chunked
import Bitty.Vt.Overflow
import Bitty.Vt.Sixel.Paint
import Bitty.Vt.Stall
import Bitty.Vt.Transparent
