import MahinaOS.Control.Digest
import MahinaOS.Control.BootMenu
import MahinaOS.LunaInit.Toml
import MahinaOS.LunaInit.BootCompletion
import MahinaOS.Compositor.Ownership
import MahinaOS.Control.Retention
import MahinaOS.Control.Scopes
import MahinaOS.LunaInit.Shutdown
import MahinaOS.LunaInit.SignalReady
import MahinaOS.Control.ServiceProvider
import MahinaOS.Compositor.PointerTarget
import MahinaOS.Compositor.KeyboardFocus
import MahinaOS.Compositor.Announcements
import MahinaOS.Compositor.Pairing
import MahinaOS.Shell.EventLoop
import MahinaOS.Shell.Grabs
import MahinaOS.Shell.Shortcuts
import MahinaOS.Control.Sha256
import MahinaOS.Lgp.Clipboard
import MahinaOS.Compositor.KeyGrabs
import MahinaOS.Compositor.Framebuffer
import MahinaOS.Compositor.Input
import MahinaOS.Setup.User
import MahinaOS.Lpkg.Provider
import MahinaOS.Lpkg.Install
import MahinaOS.LunaAi.Prompt
import MahinaOS.LunaAi.Stream
import MahinaOS.Shell.Placement
import MahinaOS.Shell.Geometry
import MahinaOS.LunaText.Editor
import MahinaOS.LunaGui.Color
