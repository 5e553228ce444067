import Zlyme.Gamepad.AppliedCentre
import Zlyme.Gamepad.Framing
import Zlyme.Dmc.Suspend
import Zlyme.Preloader.Transaction
import Zlyme.Ota.Atomicity
import Zlyme.Ota.Commit
import Zlyme.Preloader.State
import Zlyme.Release.DeltaAgreement
import Zlyme.Gamepad.ReaderAgreement
import Zlyme.Games.OrphanPrefs
import Zlyme.Games.SaveOwnership
import Zlyme.Prefs.LookupAgreement
import Zlyme.Keylidmon.LidSafety
import Zlyme.Usb.Link
import Zlyme.Usb.ReaperGuard
import Zlyme.Ota.RebootLoop
import Zlyme.Ota.QueueOrder
import Zlyme.Portmaster.Cleanup
import Zlyme.Session.PakStamp
import Zlyme.Preloader.Backups
import Zlyme.Net.Services
import Zlyme.Audio.VolumeWorker
import Zlyme.Boot.LogMarker
import Zlyme.Boot.BootWrite
import Zlyme.Audio.Conf
import Zlyme.Ntp.Lock
import Zlyme.Installer.RoundTrip
import Zlyme.Logs.CaptureOnce
import Zlyme.Gamepad.Deadzone
import Zlyme.Gamepad.CalibrationGrammar
import Zlyme.Preloader.FailClosed
import Zlyme.Storage.FormatTarget
import Zlyme.Storage.LibraryHistory
import Zlyme.Resize.Boots
import Zlyme.Cores.StampTruth
import Zlyme.Bios.UnionView
import Zlyme.Release.BaseSelection
import Zlyme.Release.DeltaOnce
import Zlyme.Ota.Space
import Zlyme.Ota.UbootTarget
import Zlyme.Gamepad.Capture
import Zlyme.Games.OrphanSaves
import Zlyme.Pak.ProcStat
import Zlyme.Pak.Hotkey
import Zlyme.Pak.HotkeyPads
import Zlyme.Pak.HotkeyOrder
import Zlyme.Pak.HotkeyChord
import Zlyme.Pak.HotkeyWatch
import Zlyme.Input.PlayerOrder
import Zlyme.Hdmi.Viewport
import Zlyme.Foundation.BestSoFar
import Zlyme.Hdmi.Pick
import Zlyme.Governor.Profiles
import Zlyme.Pak.LaunchRecord
import Zlyme.Foundation.Civil
import Zlyme.Ntp.Bootstrap
import Zlyme.Foundation.KeyedCache
import Zlyme.Bios.ViewCache
import Zlyme.Usb.PathPolicy
import Zlyme.Usb.Exports
import Zlyme.Storage.Mountpoints
import Zlyme.Foundation.Peeling
import Zlyme.Portmaster.Removal
import Zlyme.Portmaster.Sweeps
import Zlyme.Portmaster.CleanupComplete
import Zlyme.Portmaster.Attachment
import Zlyme.Pak.SaveBinds
import Zlyme.Pak.BindOwnership
import Zlyme.Storage.MountTable
import Zlyme.Net.SecretIntake
import Zlyme.Games.PicoMap
import Zlyme.Games.SaveLibrary
import Zlyme.Net.Proxy
import Zlyme.Logs.Budget
import Zlyme.Games.OverlayTable
import Zlyme.Net.Country
import Zlyme.Foundation.Replace
import Zlyme.Portmaster.PatchHardware
import Zlyme.Portmaster.PlatformMapping
import Zlyme.Foundation.Hex
import Zlyme.Installer.BootOrderAwk
import Zlyme.Installer.ImageTools
import Zlyme.Installer.ImageCheck
import Zlyme.Installer.BootOrderImage
import Zlyme.Installer.AppliedImage
import Zlyme.Foundation.Median
import Zlyme.Gamepad.BootHistory
import Zlyme.Foundation.Population
import Zlyme.Pak.Spawn
import Zlyme.Pak.SpawnSafety
import Zlyme.Foundation.Concurrent
import Zlyme.Scrape.Queue
import Zlyme.Scrape.Threads
import Zlyme.Scrape.Process
import Zlyme.Scrape.Discipline
import Zlyme.Scrape.Keeping
import Zlyme.Scrape.WorkerSafety
import Zlyme.Scrape.ManagerSafety
import Zlyme.Scrape.QueueSafety
import Zlyme.Scrape.QueueFile
import Zlyme.Scrape.Programs
