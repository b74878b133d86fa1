import Nrf52Platform.Builder.Bench
import Nrf52Platform.Builder.Bootloaders
import Nrf52Platform.Builder.Handover
import Nrf52Platform.Builder.Packages
import Nrf52Platform.Builder.PortInfo
import Nrf52Platform.Builder.Protocol
import Nrf52Platform.Builder.Regenerated
import Nrf52Platform.Builder.Reset
import Nrf52Platform.Builder.ResetRuns
import Nrf52Platform.Builder.Session
import Nrf52Platform.Builder.Swd
import Nrf52Platform.Builder.Targets
import Nrf52Platform.Builder.Uf2
import Nrf52Platform.Builder.ZephyrConfig
import Nrf52Platform.Scons.Actions
import Nrf52Platform.Scons.Sequences
import Nrf52Platform.Scons.Subst
import Nrf52Platform.Scripts.Headers
import Nrf52Platform.Scripts.VidDump
import Nrf52Platform.Support.Dict
import Nrf52Platform.Support.Hex
import Nrf52Platform.Support.Literal
import Nrf52Platform.Support.Regex
import Nrf52Platform.Support.Text
import Nrf52Platform.Support.Watch
import Nrf52Platform.Support.Words
