import Veracruz.Codec.Text
import Veracruz.Codec.Base64
import Veracruz.Codec.Bytes
import Veracruz.Relay.Connection
import Veracruz.Relay.Run
import Veracruz.Client.Types
import Veracruz.Client.RuntimeHash
import Veracruz.Client.Session
import Veracruz.Client.DataPlane
import Veracruz.Client.Run
import Veracruz.Nitro.Bincode
import Veracruz.Nitro.Message
import Veracruz.Nitro.Socket
import Veracruz.Attestation.Server
