import Veracruz.Codec.Bytes
import Veracruz.Relay.Connection

/-!
# The client's data model

The state of a `VeracruzClient` and the values its methods exchange with the enclave.
The TLS context is modelled by what the client reads from it and writes to it: the peer
certificate chain fixed by the handshake, and the log of requests written so far. The
libraries the methods call (the protobuf codec of `transport_protocol`, the policy's path
normaliser, the enclave behind the relay) are gathered in `Env`, so that every statement
about the client holds for all of them.
-/

namespace Veracruz

open Veracruz.Bytes

/-- The platforms `compare_runtime_hash` consults, in the order it consults them. -/
inductive Platform
  | linux
  | nitro
  | iceCap
  deriving DecidableEq, Repr

/-- What the client reads of the global policy: the runtime-manager hash of each platform,
as a hex string, where the policy names one (`runtime_manager_hash` returns an error
otherwise). -/
structure Policy where
  runtimeManagerHash : Platform → Option (List UInt8)

/-- Modelled from the spec: `transport_protocol::ResponseStatus`, a success status or a
failure code; the client only tells `SUCCESS` apart from the rest. -/
inductive ResponseStatus
  | success
  | failed (code : Nat)
  deriving DecidableEq, Repr

/-- Modelled from the spec: `transport_protocol::RuntimeManagerResponse`, a status and an
optional typed payload, the policy hash or a result blob. -/
structure RuntimeManagerResponse where
  status : ResponseStatus
  policyHash : Option (List UInt8)
  result : Option (List UInt8)
  deriving DecidableEq, Repr

/-- `get_policy_hash().data`: protobuf getters read an unset field as its empty default. -/
def RuntimeManagerResponse.getPolicyHash (r : RuntimeManagerResponse) : List UInt8 :=
  r.policyHash.getD []

/-- The requests the client writes into the TLS channel, one per `serialize_*` function of
`transport_protocol`. -/
inductive Request
  | requestPolicyHash
  | program (path program : List UInt8)
  | programData (path data : List UInt8)
  | requestResult (path : List UInt8)
  | readFile (path : List UInt8)
  | requestShutdown
  deriving DecidableEq, Repr

/-- The requests a data-plane call writes once its checks pass. -/
def Request.isDataPlane : Request → Bool
  | .program .. | .programData .. | .requestResult _ | .readFile _ => true
  | .requestPolicyHash | .requestShutdown => false

/-- An error of the protobuf layer of `transport_protocol`. -/
structure TransportProtocolError where
  reason : String
  deriving DecidableEq, Repr

/-- An error of `webpki` while parsing the peer's end-entity certificate. -/
structure WebpkiError where
  reason : String
  deriving DecidableEq, Repr

/-- The variants of `VeracruzClientError` that the modelled methods raise. -/
inductive VeracruzClientError
  | noPeerCertificatesError
  | unexpectedCertificateError
  | webpkiError (e : WebpkiError)
  | runtimeHashExtensionMissingError
  | noMatchingRuntimeIsolateHash
  | hexError (e : FromHexError)
  | mismatchError (name : String) (expected received : List UInt8)
  | responseError (function : String) (status : ResponseStatus)
  | veracruzServerResponseNoResultError
  | invalidPath
  | transportProtocolError (e : TransportProtocolError)
  | utf8Error (e : Utf8Error)
  | ioError (e : IoError)
  deriving DecidableEq, Repr

/-- What `webpki::EndEntityCert` exposes to the client: its unrecognized extensions, by
DER-encoded extension id. -/
structure EndEntityCert where
  unrecognizedExtensions : List UInt8 → Option (List UInt8)

/-- A certificate of the peer's chain, given by what `EndEntityCert::try_from` makes of its
DER bytes. -/
structure Certificate where
  endEntity : Except WebpkiError EndEntityCert

/-- The client's state. `peerCert` is `tls_context.peer_cert()`: `none` for an mbedtls
error, otherwise mbedtls' optional chain. `written` is the log of requests written to the
TLS context, oldest first. -/
structure VeracruzClient where
  policy : Policy
  policyHash : List UInt8
  peerCert : Option (Option (List Certificate))
  remoteSessionId : Option UInt32
  written : List Request

/-- The code the client calls but this repository does not contain. -/
structure Env where
  /-- `transport_protocol::serialize_*`: the request's bytes, or the encoder's error. -/
  serialize : Request → Except TransportProtocolError (List UInt8)
  /-- The relay and the enclave behind `send`: given every request written so far, the
  value the shared session-id cell holds after the round trip and the bytes read back, or
  the TLS layer's error. -/
  respond : List Request → Option UInt32 × Except IoError (List UInt8)
  /-- `transport_protocol::parse_runtime_manager_response`. -/
  parse : Option UInt32 → List UInt8 → Except TransportProtocolError RuntimeManagerResponse
  /-- `policy_utils::parsers::enforce_leading_backslash`. -/
  enforceLeadingBackslash : List UInt8 → List UInt8
  /-- `veracruz_utils::VERACRUZ_RUNTIME_HASH_EXTENSION_ID`, the four arcs of the OID. -/
  runtimeHashExtensionId : Fin 4 → UInt8

/-- The three-byte key `check_runtime_hash` looks the extension up by: DER folds the first
two arcs of the OID into one byte. -/
def Env.encodedExtensionId (env : Env) : List UInt8 :=
  [env.runtimeHashExtensionId 0 * 40 + env.runtimeHashExtensionId 1,
    env.runtimeHashExtensionId 2, env.runtimeHashExtensionId 3]

end Veracruz
