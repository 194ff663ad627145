import SliceControl.Api.Message
import SliceControl.Config

/-!
# Asking the server

The address of the server is given, or follows from the configuration. An address needs the scheme
of the web, and whatever fails on the way is told together with its causes.
-/

namespace SliceControl.Command

/-- The address of the server without slashes at its end. -/
def serverAddress (server : Option String) (config : Config) : String :=
  match server with
  | some address =>
    String.ofList (address.toList.reverse.dropWhile (· = '/')).reverse
  | none =>
    let host :=
      if config.bindAddr = "0.0.0.0" || config.bindAddr = "::" then "localhost"
      else config.bindAddr
    "http://" ++ host ++ ":" ++ toString config.port.toNat

/-- The scheme of an address: a letter, then letters, digits, plus and minus signs and points, up to
a colon. -/
def scheme? (address : String) : Option String :=
  let scheme := address.toList.takeWhile fun character =>
    character.isAlphanum || ['+', '-', '.'].contains character
  match scheme, address.toList.drop scheme.length with
  | first :: _, ':' :: _ =>
    if first.isAlpha then some (String.ofList (scheme.map Char.toLower)) else none
  | _, _ => none

/-- Why there is no answer from the server. -/
inductive ClientFault where
  /-- The address has no scheme. -/
  | relativeAddress
  /-- The scheme is not that of the web. -/
  | badScheme (address : String)
  /-- Nobody listens. -/
  | refusedConnection (address : String)
  /-- The body is not JSON. -/
  | unreadableBody
  deriving DecidableEq

namespace ClientFault

/-- What is told, followed by its causes. -/
def chain : ClientFault → List String
  | relativeAddress => ["builder error", "relative URL without a base"]
  | badScheme address =>
    ["builder error for url (" ++ address ++ ")", "URL scheme is not allowed"]
  | refusedConnection address =>
    ["error sending request for url (" ++ address ++ ")", "client error (Connect)",
      "tcp connect error", "Connection refused (os error 111)"]
  | unreadableBody => ["error decoding response body"]

end ClientFault

/-- The fault of an address that no request can be sent to. -/
def addressFault? (address : String) : Option ClientFault :=
  match scheme? address with
  | none => some .relativeAddress
  | some scheme =>
    if scheme = "http" || scheme = "https" then none else some (.badScheme address)

/-- What the status of a response is called. -/
def reason (status : Nat) : String :=
  (([(200, "OK"), (201, "Created"), (400, "Bad Request"), (404, "Not Found"),
    (405, "Method Not Allowed"), (409, "Conflict"), (415, "Unsupported Media Type"),
    (422, "Unprocessable Entity"), (503, "Service Unavailable")] : List (Nat × String)).lookup
    status).getD "<unknown status code>"

end SliceControl.Command
