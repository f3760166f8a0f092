/-!
# Faults of URLs

## Main definitions

* `Url.Fault`: why a text is not a URL.
* `Url.Fault.message`: its wording.
-/

namespace DiagnosticRelay.Url

/-- Why a text is not a URL. -/
inductive Fault where
  | missingScheme
  | emptyHost
  | malformedPort
  | malformedIpv4
  | malformedIpv6
  | malformedDomain
  | characterInHost
  deriving DecidableEq, Repr

/-- The wording of a fault. -/
def Fault.message : Fault → String
  | .missingScheme => "relative URL without a base"
  | .emptyHost => "empty host"
  | .malformedPort => "invalid port number"
  | .malformedIpv4 => "invalid IPv4 address"
  | .malformedIpv6 => "invalid IPv6 address"
  | .malformedDomain => "invalid international domain name"
  | .characterInHost => "invalid domain character"

end DiagnosticRelay.Url
