import Peering.Lookup.Error

/-!
# Endpoint errors

Why an endpoint could not be built, read or resolved.
-/

namespace Peering

/-- What is wrong with the text of an endpoint. -/
inductive FormatFault where
  /-- An opening bracket without a closing one. -/
  | unclosedBracket
  /-- What stands in brackets is no IPv6 address. -/
  | invalidIPv6
  /-- Something other than a port follows the closing bracket. -/
  | textAfterBracket
  /-- Several colons, but no IPv6 address. -/
  | unbracketedIPv6
  /-- A colon with nothing after it. -/
  | emptyService
  /-- A hostname with a separator in it. -/
  | separatorInHostname
  /-- A service with a separator in it. -/
  | separatorInService
deriving DecidableEq

/-- The text of a fault. -/
def FormatFault.message : FormatFault → String
  | unclosedBracket => "missing closing bracket"
  | invalidIPv6 => "invalid IPv6 address"
  | textAfterBracket => "unexpected text after bracket"
  | unbracketedIPv6 => "IPv6 addresses with a port must be bracketed"
  | emptyService => "empty service"
  | separatorInHostname => "hostname must not contain `:` or brackets"
  | separatorInService => "service must not contain `:`"

/-- Why an endpoint could not be built, read or resolved. -/
inductive EndpointError where
  /-- What should have been a port is none. -/
  | invalidService (service : String)
  /-- The lookup failed. -/
  | resolutionFailed (cause : LookupError)
  /-- A hostname without characters. -/
  | emptyHostname
  /-- The text is no endpoint. -/
  | invalidFormat (input : String) (fault : FormatFault)
deriving DecidableEq

namespace EndpointError

/-- The text of an error. -/
def message : EndpointError → String
  | invalidService service => "Invalid service format: `" ++ service ++ "` is not a port number"
  | resolutionFailed cause => "Resolution failed: " ++ cause.message
  | emptyHostname => "Hostname must not be empty"
  | invalidFormat input fault => "Invalid endpoint `" ++ input ++ "`: " ++ fault.message

/-- The name of an error's cause in reports. -/
def name : EndpointError → String
  | invalidService _ => "InvalidServiceFormat"
  | resolutionFailed _ => "ResolutionFailed"
  | emptyHostname => "EmptyHostname"
  | invalidFormat .. => "InvalidFormat"

end EndpointError

end Peering
