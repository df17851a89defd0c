/-!
This module contains the host part of `Host` headers.
-/

namespace Intercom.Signaling.Host

/-- The text up to and with its first closing bracket; all of it if there is none. -/
def bracketed : List Char → List Char
  | [] => []
  | c :: cs => if c = ']' then [c] else c :: bracketed cs

/-- The header without its port. A bracketed literal keeps its brackets; what is no host with a port,
like an IPv6 address without brackets, stays as it is. -/
def withoutPort (host : String) : String :=
  match host.toList with
  | '[' :: cs => String.ofList ('[' :: bracketed cs)
  | cs =>
    match cs.dropWhile (· ≠ ':') with
    | _ :: port => if port.all Char.isDigit then String.ofList (cs.takeWhile (· ≠ ':')) else host
    | [] => host

end Intercom.Signaling.Host
