import PodRoutes.Network.Basic
import PodRoutes.Text.Search

/-!
# What can go wrong

An error names its cause; the wording is a function of the cause. Two questions about an error
steer the program: whether it says that a destination is taken (`RouteError.isDuplicate`), and
whether it says that a stored object has changed in between (`RouteError.isConflict`).
-/

namespace PodRoutes

/-! ### Causes -/

inductive CidrProblem where
  | unreadable (text : String) (fault : NetworkFault)
  | routeUnreadable (destination : String) (fault : NetworkFault)
  | onNodeSpec (text : String)
  | emptyQuery
  | other (detail : String)
deriving DecidableEq

inductive ConfigProblem where
  | notSet
  | unreadable
  | missingVpc
  | endpointScheme (endpoint : String)
  | zeroWaitInterval
  | headerName (name : String)
  | headerValue
  | other (detail : String)
deriving DecidableEq

inductive TransportFault where
  | emptyHost
  | badUrl
  | unreachable
  | closed
  | timedOut
deriving DecidableEq

inductive ClusterFault where
  /-- The server answered with a status object, or with a failing status alone. -/
  | refused (code : Nat) (reason message : String)
  | unreadable
  | badRequest
deriving DecidableEq

inductive InternalProblem where
  | listingTimedOut
  | noCreateAttempt (destination : String)
  | noPatchAttempt (node : String)
  | other (detail : String)
deriving DecidableEq

inductive RouteError where
  | duplicateDestination (destination message : String)
  | ownedByOther (destination owner instanceId : String)
  /-- The text is the provider's own. -/
  | gateway (message : String)
  | lookup (destination : String) (cause : RouteError)
  | notVisible (destination : String)
  | invalidCidr (problem : CidrProblem)
  | instanceIdUnresolved (node : String)
  | nodeNotFound (node : String)
  | invalidConfiguration (problem : ConfigProblem)
  | transport (fault : TransportFault)
  | cluster (fault : ClusterFault)
  | serialization
  | internal (problem : InternalProblem)
deriving DecidableEq

/-! ### Wording -/

def CidrProblem.message : CidrProblem → String
  | unreadable text fault => text ++ ": " ++ fault.message
  | routeUnreadable destination fault =>
    "ignoring route " ++ destination ++ ", unparsable CIDR: " ++ fault.message
  | onNodeSpec text => "invalid pod cidr on node spec: " ++ text
  | emptyQuery => "empty query condition"
  | other detail => detail

def ConfigProblem.message : ConfigProblem → String
  | notSet => "NET_CONF is not set"
  | unreadable => "cannot parse NET_CONF: not the expected JSON document"
  | missingVpc => "vpc_id is required"
  | endpointScheme endpoint =>
    "network_endpoint must start with http:// or https://, got: " ++ endpoint
  | zeroWaitInterval => "wait_interval_seconds must be positive"
  | headerName name => "invalid header name " ++ name ++ ": invalid HTTP header name"
  | headerValue => "invalid header value: failed to parse header value"
  | other detail => detail

def TransportFault.message : TransportFault → String
  | emptyHost => "builder error: empty host"
  | badUrl => "builder error: the URL cannot be used"
  | unreachable => "error sending request: no connection"
  | closed => "error sending request: connection closed before an answer"
  | timedOut => "error sending request: operation timed out"

def ClusterFault.message : ClusterFault → String
  | refused code reason message =>
    "ApiError: " ++ message ++ ": " ++ reason ++ " (ErrorResponse \x7b status: \"Failure\"" ++
      ", message: \"" ++ message ++ "\", reason: \"" ++ reason ++ "\", code: " ++
      Decimal.text code ++ " \x7d)"
  | unreadable => "the answer is not the expected JSON document"
  | badRequest => "the request cannot be built"

def InternalProblem.message : InternalProblem → String
  | listingTimedOut => "listing nodes and routes timed out"
  | noCreateAttempt destination => "no create attempt made for " ++ destination
  | noPatchAttempt node => "no patch attempt for " ++ node
  | other detail => detail

/-! ### Questions about a cluster fault -/

def ClusterFault.isNotFound : ClusterFault → Bool
  | .refused _ reason _ => reason = "NotFound"
  | _ => false

namespace RouteError

/-! ### Wording of errors -/

def message : RouteError → String
  | duplicateDestination destination message =>
    "CIDR already exists: " ++ destination ++ ": " ++ message
  | ownedByOther destination owner instanceId =>
    "Route for " ++ destination ++ " belongs to instance " ++ owner ++ ", not " ++ instanceId
  | gateway message => "Gateway error: " ++ message
  | lookup destination cause =>
    "Describe route failed for " ++ destination ++ ": " ++ cause.message
  | notVisible destination => "Route for " ++ destination ++ " not visible after create"
  | invalidCidr problem => "Invalid CIDR: " ++ problem.message
  | instanceIdUnresolved node => "Cannot resolve instance id for node " ++ node
  | nodeNotFound node => "Node not found: " ++ node
  | invalidConfiguration problem => "Invalid configuration: " ++ problem.message
  | transport fault => "Transport error: " ++ fault.message
  | cluster fault => "Kubernetes error: " ++ fault.message
  | serialization => "Serialization error: the text is not the expected JSON document"
  | internal problem => "Internal error: " ++ problem.message

/-! ### Questions -/

def duplicateMarkers : List String := ["same with a route", "already exists"]

/-- Whether a create was refused because the destination is taken. A plain provider message counts
by its wording. -/
def isDuplicate : RouteError → Bool
  | duplicateDestination _ _ => true
  | gateway message => duplicateMarkers.any fun marker => Search.occursIn marker message
  | _ => false

/-- Whether a write was refused because the stored object had changed in between. -/
def isConflict : RouteError → Bool
  | cluster (.refused code _ _) => code = 409
  | _ => false

end RouteError

end PodRoutes
