import RelayDescriptor.Text.Blank

/-!
# Document kinds

The kinds of documents that can be told apart.  Each has a type name, which is
used in type annotations and in hints, and a constant name, which is used in logs.
-/

namespace RelayDescriptor

/-- The kind of a document. -/
inductive Kind where
  | consensus
  | microdescConsensus
  | vote
  | bridgeNetworkStatus
  | bridgeServerDescriptor
  | serverDescriptor
  | bridgeExtraInfo
  | extraInfo
  | microdescriptor
  | bridgePoolAssignment
  | keyCertificate
  | exitList
  | networkStatus2
  | directory
  | performance
  deriving Repr, DecidableEq

namespace Kind

/-- All kinds, in the order in which they are listed. -/
def all : List Kind :=
  [.consensus, .microdescConsensus, .vote, .bridgeNetworkStatus, .bridgeServerDescriptor,
    .serverDescriptor, .bridgeExtraInfo, .extraInfo, .microdescriptor, .bridgePoolAssignment,
    .keyCertificate, .exitList, .networkStatus2, .directory, .performance]

/-- The name of a kind in type annotations. -/
def typeName : Kind → String
  | .consensus => "network-status-consensus-3"
  | .microdescConsensus => "network-status-microdesc-consensus-3"
  | .vote => "network-status-vote-3"
  | .bridgeNetworkStatus => "bridge-network-status"
  | .bridgeServerDescriptor => "bridge-server-descriptor"
  | .serverDescriptor => "server-descriptor"
  | .bridgeExtraInfo => "bridge-extra-info"
  | .extraInfo => "extra-info"
  | .microdescriptor => "microdescriptor"
  | .bridgePoolAssignment => "bridge-pool-assignment"
  | .keyCertificate => "dir-key-certificate-3"
  | .exitList => "tordnsel"
  | .networkStatus2 => "network-status-2"
  | .directory => "directory"
  | .performance => "torperf"

/-- The name of a kind in logs. -/
def constantName : Kind → String
  | .consensus => "NETWORK_STATUS_CONSENSUS"
  | .microdescConsensus => "NETWORK_STATUS_MICRODESC_CONSENSUS"
  | .vote => "NETWORK_STATUS_VOTE"
  | .bridgeNetworkStatus => "BRIDGE_NETWORK_STATUS"
  | .bridgeServerDescriptor => "BRIDGE_SERVER_DESCRIPTOR"
  | .serverDescriptor => "SERVER_DESCRIPTOR"
  | .bridgeExtraInfo => "BRIDGE_EXTRA_INFO"
  | .extraInfo => "EXTRA_INFO"
  | .microdescriptor => "MICRODESCRIPTOR"
  | .bridgePoolAssignment => "BRIDGE_POOL_ASSIGNMENT"
  | .keyCertificate => "DIR_KEY_CERTIFICATE"
  | .exitList => "TORDNSEL"
  | .networkStatus2 => "NETWORK_STATUS_2"
  | .directory => "DIRECTORY"
  | .performance => "TORPERF"

/-- The kind with a type name.  Blanks around the name are ignored, and so is everything from
the first space on, where a version may stand. -/
def ofTypeName? (name : Text) : Option Kind :=
  let bare := name.trim.takeWhile (· != ' ')
  all.find? fun kind => kind.typeName.toList = bare

end Kind

end RelayDescriptor
