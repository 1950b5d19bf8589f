import Resolved.Proof.Base64
import Resolved.Proof.Caching.Counting
import Resolved.Proof.Caching.Freshness
import Resolved.Proof.DnsSd.Owners
import Resolved.Proof.Dnssec.Canonical
import Resolved.Proof.Edns.FeatureCalls
import Resolved.Proof.Edns.Prepare
import Resolved.Proof.Exchange.Attempts
import Resolved.Proof.Exchange.PlainClients
import Resolved.Proof.Exchange.Pool
import Resolved.Proof.Hosts.Answer
import Resolved.Proof.Hyper.Flights
import Resolved.Proof.Hyper.Lead
import Resolved.Proof.Hyper.Race
import Resolved.Proof.Links.Specs
import Resolved.Proof.Llmnr.Locks
import Resolved.Proof.Llmnr.Query
import Resolved.Proof.Lookup.Exact
import Resolved.Proof.Mdns.Runtime
import Resolved.Proof.Routing.Policy
import Resolved.Proof.Routing.SplitDns
import Resolved.Proof.Routing.Sync
import Resolved.Proof.Routing.TableKeys
import Resolved.Proof.Routing.WriteBack
import Resolved.Proof.Shm.ExpandName
import Resolved.Proof.Shm.Hostname
import Resolved.Proof.Varlink.Connection
import Resolved.Proof.Varlink.Json
import Resolved.Proof.Varlink.Nesting
import Resolved.Proof.Wire.AnswerRecords
import Resolved.Proof.Wire.Body
import Resolved.Proof.Wire.Origins
import Resolved.Proof.Wire.WellFormed
