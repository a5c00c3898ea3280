import Remoulade.Common
import Remoulade.Binary64
import Remoulade.Broker.State
import Remoulade.Broker.Log
import Remoulade.Broker.DeclareQueue
import Remoulade.Broker.Enqueue
import Remoulade.Broker.Topology
import Remoulade.Broker.ChannelCache
import Remoulade.Broker.Join
import Remoulade.Broker.Consumer
import Remoulade.Broker.Inspect
import Remoulade.Broker.Api
